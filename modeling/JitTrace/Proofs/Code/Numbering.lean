import JitTrace.Proofs.Code.CodeAddress
import JitTrace.Proofs.Code.Renaming
import JitTrace.Proofs.Location
import JitTrace.Proofs.Text.Layout
import JitTrace.Proofs.Text.Words
import JitTrace.Terminal.Render

/-! # Numbered code

Rendered code is joined into one text, which is cut into lines again when these are numbered. The
numbers are the positions of the output lines, counted from one, since no output line is empty or
holds a newline: the lines of a log hold none, and nothing that is added to them has any. So a label
is shown on the printed lines that its positions say, and is renamed by the numbers of these lines.
-/

namespace JitTrace

/-! ## Lines without newlines -/

namespace InstructionLine

/-- An instruction is a part of its line. -/
theorem instructionOf_subset (line : String) : (instructionOf line).toList ⊆ line.toList := by
  unfold instructionOf
  split
  next => exact List.nil_subset _
  next rest hrest =>
    have hpart : (Text.trimStart (String.ofList (rest.dropWhile (· ≠ ' ')))).toList ⊆
        line.toList := by
      have hrest := List.Subset.trans (List.dropWhile_sublist (· ≠ ' ')).subset
        (Utf8.suffix_of_dropBytes hrest).subset
      rw [← String.toList_ofList (l := rest.dropWhile _)] at hrest
      exact List.Subset.trans (Text.trimStart_subset _) hrest
    dsimp only
    split
    next narrow hnarrow =>
      rw [Text.afterStart?_eq_some_iff] at hnarrow
      rw [← hnarrow, String.toList_append] at hpart
      exact List.Subset.trans (Text.trimStart_subset narrow) (List.append_subset.mp hpart).2
    next => exact hpart

end InstructionLine

/-- The words that a jump is made of. -/
def Jump.words : Jump → List String
  | .direct mnemonic target => [mnemonic, target]
  | .indirect mnemonic operand => [mnemonic, operand]

theorem Jump.words_subset {instruction : String} {jump : Jump}
    (hjump : ofInstruction? instruction = some jump) :
    jump.words ⊆ Text.words instruction := by
  unfold ofInstruction? at hjump
  split at hjump
  next =>
    split at hjump
    next mnemonic operand rest hwords =>
      have hfirst : [mnemonic, operand] ⊆ Text.words instruction := by
        rw [hwords]
        exact List.cons_subset_cons _ (List.cons_subset_cons _ (List.nil_subset rest))
      split at hjump <;> cases hjump <;> exact hfirst
    next => cases hjump
  next => cases hjump

theorem Label.newline_notMem_deducedName (label : Label) : '\n' ∉ label.deducedName.toList := by
  obtain ⟨word, hword, hname⟩ := label.exists_deducedName_eq
  have hdigits : '\n' ∉ label.id.repr.toList := Text.not_mem_toString (by decide) label.id
  have hletters : ∀ word ∈ ["loop", "reentry", "skip", "label"], '\n' ∉ word.toList := by decide
  rw [hname, String.toList_append, List.mem_append]
  exact not_or.mpr ⟨hletters word hword, hdigits⟩

theorem OutputLine.text_ne_empty (output : OutputLine) (name : String → String) :
    output.text name ≠ "" := by
  cases output <;> simp [text, toString]

namespace Block

variable {lines : List String}

/-- Nothing that is written for lines without newlines has one, if no name of a label has. -/
theorem newline_notMem_text (hlines : ∀ line ∈ lines, '\n' ∉ line.toList)
    {name : String → String} (hname : ∀ address ∈ targets lines, '\n' ∉ (name address).toList)
    {output : OutputLine} (houtput : output ∈ document lines) :
    '\n' ∉ (output.text name).toList := by
  obtain ⟨line, hline, ⟨htarget, rfl⟩ | hinstruction⟩ := mem_document_iff.mp houtput
  · simp [OutputLine.text, toString, hname _ htarget]
  · have hown : '\n' ∉ (InstructionLine.instructionOf line).toList := fun hmem =>
      hlines line (List.mem_of_mem_filter hline) (InstructionLine.instructionOf_subset line hmem)
    have hwords : ∀ jump, Jump.ofInstruction? (InstructionLine.instructionOf line) = some jump →
        ∀ word ∈ jump.words, '\n' ∉ word.toList := fun jump hjump word hword =>
      Text.newline_notMem_of_mem_words (Jump.words_subset hjump hword)
    unfold outputOf at hinstruction
    split at hinstruction
    next =>
      subst hinstruction
      simp [OutputLine.text, toString, hown]
    next mnemonic operand hjump =>
      subst hinstruction
      have hparts := hwords _ hjump
      simp only [Jump.words, List.forall_mem_cons] at hparts
      simp [OutputLine.text, toString, hparts]
    next mnemonic target hjump =>
      have hparts := hwords _ hjump
      simp only [Jump.words, List.forall_mem_cons] at hparts
      split at hinstruction
      next =>
        subst hinstruction
        simp [OutputLine.text, toString, hparts, hname _ (mem_targets_of_toLabel_mem houtput)]
      next =>
        subst hinstruction
        simp [OutputLine.text, toString, hparts]

/-- The lines of a block are lines of the log. -/
theorem mem_items_of_extract {chunk : Nat} {stream : Stream} {address : String}
    (hextract : extract chunk stream address = .ok lines) {line : String} (hline : line ∈ lines) :
    .ok line ∈ stream.items := by
  by_cases haddress : address = ""
  · subst haddress
    cases hextract
    cases hline
  · rw [extract_of_ne haddress] at hextract
    obtain ⟨result, hresult⟩ := exists_extracts address stream.items
    rw [hresult.find_eq] at hextract
    generalize stream.items = items at hresult ⊢
    cases hresult with
    | ended hfront hheader hbody =>
        cases hextract
        refine List.mem_append_left _ (List.mem_map_of_mem ?_)
        exact List.mem_append_right _ (List.mem_cons_of_mem _ hline)
    | open_ hfront hheader hbody =>
        cases hextract
        exact List.mem_map_of_mem (List.mem_append_right _ (List.mem_cons_of_mem _ hline))
    | broken => cases hextract
    | unreached => cases hextract
    | absent =>
        cases hextract
        cases hline

end Block

/-! ## Printed lines -/

/-- An output line with its number, counted from one, as it is printed among `count` lines. Only the
last one keeps a carriage return at its end. -/
def numberedLine (count index : Nat) (line : String) : String :=
  Text.padLeft 4 (toString (index + 1)) ++ " " ++
    if index + 1 < count then Text.withoutReturn line else line

theorem paintCodeLine_plain (line : String) : paintCodeLine .plain line = line := by
  unfold paintCodeLine
  split <;> rfl

theorem renderCodeLine_plain (number : Nat) (line : String) :
    renderCodeLine .plain number line = Text.padLeft 4 (toString number) ++ " " ++ line := by
  rw [renderCodeLine, paintCodeLine_plain]
  rfl

theorem numberedLines_joinLines {texts : List String} (hfull : ∀ text ∈ texts, text ≠ "")
    (hwhole : ∀ text ∈ texts, '\n' ∉ text.toList) :
    numberedLines .plain (Text.joinLines texts) = texts.mapIdx (numberedLine texts.length) := by
  rw [numberedLines, Text.lines_joinLines hfull hwhole]
  apply List.ext_getElem?
  intro index
  simp only [List.getElem?_mapIdx, Option.map_map, renderCodeLine_plain]
  rfl

theorem newline_notMem_numberedLine {line : String} (hline : '\n' ∉ line.toList)
    (count index : Nat) : '\n' ∉ (numberedLine count index line).toList := by
  have hnumber : '\n' ∉ (toString (index + 1)).toList :=
    Text.not_mem_toString (by decide) (index + 1)
  have hshown : '\n' ∉ (if index + 1 < count then Text.withoutReturn line else line).toList := by
    split
    next => exact fun hmem => hline (Text.withoutReturn_subset line hmem)
    next => exact hline
  rw [numberedLine, Text.padLeft]
  simp only [String.toList_append, String.toList_ofList, List.mem_append, not_or]
  exact ⟨⟨⟨by simp, hnumber⟩, by decide⟩, hshown⟩

/-! ## Positions of labels -/

/-- A label that is placed in an outline is defined on its own line, and the lines that it is
referenced at show it. -/
theorem Label.output_of_place {label : Label} (hline : label.line = none)
    (hreferenced : label.referencedAt = []) {address : String} {outline : List OutputLine}
    {position : Nat} :
    ((label.place address outline).line = some position →
        outline[position]? = some (.definition address)) ∧
      (position ∈ (label.place address outline).referencedAt →
        ∃ mnemonic, outline[position]? = some (.toLabel mnemonic address)) := by
  constructor
  · intro hposition
    rw [place, hline, Option.or_none, getLast?_findIdxs_eq_some_iff] at hposition
    obtain ⟨⟨output, houtput, hdefines⟩, -⟩ := hposition
    rw [houtput, OutputLine.defines_iff.mp hdefines]
  · intro hposition
    rw [place, hreferenced, List.nil_append] at hposition
    obtain ⟨output, houtput, hshows⟩ : ∃ output, outline[position]? = some output ∧
        output.showsTarget address := by
      simpa [List.getElem?_eq_some_iff] using hposition
    cases output with
    | toLabel mnemonic target =>
        obtain rfl : target = address := of_decide_eq_true hshows
        exact ⟨mnemonic, houtput⟩
    | _ => cases hshows

namespace LabelCache

variable {lines : List String} {context : String}

/-- A label of a document stands where its positions say, under its name. -/
theorem position_of_label {target : String} {label : Label} {position : Nat}
    (hlabel : ((∅ : LabelCache).decompile lines context).2.get? target = some label) :
    nameOf (Block.labels? lines context) target = label.displayName ∧
      (label.line = some position →
        (Block.document lines)[position]? = some (.definition target)) ∧
      (position ∈ label.referencedAt →
        ∃ mnemonic, (Block.document lines)[position]? = some (.toLabel mnemonic target)) ∧
      (label.touchesLine position →
        Block.addressAt? (Block.document lines) position = some target) := by
  rw [(decompile_empty_spec lines context).2 target, Option.map_eq_some_iff] at hlabel
  obtain ⟨found, hfound, rfl⟩ := hlabel
  refine ⟨(nameOf_eq hfound).trans (Label.displayName_place ..).symm, ?_⟩
  obtain ⟨id, rfl⟩ := Block.exists_label_eq hfound
  obtain ⟨hdefined, hshown⟩ := @Label.output_of_place
    ((Label.fresh id context).countJumps target (Block.jumps lines)) rfl rfl target
    (Block.document lines) position
  exact ⟨hdefined, hshown, (Label.touchesLine_place_iff _ rfl rfl _ _ _).mp⟩

/-- No output line of a document holds a newline, if no line does. -/
theorem newline_notMem_decompile (hlines : ∀ line ∈ lines, '\n' ∉ line.toList) :
    ∀ line ∈ ((∅ : LabelCache).decompile lines context).1, '\n' ∉ line.toList := by
  rw [(decompile_empty_spec lines context).1, List.forall_mem_map]
  intro output houtput
  refine Block.newline_notMem_text hlines (fun address haddress => ?_) houtput
  obtain ⟨label, -, hname⟩ := exists_nameOf_labels?_eq context haddress
  rw [hname]
  exact label.newline_notMem_deducedName

theorem ne_empty_of_mem_decompile :
    ∀ line ∈ ((∅ : LabelCache).decompile lines context).1, line ≠ "" := by
  rw [(decompile_empty_spec lines context).1, List.forall_mem_map]
  exact fun output _ => output.text_ne_empty _

end LabelCache

/-- A printed number with a name behind it is read as a request to rename. -/
theorem Rename.parse_printed {number : Nat} (hpos : 0 < number) (hfits : number < UInt64.size)
    {name : String} (hname : Text.trim name ≠ "") :
    Rename.parse (toString number ++ "=" ++ name) = .ok ⟨number, Text.trim name⟩ := by
  have hdigits : '=' ∉ (toString number).toList := Text.not_mem_toString (by decide) number
  have hsplit : Text.splitFirst '=' (toString number ++ "=" ++ name) =
      some (toString number, name) :=
    Text.splitFirst_eq_some (by simp) hdigits
  rw [parse, hsplit]
  dsimp only
  rw [Text.trim_toString, Text.readDecimal_toString hfits]
  obtain ⟨previous, rfl⟩ := Nat.exists_eq_succ_of_ne_zero (Nat.ne_of_gt hpos)
  simp [hname]

namespace LabelCache

/-- A block that is rendered without older labels and printed without colours has one printed line
for each output line, with the position of the output line as its number, counted from one. A line
in front of the last one loses a carriage return at its end. A label is defined on the printed line
of its own position, and shown on those of the positions at which it is referenced. A request with
the number of any of these lines renames this label and no other, also behind earlier requests. -/
theorem printed_lines_are_positions {chunk : Nat} {stream : Stream} {address : String}
    {lines : List String} (hextract : Block.extract chunk stream address = .ok lines)
    (context : String) :
    let rendered := (∅ : LabelCache).decompile lines context
    let output := rendered.1
    let code := renderCode .plain (Text.joinLines output)
    let printed := output.mapIdx (numberedLine output.length)
    (code = Text.joinLines printed ∧ (output ≠ [] → Text.fields '\n' code = printed) ∧
      printed.length = output.length) ∧
    (∀ index line, output[index]? = some line → ∃ shown,
      printed[index]? = some (Text.padLeft 4 (toString (index + 1)) ++ " " ++ shown) ∧
        (line = shown ∨ line = shown ++ "\r")) ∧
    ∀ target label, rendered.2.get? target = some label → ∀ position,
      label.line = some position ∨ position ∈ label.referencedAt →
        (label.line = some position → output[position]? = some s!"{label.displayName}:") ∧
        (position ∈ label.referencedAt →
          ∃ mnemonic : String,
            output[position]? = some s!"  {mnemonic} {label.displayName}") ∧
        (∀ name, Text.trim name ≠ "" → position + 1 < UInt64.size →
          Rename.parse (toString (position + 1) ++ "=" ++ name) =
            .ok ⟨position + 1, Text.trim name⟩) ∧
        ∀ (renames : List Rename) (name : String),
          let before := rendered.2.renameAll context renames
          let answer := before.rename context (Rename.position ⟨position + 1, name⟩) name
          ∃ current, before.get? target = some current ∧
            answer.1 = some current.displayName ∧
            ∀ other, answer.2.get? other =
              if other = target then some { current with userLabel := some name }
              else before.get? other := by
  intro rendered output code printed
  have hlines : ∀ line ∈ lines, '\n' ∉ line.toList := fun line hline =>
    Block.newline_notMem_of_mem_items (Block.mem_items_of_extract hextract hline)
  have hwhole : ∀ line ∈ output, '\n' ∉ line.toList := newline_notMem_decompile hlines
  have hcode : code = Text.joinLines printed :=
    congrArg Text.joinLines (numberedLines_joinLines ne_empty_of_mem_decompile hwhole)
  have houtput : ∀ position : Nat, output[position]? =
      (Block.document lines)[position]?.map
        (OutputLine.text (nameOf (Block.labels? lines context))) := by
    intro position
    rw [show output = _ from (decompile_empty_spec lines context).1, List.getElem?_map]
  refine ⟨⟨hcode, ?_, List.length_mapIdx⟩, ?_, ?_⟩
  · intro hsome
    rw [hcode, Text.fields_joinLines (by simpa [printed] using hsome)]
    intro text htext
    obtain ⟨index, hindex, rfl⟩ := List.mem_mapIdx.mp htext
    exact newline_notMem_numberedLine (hwhole _ (List.getElem_mem hindex)) _ _
  · intro index line hline
    refine ⟨if index + 1 < output.length then Text.withoutReturn line else line, ?_, ?_⟩
    · rw [List.getElem?_mapIdx, hline]
      rfl
    · split
      next => exact Text.eq_withoutReturn_or line
      next => exact Or.inl rfl
  · intro target label hlabel position hposition
    obtain ⟨hname, hdefined, hshown, htouched⟩ := @position_of_label _ _ _ _ position hlabel
    refine ⟨?_, ?_, fun name hname hfits => Rename.parse_printed (Nat.succ_pos _) hfits hname, ?_⟩
    · intro hline
      rw [houtput, hdefined hline, Option.map_some, OutputLine.text, hname]
    · intro hreferenced
      obtain ⟨mnemonic, hmnemonic⟩ := hshown hreferenced
      exact ⟨mnemonic, by rw [houtput, hmnemonic, Option.map_some, OutputLine.text, hname]⟩
    · intro renames name before answer
      have haddress := htouched (by simpa [Label.touchesLine] using hposition)
      exact ((renamed_decompile_empty lines context).renameAll renames).exists_renamed haddress name

/-- A log with carriage returns and a blank line, and a request behind another one. -/
theorem printed_lines_of_carriage_returns :
    let log := "0xA code\n0x10                          00 nop\r\n \r\n" ++
      "0x14                          00 jnz 0x10\r\n0x18                          00 ret\r\n\n"
    let lines := ["0x10                          00 nop\r", " \r",
      "0x14                          00 jnz 0x10\r", "0x18                          00 ret\r", ""]
    let rendered := (∅ : LabelCache).decompile lines "0xA.asm"
    let renamed := rendered.2.renameAll "0xA.asm" [⟨3, "again"⟩]
    Block.extract 64 (.ofBytes (Utf8.bytesOf log.toList)) "0xA" = .ok lines ∧
      renderCode .plain (Text.joinLines rendered.1) =
        "   1 loop0:\n   2   nop\n   3   jnz loop0\n   4   ret\r" ∧
      rendered.2.get? "0x10" = some ⟨0, some 0, 1, [2], none, "0xA.asm", true, false⟩ ∧
      rendered.1[2]? = some "  jnz loop0" ∧
      Rename.parse "3= spin" = .ok ⟨3, "spin"⟩ ∧
      (renamed.rename "0xA.asm" 2 "spin").1 = some "again" := by
  intro log lines rendered renamed
  have hextract : Block.extract 64 (.ofBytes (Utf8.bytesOf log.toList)) "0xA" = .ok lines := by
    rw [Block.extract_of_ne (by decide)]
    decide +kernel
  have hlabel : rendered.2.get? "0x10" =
      some ⟨0, some 0, 1, [2], none, "0xA.asm", true, false⟩ := by decide +kernel
  obtain ⟨⟨hcode, -⟩, -, hlabels⟩ := printed_lines_are_positions hextract "0xA.asm"
  obtain ⟨-, -, hparse, hrename⟩ := hlabels _ _ hlabel 2 (Or.inr (by decide))
  have hprinted : Text.joinLines (rendered.1.mapIdx (numberedLine rendered.1.length)) =
      "   1 loop0:\n   2   nop\n   3   jnz loop0\n   4   ret\r" := by decide +kernel
  refine ⟨hextract, hcode.trans hprinted, hlabel, ?_, hparse " spin" (by decide) (by decide), ?_⟩
  · decide +kernel
  · obtain ⟨current, hcurrent, hanswer, -⟩ := hrename [⟨3, "again"⟩] "spin"
    have hrenamed : renamed.get? "0x10" =
        some ⟨0, some 0, 1, [2], some "again", "0xA.asm", true, false⟩ := by decide +kernel
    obtain rfl := Option.some.inj (hrenamed.symm.trans hcurrent)
    exact hanswer

end LabelCache

end JitTrace
