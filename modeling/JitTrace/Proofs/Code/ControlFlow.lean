import JitTrace.Proofs.Code.Names
import Mathlib.Data.List.Basic

/-! # Control flow in rendered code

In the output for a block, a jump names the definition that stands right in front of the instruction
it reaches.
-/

namespace JitTrace

/-! ## Blank lines -/

theorem Text.isEmpty_trim_iff (text : String) :
    (trim text).isEmpty ↔ ∀ char ∈ text.toList, isBlank char := by
  rw [trim, String.isEmpty_iff, String.ofList_eq_empty_iff, dropBlankEnd, List.reverse_eq_nil_iff,
    List.dropWhile_eq_nil_iff]
  constructor
  · intro hblank
    rw [← List.dropWhile_eq_nil_iff]
    by_contra hne
    -- the first character that is left would have to be blank and is not
    have hsolid := List.head_dropWhile_not isBlank hne
    have hmem := hblank _ (List.mem_reverse.mpr (List.head_mem hne))
    simp [hmem] at hsolid
  · intro hblank char hmem
    exact hblank char ((List.dropWhile_sublist _).subset (List.mem_reverse.mp hmem))

theorem InstructionLine.instructionOf_eq_empty {line : String} (hblank : (Text.trim line).isEmpty) :
    instructionOf line = "" := by
  rw [Text.isEmpty_trim_iff] at hblank
  unfold instructionOf
  cases hdropped : Utf8.dropBytes searchOffset line.toList with
  | none => rfl
  | some rest =>
      have hrest : (rest.dropWhile (· ≠ ' ')).dropWhile Text.isBlank = [] := by
        rw [List.dropWhile_eq_nil_iff]
        intro char hmem
        exact hblank char ((Utf8.suffix_of_dropBytes hdropped).subset
          ((List.dropWhile_sublist _).subset hmem))
      simp only [Text.trimStart, String.toList_ofList, hrest]
      rfl

theorem InstructionLine.not_isEmpty_trim_of_jump {line : String} {jump : Jump}
    (hjump : Jump.ofInstruction? (instructionOf line) = some jump) :
    ¬ (Text.trim line).isEmpty := by
  intro hblank
  rw [instructionOf_eq_empty hblank] at hjump
  cases hjump

/-! ## Definitions and instructions in an outline -/

namespace OutputLine

def isDefinition : OutputLine → Bool
  | definition _ => true
  | _ => false

@[simp]
theorem isDefinition_definition (address : String) : (definition address).isDefinition = true :=
  rfl

theorem isDefinition_iff {output : OutputLine} :
    output.isDefinition ↔ ∃ address, output = definition address := by
  cases output <;> simp [isDefinition]

/-- Instructions are indented. -/
theorem head?_text {output : OutputLine} (houtput : output.isDefinition = false)
    (name : String → String) : (output.text name).toList.head? = some ' ' := by
  cases output with
  | definition address => cases houtput
  | plain instruction => simp [text, toString]
  | indirect mnemonic operand => simp [text, toString]
  | toLabel mnemonic target => simp [text, toString]
  | outside mnemonic target => simp [text, toString]

end OutputLine

namespace Block

/-- The lines that are written, which are those that are not blank. -/
def written (lines : List String) : List String :=
  lines.filter fun line => !(Text.trim line).isEmpty

theorem isDefinition_outputOf (block : List String) (instruction : String) :
    (outputOf block instruction).isDefinition = false := by
  unfold outputOf
  split
  next => rfl
  next => rfl
  next => split <;> rfl

theorem outputOf_ne_definition (block : List String) (instruction address : String) :
    outputOf block instruction ≠ .definition address := by
  intro heq
  have houtput := isDefinition_outputOf block instruction
  rw [heq] at houtput
  cases houtput

/-- What a line that is not blank is written as. -/
def outputsOf (block : List String) (line : String) : List OutputLine :=
  (if InstructionLine.addressOf line ∈ targets block then
    [.definition (InstructionLine.addressOf line)] else []) ++
      [outputOf block (InstructionLine.instructionOf line)]

theorem outline_targets_eq (block lines : List String) :
    outline block (fun address => decide (address ∈ targets block)) lines =
      (written lines).flatMap (outputsOf block) := by
  induction lines with
  | nil => simp [outline, written]
  | cons line rest ih =>
      rw [outline, List.flatMap_cons, ← outline, ih, outlineOfLine, written, written,
        List.filter_cons]
      split
      next hblank => simp [hblank]
      next hsolid => simp [hsolid, outputsOf]

variable {lines : List String}

theorem document_eq (lines : List String) :
    document lines = (written lines).flatMap (outputsOf lines) :=
  outline_targets_eq lines lines

/-- Without its definitions, a document has one output line for each line that is written. -/
theorem filter_document (lines : List String) :
    (document lines).filter (fun output => !output.isDefinition) =
      (written lines).map fun line => outputOf lines (InstructionLine.instructionOf line) := by
  rw [document_eq, List.filter_flatMap, List.map_eq_flatMap]
  congr 1
  funext line
  by_cases htarget : InstructionLine.addressOf line ∈ targets lines <;>
    simp [outputsOf, htarget, isDefinition_outputOf]

/-- A target is defined as often as lines with its address are written. -/
theorem count_definition_document {target : String} (htarget : target ∈ targets lines) :
    (document lines).count (.definition target) =
      ((written lines).map InstructionLine.addressOf).count target := by
  have hline : ∀ line, (outputsOf lines line).count (.definition target) =
      [InstructionLine.addressOf line].count target := by
    intro line
    have hnot := outputOf_ne_definition lines (InstructionLine.instructionOf line) target
    by_cases heq : InstructionLine.addressOf line = target
    · simp [outputsOf, heq, htarget, hnot]
    · by_cases hother : InstructionLine.addressOf line ∈ targets lines <;>
        simp [outputsOf, heq, hother, hnot]
  rw [document_eq, List.map_eq_flatMap, List.count_flatMap, List.count_flatMap]
  congr 2
  funext line
  exact hline line

/-- A definition stands right in front of the instruction at its address. -/
theorem infix_document {line : String} (hline : line ∈ written lines)
    (htarget : InstructionLine.addressOf line ∈ targets lines) :
    [.definition (InstructionLine.addressOf line),
      outputOf lines (InstructionLine.instructionOf line)] <:+: document lines := by
  obtain ⟨before, after, hsplit⟩ := List.append_of_mem hline
  rw [document_eq, hsplit, List.flatMap_append, List.flatMap_cons, outputsOf, if_pos htarget,
    List.singleton_append, ← List.append_assoc]
  exact List.infix_append _ _ _

theorem mem_document_iff {output : OutputLine} :
    output ∈ document lines ↔ ∃ line ∈ written lines,
      (InstructionLine.addressOf line ∈ targets lines ∧
        output = .definition (InstructionLine.addressOf line)) ∨
      output = outputOf lines (InstructionLine.instructionOf line) := by
  simp only [document_eq, List.mem_flatMap, outputsOf, List.mem_append, List.mem_ite_nil_right,
    List.mem_singleton]

theorem mem_targets_of_definition_mem {address : String}
    (hmem : .definition address ∈ document lines) : address ∈ targets lines := by
  obtain ⟨line, -, ⟨htarget, heq⟩ | heq⟩ := mem_document_iff.mp hmem
  · cases heq
    exact htarget
  · exact absurd heq.symm (outputOf_ne_definition lines _ address)

theorem mem_targets_of_toLabel_mem {mnemonic target : String}
    (hmem : .toLabel mnemonic target ∈ document lines) : target ∈ targets lines := by
  obtain ⟨line, hline, ⟨-, heq⟩ | heq⟩ := mem_document_iff.mp hmem
  · cases heq
  · obtain ⟨jump, hjump, rfl⟩ := exists_jump_of_toLabel (List.mem_of_mem_filter hline) heq.symm
    exact List.mem_map_of_mem hjump

/-- A line jumps to an address in range. -/
def JumpsTo (lines : List String) (line mnemonic target : String) : Prop :=
  line ∈ lines ∧
    Jump.ofInstruction? (InstructionLine.instructionOf line) = some (.direct mnemonic target) ∧
    ∃ range, CodeRange.ofBlock? lines = some range ∧ range.contains target

theorem JumpsTo.inRange {line mnemonic target : String}
    (hjump : JumpsTo lines line mnemonic target) : InRange lines target := by
  obtain ⟨-, -, range, hrange, hcontains⟩ := hjump
  have hany := any_contains_ofBlock? lines target
  rw [hrange, Option.any_some, hcontains] at hany
  exact of_decide_eq_true hany.symm

theorem JumpsTo.mem_written {line mnemonic target : String}
    (hjump : JumpsTo lines line mnemonic target) : line ∈ written lines := by
  rw [written, List.mem_filter, Bool.not_eq_true']
  exact ⟨hjump.1, Bool.eq_false_iff.mpr (InstructionLine.not_isEmpty_trim_of_jump hjump.2.1)⟩

theorem JumpsTo.outputOf_eq {line mnemonic target : String}
    (hjump : JumpsTo lines line mnemonic target) :
    outputOf lines (InstructionLine.instructionOf line) = .toLabel mnemonic target := by
  simp only [outputOf, hjump.2.1, if_pos hjump.inRange]

theorem JumpsTo.mem_targets {line mnemonic target : String}
    (hjump : JumpsTo lines line mnemonic target) :
    target ∈ targets lines := by
  obtain ⟨jump, hmem, htarget⟩ := exists_jump_of_toLabel hjump.1 hjump.outputOf_eq
  exact List.mem_map.mpr ⟨jump, hmem, htarget⟩

/-- Labels are written for the jumps into the range and no others. -/
theorem toLabel_mem_document_iff {mnemonic target : String} :
    .toLabel mnemonic target ∈ document lines ↔ ∃ line, JumpsTo lines line mnemonic target := by
  constructor
  · intro hmem
    obtain ⟨line, hline, ⟨-, heq⟩ | heq⟩ := mem_document_iff.mp hmem
    · cases heq
    unfold outputOf at heq
    split at heq
    next => cases heq
    next => cases heq
    next written reached hdirect =>
      split at heq
      next hrange =>
        cases heq
        have hany := any_contains_ofBlock? lines target
        rw [decide_eq_true hrange, Option.any_eq_true] at hany
        exact ⟨line, List.mem_of_mem_filter hline, hdirect, hany⟩
      next => cases heq
  · rintro ⟨line, hjump⟩
    exact mem_document_iff.mpr ⟨line, hjump.mem_written, .inr hjump.outputOf_eq.symm⟩

end Block

/-! ## The text of a document -/

namespace LabelCache

/-- The lines that define labels. -/
def definitions (cache : LabelCache) : List String :=
  cache.labels.keys.map fun address => s!"{nameOf cache.get? address}:"

theorem mem_definitions_iff (cache : LabelCache) (text : String) :
    text ∈ cache.definitions ↔
      ∃ address, (cache.get? address).isSome ∧ s!"{nameOf cache.get? address}:" = text := by
  simp only [definitions, List.mem_map, ← Index.isSome_get?_iff]
  rfl

theorem Places.nameOf_eq {labels : String → Option Label} {outline : List OutputLine}
    {cache : LabelCache} (hplaces : Places labels outline cache) :
    nameOf cache.get? = nameOf labels := by
  funext address
  rw [nameOf, nameOf, hplaces address, Option.map_map]
  rfl

theorem Places.isSome_iff {labels : String → Option Label} {outline : List OutputLine}
    {cache : LabelCache} (hplaces : Places labels outline cache) (address : String) :
    (cache.get? address).isSome ↔ (labels address).isSome := by
  rw [hplaces address, Option.isSome_map]

variable {lines : List String} (context : String)

/-- Only the definition of a target has its text: instructions are indented, which names are not,
and no two targets share a name. -/
theorem text_eq_iff {output : OutputLine} (houtput : output ∈ Block.document lines)
    {target : String} (htarget : target ∈ Block.targets lines) :
    output.text (nameOf (Block.labels? lines context)) =
        s!"{nameOf (Block.labels? lines context) target}:" ↔
      output = .definition target := by
  cases hdefinition : output.isDefinition with
  | true =>
      obtain ⟨address, rfl⟩ := OutputLine.isDefinition_iff.mp hdefinition
      have haddress := Block.mem_targets_of_definition_mem houtput
      rw [OutputLine.definition.injEq, ← nameOf_labels?_inj context haddress htarget]
      exact String.append_left_inj _
  | false =>
      refine iff_of_false ?_ ?_
      · intro htext
        have hhead := OutputLine.head?_text hdefinition (nameOf (Block.labels? lines context))
        obtain ⟨label, -, hname⟩ := exists_nameOf_labels?_eq context htarget
        rw [htext, hname] at hhead
        exact label.head?_definition_ne_space hhead
      · rintro rfl
        cases hdefinition

theorem text_mem_definitions_iff {output : OutputLine} (houtput : output ∈ Block.document lines) :
    output.text (nameOf (Block.labels? lines context)) ∈
        ((∅ : LabelCache).decompile lines context).2.definitions ↔
      output.isDefinition := by
  have hplaces := (decompile_empty_spec lines context).2
  rw [mem_definitions_iff, hplaces.nameOf_eq, OutputLine.isDefinition_iff]
  refine exists_congr fun address => ?_
  rw [hplaces.isSome_iff, Block.isSome_labels?_iff]
  constructor
  · rintro ⟨htarget, htext⟩
    exact (text_eq_iff context houtput htarget).mp htext.symm
  · rintro rfl
    exact ⟨Block.mem_targets_of_definition_mem houtput, rfl⟩

theorem count_text_definition {target : String} (htarget : target ∈ Block.targets lines) :
    ((Block.document lines).map (OutputLine.text (nameOf (Block.labels? lines context)))).count
        s!"{nameOf (Block.labels? lines context) target}:" =
      ((Block.written lines).map InstructionLine.addressOf).count target := by
  rw [← Block.count_definition_document htarget, List.count_eq_countP, List.count_eq_countP,
    List.countP_map]
  refine List.countP_congr fun output houtput => ?_
  simp only [Function.comp_apply, beq_iff_eq]
  exact text_eq_iff context houtput htarget

/-- Rendering a block on its own keeps its control flow, if no two of its lines have one address.
A line that jumps to the address of a line shows the name of a label; one output line defines
this name, and right behind it stands what is written for the line at the address. Jumps show one
name if they have one target. Without the definitions, the output lines are those of the lines
that are not blank, in order. -/
theorem decompile_control_flow (lines : List String) (context : String)
    (hdistinct : ((Block.written lines).map InstructionLine.addressOf).Nodup) :
    let rendered := (∅ : LabelCache).decompile lines context
    let name := nameOf rendered.2.get?
    let textOf := fun line =>
      (Block.outputOf lines (InstructionLine.instructionOf line)).text name
    (∀ line mnemonic target, Block.JumpsTo lines line mnemonic target →
      ∀ reached ∈ Block.written lines, InstructionLine.addressOf reached = target →
        line ∈ Block.written lines ∧
        (rendered.2.get? target).isSome ∧
        textOf line = s!"  {mnemonic} {name target}" ∧
        rendered.1.count s!"{name target}:" = 1 ∧
        [s!"{name target}:", textOf reached] <:+: rendered.1) ∧
    (∀ line mnemonic target otherLine otherMnemonic otherTarget,
      Block.JumpsTo lines line mnemonic target →
      Block.JumpsTo lines otherLine otherMnemonic otherTarget →
        (name target = name otherTarget ↔ target = otherTarget)) ∧
    rendered.1.filter (fun text => text ∉ rendered.2.definitions) =
      (Block.written lines).map textOf := by
  intro rendered name textOf
  obtain ⟨htext, hplaces⟩ := decompile_empty_spec lines context
  have hname : name = nameOf (Block.labels? lines context) := hplaces.nameOf_eq
  have hwritten : rendered.1 = (Block.document lines).map (OutputLine.text name) := hname ▸ htext
  refine ⟨?_, ?_, ?_⟩
  · rintro line mnemonic target hjump reached hreached rfl
    have htarget := hjump.mem_targets
    refine ⟨hjump.mem_written, ?_, ?_, ?_, ?_⟩
    · rw [hplaces.isSome_iff, Block.isSome_labels?_iff]
      exact htarget
    · simp only [textOf, hjump.outputOf_eq, OutputLine.text]
    · rw [hwritten, hname, count_text_definition context htarget]
      exact List.count_eq_one_of_mem hdistinct (List.mem_map_of_mem hreached)
    · rw [hwritten]
      exact (Block.infix_document hreached htarget).map (OutputLine.text name)
  · intro line mnemonic target otherLine otherMnemonic otherTarget hjump hother
    rw [hname]
    exact nameOf_labels?_inj context hjump.mem_targets hother.mem_targets
  · have hkept : (Block.document lines).filter
        (fun output => output.text name ∉ rendered.2.definitions) =
          (Block.document lines).filter fun output => !output.isDefinition := by
      refine List.filter_congr fun output houtput => ?_
      rw [hname, decide_not, Bool.not_inj_iff, Bool.eq_iff_iff, decide_eq_true_iff]
      exact text_mem_definitions_iff context houtput
    calc rendered.1.filter (fun text => text ∉ rendered.2.definitions)
      _ = ((Block.document lines).map (OutputLine.text name)).filter
            (fun text => text ∉ rendered.2.definitions) := congrArg _ hwritten
      _ = ((Block.document lines).filter fun output => !output.isDefinition).map
            (OutputLine.text name) := by rw [← hkept, List.filter_map]; rfl
      _ = (Block.written lines).map textOf := by rw [Block.filter_document, List.map_map]; rfl

/-- Two jumps that cross, forward to the last line and back to the first. -/
theorem control_flow_of_crossing_jumps :
    let lines := [
      "0x10                          00 jz 0x12",
      "0x11                          00 jmp 0x10",
      "0x12                          00 ret",
      ""]
    let first := "0x10"
    let last := "0x12"
    let rendered := (∅ : LabelCache).decompile lines "code"
    let name := nameOf rendered.2.get?
    ((Block.written lines).map InstructionLine.addressOf).Nodup ∧
      (rendered.1.count s!"{name last}:" = 1 ∧ [s!"{name last}:", "  ret"] <:+: rendered.1) ∧
      (rendered.1.count s!"{name first}:" = 1 ∧
        [s!"{name first}:", "  jz skip0"] <:+: rendered.1) ∧
      name last ≠ name first := by
  intro lines first last rendered name
  have hdistinct : ((Block.written lines).map InstructionLine.addressOf).Nodup := by
    decide +kernel
  have hforward : Block.JumpsTo lines lines[0] "jz" last :=
    ⟨List.getElem_mem _, by decide +kernel, _, rfl, by decide +kernel⟩
  have hback : Block.JumpsTo lines lines[1] "jmp" first :=
    ⟨List.getElem_mem _, by decide +kernel, _, rfl, by decide +kernel⟩
  obtain ⟨hjumps, hnames, -⟩ := decompile_control_flow lines "code" hdistinct
  obtain ⟨-, -, -, honce, hbehind⟩ :=
    hjumps _ _ _ hforward lines[2] (by decide +kernel) (by decide +kernel)
  obtain ⟨-, -, -, honceFirst, hbehindFirst⟩ :=
    hjumps _ _ _ hback lines[0] (by decide +kernel) (by decide +kernel)
  have hreturn : (Block.outputOf lines (InstructionLine.instructionOf lines[2])).text name =
      "  ret" := by
    decide +kernel
  have hskip : (Block.outputOf lines (InstructionLine.instructionOf lines[0])).text name =
      "  jz skip0" := by
    decide +kernel
  refine ⟨hdistinct, ⟨honce, ?_⟩, ⟨honceFirst, ?_⟩, fun hname => ?_⟩
  · rewrite [← hreturn]
    exact hbehind
  · rewrite [← hskip]
    exact hbehindFirst
  · have htarget := (hnames _ _ _ _ _ _ hforward hback).mp hname
    exact absurd htarget (by decide)

/-- A jump into the range shows a label whether or not its target is the address of a line, and
the label is defined if and only if it is. So the text of a block defines all labels that it shows
exactly if every jump into the range reaches a line. -/
theorem decompile_definitions (lines : List String) (context : String) :
    let rendered := (∅ : LabelCache).decompile lines context
    let name := nameOf rendered.2.get?
    let Reached := fun target =>
      ∃ line ∈ Block.written lines, InstructionLine.addressOf line = target
    rendered.1 = (Block.document lines).map (OutputLine.text name) ∧
    (∀ mnemonic target, .toLabel mnemonic target ∈ Block.document lines ↔
      ∃ line, Block.JumpsTo lines line mnemonic target) ∧
    (∀ line mnemonic target, Block.JumpsTo lines line mnemonic target →
      (s!"{name target}:" ∈ rendered.1 ↔ Reached target)) ∧
    ((∀ mnemonic target, .toLabel mnemonic target ∈ Block.document lines →
        s!"{name target}:" ∈ rendered.1) ↔
      ∀ line mnemonic target, Block.JumpsTo lines line mnemonic target → Reached target) := by
  intro rendered name Reached
  obtain ⟨htext, hplaces⟩ := decompile_empty_spec lines context
  have hname : name = nameOf (Block.labels? lines context) := hplaces.nameOf_eq
  have hwritten : rendered.1 = (Block.document lines).map (OutputLine.text name) := hname ▸ htext
  have hdefined : ∀ line mnemonic target, Block.JumpsTo lines line mnemonic target →
      (s!"{name target}:" ∈ rendered.1 ↔ Reached target) := by
    intro line mnemonic target hjump
    rw [hwritten, hname, ← List.count_pos_iff, count_text_definition context hjump.mem_targets,
      List.count_pos_iff, List.mem_map]
  refine ⟨hwritten, fun _ _ => Block.toLabel_mem_document_iff, hdefined, ?_⟩
  constructor
  · intro hall line mnemonic target hjump
    refine (hdefined line mnemonic target hjump).mp (hall mnemonic target ?_)
    exact Block.toLabel_mem_document_iff.mpr ⟨line, hjump⟩
  · intro hreached mnemonic target hshown
    obtain ⟨line, hjump⟩ := Block.toLabel_mem_document_iff.mp hshown
    exact (hdefined line mnemonic target hjump).mpr (hreached line mnemonic target hjump)

/-- A jump between two lines of a block shows a label that is defined nowhere. -/
theorem decompile_undefined_label :
    ¬ ∀ (lines : List String) (context : String),
      let rendered := (∅ : LabelCache).decompile lines context
      ∀ mnemonic target, .toLabel mnemonic target ∈ Block.document lines →
        s!"{nameOf rendered.2.get? target}:" ∈ rendered.1 := by
  intro hdefined
  let lines := [
    "0x10                          00 jmp 0x15",
    "0x20                          00 ret",
    ""]
  have hshown : .toLabel "jmp" "0x15" ∈ Block.document lines := by decide +kernel
  have htext : ((∅ : LabelCache).decompile lines "code").1 = ["  jmp skip0", "  ret"] := by
    decide +kernel
  have hmem := hdefined lines "code" "jmp" "0x15" hshown
  revert hmem
  rw [htext]
  decide +kernel

end LabelCache

end JitTrace
