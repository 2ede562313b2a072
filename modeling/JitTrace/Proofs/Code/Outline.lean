import JitTrace.Proofs.Code.Jumps

/-! # The outline of rendered code

What the second pass writes is fixed by the block and by which addresses have a label. The outline
says it line by line, with addresses in place of names, so the positions of a label are those of
the outline lines that define or show its address. Names come in last: the second pass moves
labels about without touching what they are called.
-/

namespace JitTrace

/-- What an output line is made of. -/
inductive OutputLine where
  /-- The definition of the label of an address. -/
  | definition (address : String)
  /-- An instruction that is no jump. -/
  | plain (instruction : String)
  | indirect (mnemonic operand : String)
  /-- A jump that shows the label of its target. -/
  | toLabel (mnemonic target : String)
  /-- A jump that leaves the block. -/
  | outside (mnemonic target : String)
  deriving DecidableEq, Repr

namespace OutputLine

/-- The text of an output line, for the names of labels by address. -/
def text (name : String → String) : OutputLine → String
  | definition address => s!"{name address}:"
  | plain instruction => s!"  {instruction}"
  | indirect mnemonic operand => s!"  {mnemonic} {operand}"
  | toLabel mnemonic target => s!"  {mnemonic} {name target}"
  | outside mnemonic target => s!"  {mnemonic} {target} (outside)"

/-- The text of an output line depends on the name of the label that it names alone. -/
theorem text_congr {output : OutputLine} {name other : String → String}
    (hdefinition : ∀ address, output = .definition address → name address = other address)
    (hjump : ∀ mnemonic target, output = .toLabel mnemonic target → name target = other target) :
    output.text name = output.text other := by
  cases output with
  | definition address => rw [text, text, hdefinition address rfl]
  | plain instruction => rfl
  | indirect mnemonic operand => rfl
  | toLabel mnemonic target => rw [text, text, hjump mnemonic target rfl]
  | outside mnemonic target => rfl

/-- Whether an output line defines the label of an address. -/
def defines (address : String) : OutputLine → Bool
  | definition other => other = address
  | _ => false

/-- Whether an output line shows the label of an address in place of a target. -/
def showsTarget (address : String) : OutputLine → Bool
  | toLabel _ target => target = address
  | _ => false

end OutputLine

/-! ## Outlines of lines -/

namespace Block

/-- What an instruction of a block is written as. -/
def outputOf (block : List String) (instruction : String) : OutputLine :=
  match Jump.ofInstruction? instruction with
  | none => .plain instruction
  | some (.indirect mnemonic operand) => .indirect mnemonic operand
  | some (.direct mnemonic target) =>
    if InRange block target then .toLabel mnemonic target else .outside mnemonic target

/-- A line of a block is written as one output line, behind a definition if its address is
labelled; a blank line is left out. -/
def outlineOfLine (block : List String) (labelled : String → Bool) (line : String) :
    List OutputLine :=
  if (Text.trim line).isEmpty then []
  else
    let address := InstructionLine.addressOf line
    (if labelled address then [.definition address] else []) ++
      [outputOf block (InstructionLine.instructionOf line)]

/-- What lines of a block are written as, in order. -/
def outline (block : List String) (labelled : String → Bool) (lines : List String) :
    List OutputLine :=
  lines.flatMap (outlineOfLine block labelled)

end Block

/-! ## Positions of labels -/

namespace Label

/-- The label of an address with its positions in an outline: it is defined where it was defined
last, and every line that shows it refers to it. -/
def place (label : Label) (address : String) (outline : List OutputLine) : Label :=
  { label with
    line := (outline.findIdxs (OutputLine.defines address)).getLast?.or label.line
    referencedAt := label.referencedAt ++ outline.findIdxs (OutputLine.showsTarget address) }

variable (label : Label) (address : String) (outline : List OutputLine)

theorem place_nil : label.place address [] = label := by
  simp [place]

/-- Positions have no influence on the name. -/
theorem displayName_place : (label.place address outline).displayName = label.displayName :=
  rfl

theorem place_definition :
    label.place address (outline ++ [.definition address]) =
      { label.place address outline with line := some outline.length } := by
  simp [place, List.findIdxs_append, OutputLine.defines, OutputLine.showsTarget]

theorem place_toLabel (mnemonic : String) :
    label.place address (outline ++ [.toLabel mnemonic address]) =
      { label.place address outline with
        referencedAt := (label.place address outline).referencedAt ++ [outline.length] } := by
  simp [place, List.findIdxs_append, OutputLine.defines, OutputLine.showsTarget]

/-- An output line that neither defines nor shows a label does not move it. -/
theorem place_of_not {output : OutputLine} (hdefines : output.defines address = false)
    (hshows : output.showsTarget address = false) :
    label.place address (outline ++ [output]) = label.place address outline := by
  simp [place, List.findIdxs_append, hdefines, hshows]

end Label

namespace LabelCache

/-- The name of the label of an address, if there is one. -/
def nameOf (labels : String → Option Label) (address : String) : String :=
  ((labels address).map Label.displayName).getD ""

/-- A cache holds given labels, with their positions in what is written so far. -/
def Places (labels : String → Option Label) (outline : List OutputLine) (cache : LabelCache) :
    Prop :=
  ∀ address, cache.get? address =
    (labels address).map fun label => label.place address outline

variable {labels : String → Option Label} {outline : List OutputLine} {cache : LabelCache}

/-- An output line that touches no label changes none. -/
theorem Places.append {output : OutputLine} (hplaces : Places labels outline cache)
    (hdefines : ∀ address, output.defines address = false)
    (hshows : ∀ address, output.showsTarget address = false) :
    Places labels (outline ++ [output]) cache := by
  intro address
  simp only [Label.place_of_not _ address outline (hdefines address) (hshows address)]
  exact hplaces address

/-- An output line that touches the label of one address changes it and no other. -/
theorem Places.modify {output : OutputLine} {address : String} {change : Label → Label}
    (hplaces : Places labels outline cache)
    (hchange : ∀ label : Label,
      label.place address (outline ++ [output]) = change (label.place address outline))
    (hdefines : ∀ other, other ≠ address → output.defines other = false)
    (hshows : ∀ other, other ≠ address → output.showsTarget other = false) :
    Places labels (outline ++ [output]) (cache.modify address change) := by
  intro other
  refine (Index.get?_modify cache.labels address other change).trans ?_
  by_cases heq : other = address
  · rw [if_pos heq, heq]
    refine (congrArg (Option.map change) (hplaces address)).trans ?_
    rw [Option.map_map]
    exact congrArg (Option.map · _) (funext fun label => (hchange label).symm)
  · rw [if_neg heq]
    simp only [Label.place_of_not _ other outline (hdefines other heq) (hshows other heq)]
    exact hplaces other

/-- The definition that is written in front of a line is the one its outline starts with. -/
theorem Places.defineAt (hplaces : Places labels outline cache) (address : String) :
    ∃ definition : List OutputLine,
      definition = (if (labels address).isSome then [.definition address] else []) ∧
      (cache.defineAt outline.length address).1 =
        definition.map (OutputLine.text (nameOf labels)) ∧
      Places labels (outline ++ definition) (cache.defineAt outline.length address).2 := by
  have hfound := hplaces address
  refine ⟨_, rfl, ?_⟩
  unfold LabelCache.defineAt
  cases hlabel : labels address with
  | none =>
      rw [hlabel, Option.map_none] at hfound
      rw [hfound]
      simpa using hplaces
  | some label =>
      rw [hlabel, Option.map_some] at hfound
      rw [hfound]
      refine ⟨?_, ?_⟩
      · simp [OutputLine.text, nameOf, hlabel, Label.displayName_place]
      · refine hplaces.modify (fun label => label.place_definition address outline) ?_ ?_
        · intro other hne
          exact decide_eq_false (Ne.symm hne)
        · intro other hne
          rfl

/-- An instruction is written as its output line, if every target in range has a label. -/
theorem Places.writeInstruction (hplaces : Places labels outline cache) {block : List String}
    {instruction : String}
    (hcovers : ∀ mnemonic target,
      Block.outputOf block instruction = .toLabel mnemonic target → (labels target).isSome) :
    (cache.writeInstruction (CodeRange.ofBlock? block) outline.length instruction).1 =
        (Block.outputOf block instruction).text (nameOf labels) ∧
      Places labels (outline ++ [Block.outputOf block instruction])
        (cache.writeInstruction (CodeRange.ofBlock? block) outline.length instruction).2 := by
  revert hcovers
  unfold LabelCache.writeInstruction Block.outputOf
  cases Jump.ofInstruction? instruction with
  | none =>
      intro hcovers
      exact ⟨rfl, hplaces.append (fun _ => rfl) fun _ => rfl⟩
  | some jump =>
      cases jump with
      | indirect mnemonic operand =>
          intro hcovers
          exact ⟨rfl, hplaces.append (fun _ => rfl) fun _ => rfl⟩
      | direct mnemonic target =>
          simp only [shownLabel?, Block.any_contains_ofBlock?, decide_eq_true_eq]
          by_cases hrange : Block.InRange block target
          · simp only [if_pos hrange]
            intro hcovers
            obtain ⟨label, hlabel⟩ := Option.isSome_iff_exists.mp (hcovers mnemonic target rfl)
            rw [hplaces target, hlabel, Option.map_some]
            refine ⟨?_, ?_⟩
            · simp [OutputLine.text, nameOf, hlabel, Label.displayName_place]
            · refine hplaces.modify (fun label => label.place_toLabel target outline mnemonic)
                ?_ ?_
              · intro other hne
                rfl
              · intro other hne
                exact decide_eq_false (Ne.symm hne)
          · simp only [if_neg hrange]
            intro hcovers
            exact ⟨rfl, hplaces.append (fun _ => rfl) fun _ => rfl⟩

/-- A line is written as its outline. -/
theorem Places.writeLine (hplaces : Places labels outline cache) {block : List String}
    {line : String}
    (hcovers : ∀ mnemonic target,
      Block.outputOf block (InstructionLine.instructionOf line) = .toLabel mnemonic target →
        (labels target).isSome) :
    (cache.writeLine (CodeRange.ofBlock? block) outline.length line).1 =
        (Block.outlineOfLine block (fun address => (labels address).isSome) line).map
          (OutputLine.text (nameOf labels)) ∧
      Places labels
        (outline ++ Block.outlineOfLine block (fun address => (labels address).isSome) line)
        (cache.writeLine (CodeRange.ofBlock? block) outline.length line).2 := by
  unfold LabelCache.writeLine Block.outlineOfLine
  by_cases hblank : (Text.trim line).isEmpty
  · simpa only [if_pos hblank, List.map_nil, List.append_nil, true_and] using hplaces
  · obtain ⟨definition, hdefinition, htext, hdefined⟩ :=
      hplaces.defineAt (InstructionLine.addressOf line)
    have hlength : (cache.defineAt outline.length (InstructionLine.addressOf line)).1.length =
        definition.length := by
      rw [htext, List.length_map]
    -- the instruction stands one position further down if a definition goes in front of it
    have hwritten := hdefined.writeInstruction hcovers
    rw [List.length_append] at hwritten
    simp only [if_neg hblank, InstructionLine.ofLine, hlength, ← hdefinition]
    refine ⟨?_, ?_⟩
    · rw [htext, hwritten.1, List.map_append, List.map_singleton]
    · rw [← List.append_assoc]
      exact hwritten.2

/-- Lines are written as their outline, from whatever is written already. -/
theorem Places.writeLines (hplaces : Places labels outline cache) {block lines : List String}
    (hcovers : ∀ line ∈ lines, ∀ mnemonic target,
      Block.outputOf block (InstructionLine.instructionOf line) = .toLabel mnemonic target →
        (labels target).isSome) :
    (cache.writeLines (CodeRange.ofBlock? block) outline.length lines).1 =
        (Block.outline block (fun address => (labels address).isSome) lines).map
          (OutputLine.text (nameOf labels)) ∧
      Places labels
        (outline ++ Block.outline block (fun address => (labels address).isSome) lines)
        (cache.writeLines (CodeRange.ofBlock? block) outline.length lines).2 := by
  induction lines generalizing outline cache with
  | nil =>
      refine ⟨rfl, ?_⟩
      rw [show Block.outline block _ [] = [] from rfl, List.append_nil]
      exact hplaces
  | cons line rest ih =>
      -- the rest is written from where the first line ends, which is why `outline` is general
      obtain ⟨htext, hplaced⟩ := hplaces.writeLine (hcovers line List.mem_cons_self)
      have hlength := congrArg List.length htext
      rw [List.length_map] at hlength
      obtain ⟨hrestText, hrestPlaced⟩ :=
        ih hplaced fun other hmem => hcovers other (List.mem_cons_of_mem line hmem)
      rw [List.length_append, ← hlength] at hrestText hrestPlaced
      simp only [LabelCache.writeLines, Block.outline, List.flatMap_cons]
      refine ⟨?_, ?_⟩
      · rw [hrestText, htext, List.map_append]
        rfl
      · rw [← List.append_assoc]
        exact hrestPlaced

end LabelCache

end JitTrace
