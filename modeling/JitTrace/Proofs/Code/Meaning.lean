import JitTrace.Proofs.Code.Outline

/-! # The meaning of a rendered block

Both passes together: rendering a block writes its outline with the names that the labels have
when all jumps are counted, and leaves these labels at the positions where the outline has them.
-/

namespace JitTrace

namespace Block

/-- A jump that is written with a label is one of the jumps in range. -/
theorem exists_jump_of_toLabel {lines : List String} {line mnemonic target : String}
    (hmem : line ∈ lines)
    (houtput : outputOf lines (InstructionLine.instructionOf line) = .toLabel mnemonic target) :
    ∃ jump ∈ jumps lines, jump.target = target := by
  refine ⟨⟨InstructionLine.addressOf line, target⟩, ?_, rfl⟩
  have hjump : DirectJump.ofLine? line = some ⟨InstructionLine.addressOf line, target⟩ ∧
      InRange lines target := by
    unfold outputOf at houtput
    unfold DirectJump.ofLine?
    split at houtput
    next => cases houtput
    next => cases houtput
    next written reached hdirect =>
      rw [hdirect]
      split at houtput
      next hrange =>
        cases houtput
        exact ⟨rfl, hrange⟩
      next => cases houtput
  rw [jumps, List.mem_filter, List.mem_filterMap]
  exact ⟨⟨line, hmem, hjump.1⟩, decide_eq_true hjump.2⟩

end Block

/-- The count of a label grows by the number of jumps that are counted. -/
theorem Label.toNat_jumpCount_countJumps (label : Label) {address : String}
    {jumps : List DirectJump}
    (hfits : label.jumpCount.toNat + jumps.countP (fun jump => jump.target = address) <
      UInt32.size) :
    (label.countJumps address jumps).jumpCount.toNat =
      label.jumpCount.toNat + jumps.countP fun jump => jump.target = address := by
  rw [List.countP_eq_length_filter] at hfits ⊢
  simp only [countJumps, UInt32.toNat_add, UInt32.toNat_ofNat']
  rw [Nat.add_mod_mod]
  exact Nat.mod_eq_of_lt hfits

namespace LabelCache

variable (cache : LabelCache) (lines : List String) (context : String)

theorem isSome_discovered?_of_mem {jumps : List DirectJump} {jump : DirectJump}
    (hmem : jump ∈ jumps) : (cache.discovered? context jumps jump.target).isSome := by
  rw [Option.isSome_iff_ne_none, Ne, discovered?_eq_none_iff]
  intro hnone
  exact hnone.2 (List.mem_map_of_mem hmem)

/-- What is written for a block, and where its labels are then. -/
theorem decompile_spec :
    let labels := cache.discovered? context (Block.jumps lines)
    let outline := Block.outline lines (fun address => (labels address).isSome) lines
    (cache.decompile lines context).1 = outline.map (OutputLine.text (nameOf labels)) ∧
      Places labels outline (cache.decompile lines context).2 := by
  intro labels outline
  -- nothing is written yet, so all labels are where they were before
  have hdiscovered : Places labels []
      (cache.restartIds.discover (CodeRange.ofBlock? lines) context lines) := by
    intro address
    simp only [Label.place_nil, Option.map_id']
    rw [discover_eq]
    exact (foldl_countJump cache.restartIds context (Block.jumps lines) rfl).1 address
  refine hdiscovered.writeLines fun line hmem mnemonic target houtput => ?_
  obtain ⟨jump, hjump, rfl⟩ := Block.exists_jump_of_toLabel hmem houtput
  exact isSome_discovered?_of_mem cache context hjump

/-- As long as the count fits into its word, it is the number of jumps that reach the address,
now and before. -/
theorem toNat_jumpCount_discovered? {jumps : List DirectJump} {address : String} {label : Label}
    (hlabel : cache.discovered? context jumps address = some label)
    (hfits : (cache.get? address).elim 0 (fun old => old.jumpCount.toNat) +
      jumps.countP (fun jump => jump.target = address) < UInt32.size) :
    label.jumpCount.toNat = (cache.get? address).elim 0 (fun old => old.jumpCount.toNat) +
      jumps.countP fun jump => jump.target = address := by
  unfold discovered? at hlabel
  cases hfound : cache.get? address with
  | some old =>
      rw [hfound] at hlabel hfits
      cases hlabel
      exact old.toNat_jumpCount_countJumps hfits
  | none =>
      rw [hfound] at hlabel hfits
      simp only [Option.ite_none_right_eq_some, Option.some.injEq] at hlabel
      obtain ⟨-, rfl⟩ := hlabel
      exact Label.toNat_jumpCount_countJumps _ hfits

/-- Rendering a block writes its outline. Each non-blank line of the block is written as one
output line, with a definition in front of it if its address has a label once all jumps in range
are counted, and with a name in place of a target in range. Each of these targets has a label
then, either the one it had or a new one, which also counts the jumps to it and keeps the
positions where it is defined and shown. -/
theorem decompile_meaning :
    let jumps := Block.jumps lines
    let labels := cache.discovered? context jumps
    let outline := Block.outline lines (fun address => (labels address).isSome) lines
    let rendered := cache.decompile lines context
    rendered.1 = outline.map (OutputLine.text (nameOf labels)) ∧
    (∀ address, rendered.2.get? address =
      (labels address).map fun label => label.place address outline) ∧
    (∀ jump ∈ jumps, (rendered.2.get? jump.target).isSome) ∧
    ∀ address label, rendered.2.get? address = some label →
      let before := (cache.get? address).elim 0 fun old => old.jumpCount.toNat
      let reaching := jumps.countP fun jump => jump.target = address
      before + reaching < UInt32.size → label.jumpCount.toNat = before + reaching := by
  intro jumps labels outline rendered
  obtain ⟨htext, hplaced⟩ := cache.decompile_spec lines context
  refine ⟨htext, hplaced, ?_, ?_⟩
  · intro jump hjump
    rw [hplaced jump.target, Option.isSome_map]
    exact cache.isSome_discovered?_of_mem context hjump
  · intro address label hlabel before reaching hfits
    rw [hplaced address, Option.map_eq_some_iff] at hlabel
    obtain ⟨counted, hcounted, rfl⟩ := hlabel
    have hcount := cache.toNat_jumpCount_discovered? context hcounted hfits
    exact hcount

-- a loop that goes back to its head once, and a jump out of the block
example :
    (LabelCache.decompile ∅
      ["0x10                          00 addq rax,1",
        "0x14                          00 jna 0x10",
        "0x16                          00 jmp 0x40",
        ""] "code").1 =
      ["loop0:", "  addq rax,1", "  jna loop0", "  jmp 0x40 (outside)"] := by
  decide +kernel

end LabelCache

end JitTrace
