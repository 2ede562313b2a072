import JitTrace.Proofs.Code.History

/-! # Documents over separate addresses

A rendering reads and writes the labels of the addresses that its block is about, and no others.
Identifiers start from zero with each rendering, so nothing else passes from one to the next, and
two blocks without a common address can be rendered in either order.
-/

namespace JitTrace

/-! ## The addresses of a block -/

namespace Block

/-- The addresses that a block is about: those of its lines that are not blank, and the targets of
its jumps in range. -/
def addresses (lines : List String) : List String :=
  (written lines).map InstructionLine.addressOf ++ targets lines

variable {lines : List String} {address : String}

theorem addressOf_mem_addresses {line : String} (hline : line ∈ lines)
    (hsolid : ¬ (Text.trim line).isEmpty) :
    InstructionLine.addressOf line ∈ addresses lines := by
  refine List.mem_append_left _ (List.mem_map_of_mem (List.mem_filter.mpr ⟨hline, ?_⟩))
  rw [Bool.not_eq_true] at hsolid
  rw [hsolid]
  rfl

theorem mem_addresses_of_mem_targets (htarget : address ∈ targets lines) :
    address ∈ addresses lines :=
  List.mem_append_right _ htarget

/-- The labels that an outline names are labels of addresses of its block. -/
theorem mem_addresses_of_address? {labelled : String → Bool} {output : OutputLine}
    (houtput : output ∈ outline lines labelled lines)
    (haddress : output.address? = some address) : address ∈ addresses lines := by
  obtain ⟨line, hline, hwritten⟩ := List.mem_flatMap.mp houtput
  unfold outlineOfLine at hwritten
  split at hwritten
  next => cases hwritten
  next hsolid =>
    rw [List.mem_append, List.mem_ite_nil_right, List.mem_singleton, List.mem_singleton] at hwritten
    rcases hwritten with ⟨-, rfl⟩ | hwritten
    · cases haddress
      exact addressOf_mem_addresses hline hsolid
    · obtain ⟨mnemonic, rfl⟩ := OutputLine.exists_eq_toLabel
        (hwritten ▸ isDefinition_outputOf lines _) haddress
      obtain ⟨jump, hmem, rfl⟩ := exists_jump_of_toLabel hline hwritten.symm
      exact mem_addresses_of_mem_targets (List.mem_map_of_mem hmem)

/-- An outline asks only of addresses of its block whether they have labels. -/
theorem outline_congr {labelled other : String → Bool}
    (hsame : ∀ address ∈ addresses lines, labelled address = other address) :
    outline lines labelled lines = outline lines other lines := by
  refine List.flatMap_congr fun line hline => ?_
  unfold outlineOfLine
  split
  next => rfl
  next hsolid => simp only [hsame _ (addressOf_mem_addresses hline hsolid)]

end Block

/-- A label that is not named in an outline has no positions there. -/
theorem Label.place_of_forall_ne {outline : List OutputLine} {address : String}
    (hnot : ∀ output ∈ outline, output.address? ≠ some address) (label : Label) :
    label.place address outline = label := by
  have hdefines : outline.findIdxs (OutputLine.defines address) = [] := by
    rw [List.findIdxs_eq_nil_iff]
    intro output houtput
    rw [← Bool.not_eq_true, OutputLine.defines_iff]
    rintro rfl
    exact hnot _ houtput rfl
  have hshows : outline.findIdxs (OutputLine.showsTarget address) = [] := by
    rw [List.findIdxs_eq_nil_iff]
    intro output houtput
    cases output with
    | toLabel mnemonic target =>
        exact decide_eq_false fun heq => hnot _ houtput (congrArg some heq)
    | _ => rfl
  simp [place, hdefines, hshows]

namespace LabelCache

/-! ## What a rendering depends on -/

variable {cache other : LabelCache} {lines others : List String} {address : String}

theorem newTargets_congr {jumps : List DirectJump}
    (hsame : ∀ jump ∈ jumps, cache.get? jump.target = other.get? jump.target) :
    cache.newTargets jumps = other.newTargets jumps := by
  ext target
  rw [mem_newTargets, mem_newTargets]
  refine and_congr_left fun htarget => ?_
  obtain ⟨jump, hjump, rfl⟩ := List.mem_map.mp htarget
  rw [hsame jump hjump]

/-- The label that the first pass finds for an address depends on the labels of this address and
of the targets, since new labels are numbered among themselves. -/
theorem discovered?_congr {jumps : List DirectJump} (context : String)
    (haddress : cache.get? address = other.get? address)
    (hsame : ∀ jump ∈ jumps, cache.get? jump.target = other.get? jump.target) :
    cache.discovered? context jumps address = other.discovered? context jumps address := by
  have hearlier : cache.newTargets (jumps.takeWhile fun jump => jump.target ≠ address) =
      other.newTargets (jumps.takeWhile fun jump => jump.target ≠ address) :=
    newTargets_congr fun jump hjump => hsame jump ((List.takeWhile_subset _) hjump)
  simp only [discovered?, haddress, hearlier]

/-- A rendering leaves the labels of all other addresses as they are. -/
theorem get?_decompile_of_not_mem (cache : LabelCache) (context : String)
    (haddress : address ∉ Block.addresses lines) :
    (cache.decompile lines context).2.get? address = cache.get? address := by
  obtain ⟨-, hplaces⟩ := cache.decompile_outline lines context
  have hplace : ∀ label : Label, label.place address
      ((cache.decompile lines context).2.outline lines) = label :=
    Label.place_of_forall_ne fun output houtput hnamed =>
      haddress (Block.mem_addresses_of_address? houtput hnamed)
  have htarget : address ∉ (Block.jumps lines).map DirectJump.target :=
    fun hmem => haddress (Block.mem_addresses_of_mem_targets hmem)
  rw [hplaces address]
  simp only [hplace, Option.map_id']
  unfold discovered?
  cases cache.get? address with
  | some label => exact congrArg some (label.countJumps_of_not_mem address _ htarget)
  | none => exact if_neg htarget

/-- A rendering depends on the labels of the addresses of its block alone: where two caches agree
on these, it writes the same text and leaves them with the same labels. -/
theorem decompile_congr (context : String)
    (hsame : ∀ address ∈ Block.addresses lines, cache.get? address = other.get? address) :
    (cache.decompile lines context).1 = (other.decompile lines context).1 ∧
      ∀ address ∈ Block.addresses lines, (cache.decompile lines context).2.get? address =
        (other.decompile lines context).2.get? address := by
  obtain ⟨htext, hplaces⟩ := cache.decompile_outline lines context
  obtain ⟨hotherText, hotherPlaces⟩ := other.decompile_outline lines context
  have hfound : ∀ address ∈ Block.addresses lines,
      cache.discovered? context (Block.jumps lines) address =
        other.discovered? context (Block.jumps lines) address := by
    intro address haddress
    refine discovered?_congr context (hsame address haddress) fun jump hjump => ?_
    exact hsame _ (Block.mem_addresses_of_mem_targets (List.mem_map_of_mem hjump))
  have houtline : (cache.decompile lines context).2.outline lines =
      (other.decompile lines context).2.outline lines := by
    refine Block.outline_congr fun address haddress => ?_
    rw [Bool.eq_iff_iff, hplaces.isSome_iff, hotherPlaces.isSome_iff, hfound address haddress]
  have hlabels : ∀ address ∈ Block.addresses lines,
      (cache.decompile lines context).2.get? address =
        (other.decompile lines context).2.get? address := by
    intro address haddress
    rw [hplaces address, hotherPlaces address, hfound address haddress, houtline]
  refine ⟨?_, hlabels⟩
  rw [htext, hotherText, houtline]
  have hname : ∀ output ∈ (other.decompile lines context).2.outline lines,
      ∀ address, output.address? = some address →
        nameOf (cache.decompile lines context).2.get? address =
          nameOf (other.decompile lines context).2.get? address := by
    intro output houtput address haddress
    rw [nameOf, nameOf, hlabels address (Block.mem_addresses_of_address? houtput haddress)]
  refine List.map_congr_left fun output houtput => OutputLine.text_congr ?_ ?_
  · rintro address rfl
    exact hname _ houtput address rfl
  · rintro mnemonic target rfl
    exact hname _ houtput target rfl

/-! ## Two documents -/

/-- Rendering a block does not see what was rendered before it over other addresses. -/
theorem decompile_after_disjoint (cache : LabelCache)
    (hdisjoint : (Block.addresses lines).Disjoint (Block.addresses others))
    (context otherContext : String) :
    ((cache.decompile lines context).2.decompile others otherContext).1 =
        (cache.decompile others otherContext).1 ∧
      ∀ address ∈ Block.addresses others,
        ((cache.decompile lines context).2.decompile others otherContext).2.get? address =
          (cache.decompile others otherContext).2.get? address :=
  decompile_congr otherContext fun _ haddress =>
    cache.get?_decompile_of_not_mem context fun hmem => hdisjoint hmem haddress

/-- Rendering two blocks that have no address in common leaves the same labels in either order. -/
theorem get?_decompile_comm (cache : LabelCache)
    (hdisjoint : (Block.addresses lines).Disjoint (Block.addresses others))
    (context otherContext address : String) :
    ((cache.decompile lines context).2.decompile others otherContext).2.get? address =
      ((cache.decompile others otherContext).2.decompile lines context).2.get? address := by
  by_cases hlines : address ∈ Block.addresses lines
  · rw [get?_decompile_of_not_mem _ _ (hdisjoint hlines)]
    exact ((cache.decompile_after_disjoint hdisjoint.symm otherContext context).2 address
      hlines).symm
  · rw [get?_decompile_of_not_mem _ context hlines]
    by_cases hothers : address ∈ Block.addresses others
    · exact (cache.decompile_after_disjoint hdisjoint context otherContext).2 address hothers
    · rw [get?_decompile_of_not_mem _ otherContext hothers,
        get?_decompile_of_not_mem _ context hlines,
        get?_decompile_of_not_mem _ otherContext hothers]

/-- Blocks without a common address do not interfere, whatever was rendered before and for which
documents. In either order they have the same texts, which are those that each has alone, and
leave the same labels. A block of whose addresses none has a label is rendered as with no labels
at all, and all labels that are there stay as they are. -/
theorem decompile_separate (cache : LabelCache) {lines others : List String}
    (hdisjoint : (Block.addresses lines).Disjoint (Block.addresses others))
    (context otherContext : String) :
    let first := cache.decompile lines context
    let second := first.2.decompile others otherContext
    let otherFirst := cache.decompile others otherContext
    let otherSecond := otherFirst.2.decompile lines context
    first.1 = otherSecond.1 ∧ second.1 = otherFirst.1 ∧
    (∀ address, second.2.get? address = otherSecond.2.get? address) ∧
    ∀ (block : List String) (document : String),
      (∀ address ∈ Block.addresses block, cache.get? address = none) →
      let rendered := cache.decompile block document
      rendered.1 = ((∅ : LabelCache).decompile block document).1 ∧
      ∀ address label, cache.get? address = some label →
        rendered.2.get? address = some label := by
  intro first second otherFirst otherSecond
  refine ⟨?_, ?_, ?_, ?_⟩
  · exact (cache.decompile_after_disjoint hdisjoint.symm otherContext context).1.symm
  · exact (cache.decompile_after_disjoint hdisjoint context otherContext).1
  · exact cache.get?_decompile_comm hdisjoint context otherContext
  · intro block document hnone rendered
    refine ⟨(decompile_congr document hnone).1, fun address label hlabel => ?_⟩
    have haddress : address ∉ Block.addresses block := by
      intro hmem
      rw [hnone address hmem] at hlabel
      cases hlabel
    exact (cache.get?_decompile_of_not_mem document haddress).trans hlabel

/-- Two loops over separate addresses, next to the label of a third document that stays. -/
theorem decompile_separate_loops :
    let earlier := [
      "0x30                          00 jmp 0x31",
      "0x31                          00 ret",
      ""]
    let lines := [
      "0x10                          00 nop",
      "0x11                          00 jnz 0x10",
      ""]
    let others := [
      "0x20                          00 jz 0x22",
      "0x21                          00 jnz 0x20",
      "0x22                          00 ret",
      ""]
    let cache := after [.decompile earlier "c.asm"]
    let first := cache.decompile lines "a.asm"
    let second := first.2.decompile others "a.asm"
    let otherFirst := cache.decompile others "a.asm"
    let otherSecond := otherFirst.2.decompile lines "a.asm"
    (Block.addresses lines).Disjoint (Block.addresses others) ∧
      (∀ address ∈ Block.addresses lines, cache.get? address = none) ∧
      otherSecond.1 = ["loop0:", "  nop", "  jnz loop0"] ∧
      second.2.get? "0x22" = otherSecond.2.get? "0x22" ∧
      first.1 = ((∅ : LabelCache).decompile lines "a.asm").1 ∧
      first.2.get? "0x31" = cache.get? "0x31" := by
  intro earlier lines others cache first second otherFirst otherSecond
  obtain ⟨hlines, hothers, hnone, htext, hold⟩ :
      Block.addresses lines = ["0x10", "0x11", "0x10"] ∧
        Block.addresses others = ["0x20", "0x21", "0x22", "0x22", "0x20"] ∧
        (∀ address ∈ Block.addresses lines, cache.get? address = none) ∧
        first.1 = ["loop0:", "  nop", "  jnz loop0"] ∧
        cache.get? "0x31" = some ⟨0, some 1, 1, [0], none, "c.asm", false, true⟩ := by
    decide +kernel
  have hdisjoint : (Block.addresses lines).Disjoint (Block.addresses others) := by
    rw [hlines, hothers, List.disjoint_left]
    decide
  obtain ⟨hfirst, -, hlabels, hfresh⟩ := decompile_separate cache hdisjoint "a.asm" "a.asm"
  obtain ⟨halone, hkept⟩ := hfresh lines "a.asm" hnone
  exact ⟨hdisjoint, hnone, hfirst.symm.trans htext, hlabels "0x22", halone,
    (hkept "0x31" _ hold).trans hold.symm⟩

end LabelCache

end JitTrace
