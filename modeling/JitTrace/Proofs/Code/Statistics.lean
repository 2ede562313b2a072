import JitTrace.Proofs.Code.History

/-! # The statistics of labels

The first pass over a block counts the jumps to a label, and the second one notes the output lines
that show it. Both meet the same jumps. So a label has counted exactly the jumps that were rendered
with it since it was made or its statistics were forgotten, whatever blocks and documents they
stood in, and its deduced name says of these jumps what it should.
-/

namespace JitTrace

/-! ## The jumps that both passes meet -/

namespace Block

/-- The addresses of the lines of a block that are written with the label of an address. -/
def references (lines : List String) (address : String) : List String :=
  ((written lines).filter fun line =>
    (outputOf lines (InstructionLine.instructionOf line)).showsTarget address).map
      InstructionLine.addressOf

/-- A line shows the label of an address if it jumps there and the address is in range. -/
theorem showsTarget_outputOf (block : List String) (line address : String) :
    (outputOf block (InstructionLine.instructionOf line)).showsTarget address =
      (DirectJump.ofLine? line).any fun jump =>
        decide (InRange block jump.target) && decide (jump.target = address) := by
  unfold outputOf DirectJump.ofLine?
  cases Jump.ofInstruction? (InstructionLine.instructionOf line) with
  | none => rfl
  | some jump =>
      cases jump with
      | indirect mnemonic operand => rfl
      | direct mnemonic target =>
          by_cases hrange : InRange block target
          · simp [OutputLine.showsTarget, hrange]
          · simp [OutputLine.showsTarget, hrange]

theorem source_of_ofLine? {line : String} {jump : DirectJump}
    (hjump : DirectJump.ofLine? line = some jump) :
    jump.source = InstructionLine.addressOf line ∧ ¬ (Text.trim line).isEmpty := by
  unfold DirectJump.ofLine? at hjump
  split at hjump
  next mnemonic target hdirect =>
    cases hjump
    exact ⟨rfl, InstructionLine.not_isEmpty_trim_of_jump hdirect⟩
  next => cases hjump

/-- The lines that the second pass writes with a label are the jumps that the first one counts. -/
theorem references_eq (lines : List String) (address : String) :
    references lines address =
      ((jumps lines).filter fun jump => jump.target = address).map DirectJump.source := by
  unfold references written jumps
  rw [← List.filterMap_eq_map, List.filter_filter, List.filterMap_filter, List.filter_filterMap,
    List.filter_filterMap, List.map_filterMap]
  refine List.filterMap_congr fun line _ => ?_
  rw [showsTarget_outputOf]
  cases hjump : DirectJump.ofLine? line with
  | none => rfl
  | some jump =>
      obtain ⟨hsource, hsolid⟩ := source_of_ofLine? hjump
      by_cases hrange : InRange lines jump.target
      · by_cases hreached : jump.target = address
        · subst hreached
          simp [hrange, hsolid, hsource, Option.filter]
        · simp [hrange, hreached, hsolid, Option.filter]
      · simp [hrange, Option.filter]

/-- The second pass writes as many output lines with a label as there are such lines. -/
theorem length_findIdxs_outline (lines : List String) (labelled : String → Bool)
    (address : String) :
    ((outline lines labelled lines).findIdxs (OutputLine.showsTarget address)).length =
      (references lines address).length := by
  rw [List.length_findIdxs, references, List.length_map, ← List.countP_eq_length_filter]
  have hdefinition : ∀ other, (OutputLine.definition other).showsTarget address = false :=
    fun _ => rfl
  suffices hlines : ∀ rest : List String,
      (outline lines labelled rest).countP (OutputLine.showsTarget address) =
        (written rest).countP fun line =>
          (outputOf lines (InstructionLine.instructionOf line)).showsTarget address from
    hlines lines
  intro rest
  induction rest with
  | nil => rfl
  | cons line rest ih =>
      rw [outline, List.flatMap_cons, ← outline, List.countP_append, ih, written, written,
        List.filter_cons, outlineOfLine]
      by_cases hblank : (Text.trim line).isEmpty
      · simp [hblank]
      · by_cases hlabelled : labelled (InstructionLine.addressOf line)
        · simp [hblank, hlabelled, hdefinition, List.countP_cons, Nat.add_comm]
        · simp [hblank, hlabelled, List.countP_cons, Nat.add_comm]

end Block

/-! ## What a label counts -/

/-- The statistics of the label of an address are those of jumps from given addresses. -/
structure Label.Counts (label : Label) (address : String) (sources : List String) : Prop where
  length_referencedAt : label.referencedAt.length = sources.length
  jumpCount_eq : label.jumpCount = UInt32.ofNat sources.length
  backward_eq : label.backward = sources.any fun source => address < source
  forward_eq : label.forward = sources.any fun source => source < address

namespace Label

variable {label : Label} {address : String} {sources : List String}

/-- Rendering a block adds its jumps, which both passes agree on. -/
theorem Counts.rendered (hcounts : label.Counts address sources) (lines : List String)
    (labelled : String → Bool) :
    ((label.countJumps address (Block.jumps lines)).place address
      (Block.outline lines labelled lines)).Counts address
        (sources ++ Block.references lines address) := by
  refine ⟨?_, ?_, ?_, ?_⟩
  · simp only [place, countJumps]
    rw [List.length_append, List.length_append, Block.length_findIdxs_outline,
      hcounts.length_referencedAt]
  · simp only [place, countJumps]
    rw [List.length_append, Block.references_eq, List.length_map, UInt32.ofNat_add,
      hcounts.jumpCount_eq]
  · simp only [place, countJumps]
    rw [List.any_append, Block.references_eq, List.any_map, hcounts.backward_eq]
    rfl
  · simp only [place, countJumps]
    rw [List.any_append, Block.references_eq, List.any_map, hcounts.forward_eq]
    rfl

theorem counts_fresh (id : Nat) (context address : String) :
    (fresh id context).Counts address [] :=
  ⟨rfl, rfl, rfl, rfl⟩

theorem counts_resetStatistics (label : Label) (address : String) :
    label.resetStatistics.Counts address [] :=
  ⟨rfl, rfl, rfl, rfl⟩

theorem Counts.withUserLabel (hcounts : label.Counts address sources) (name : String) :
    { label with userLabel := some name }.Counts address sources :=
  ⟨hcounts.1, hcounts.2, hcounts.3, hcounts.4⟩

end Label

namespace LabelCache

/-! ## Where the count of a label starts -/

/-- The jumps to an address that an operation renders, by the addresses of their lines. -/
def Operation.references (address : String) : Operation → List String
  | .decompile lines _ => Block.references lines address
  | _ => []

/-- An operation starts the statistics of the label of an address: it makes the label, or forgets
what the label had counted. -/
def Starts (cache : LabelCache) (address : String) (operation : Operation) : Prop :=
  match cache.get? address with
  | none => ((cache.perform operation).get? address).isSome
  | some label => operation = .resetStatistics label.context

variable {cache : LabelCache} {operation : Operation} {address : String}

theorem counts_decompile_of_none {lines : List String} {context : String} {later : Label}
    (hfound : cache.get? address = none)
    (hlater : (cache.decompile lines context).2.get? address = some later) :
    later.Counts address (Block.references lines address) := by
  rw [(cache.decompile_outline lines context).2 address, discovered?, hfound] at hlater
  dsimp only at hlater
  split at hlater
  next =>
    cases hlater
    exact (Label.counts_fresh ..).rendered lines _
  next => cases hlater

theorem counts_decompile_of_some {lines : List String} {context : String} {label later : Label}
    {sources : List String} (hfound : cache.get? address = some label)
    (hlater : (cache.decompile lines context).2.get? address = some later)
    (hcounts : label.Counts address sources) :
    later.Counts address (sources ++ Block.references lines address) := by
  rw [(cache.decompile_outline lines context).2 address, discovered?, hfound] at hlater
  cases hlater
  exact hcounts.rendered lines _

theorem counts_rename {context name : String} {line : Nat} {label later : Label}
    {sources : List String} (hfound : cache.get? address = some label)
    (hlater : (cache.rename context line name).2.get? address = some later)
    (hcounts : label.Counts address sources) : later.Counts address sources := by
  rw [get?_rename, hfound] at hlater
  split at hlater
  next =>
    cases hlater
    exact hcounts.withUserLabel name
  next =>
    cases hlater
    exact hcounts

/-- What an operation does to the statistics of a label that is there afterwards: it starts them
with the jumps that it renders, or adds these to the ones before. -/
theorem counts_perform {later : Label}
    (hlater : (cache.perform operation).get? address = some later) :
    (Starts cache address operation ∧ later.Counts address (operation.references address)) ∨
      ¬ Starts cache address operation ∧ ∃ label, cache.get? address = some label ∧
        ∀ sources, label.Counts address sources →
          later.Counts address (sources ++ operation.references address) := by
  cases hfound : cache.get? address with
  | none =>
      obtain ⟨lines, hoperation⟩ := exists_decompile_of_new hfound hlater
      generalize later.context = context at hoperation
      subst hoperation
      refine Or.inl ⟨?_, counts_decompile_of_none hfound hlater⟩
      rw [Starts, hfound, hlater]
      rfl
  | some label =>
      cases operation with
      | decompile lines context =>
          refine Or.inr ⟨?_, label, rfl, fun _ => counts_decompile_of_some hfound hlater⟩
          rw [Starts, hfound]
          rintro ⟨⟩
      | rename context line name =>
          refine Or.inr ⟨?_, label, rfl, fun sources hcounts => ?_⟩
          · rw [Starts, hfound]
            rintro ⟨⟩
          · simp only [Operation.references, List.append_nil]
            exact counts_rename hfound hlater hcounts
      | resetStatistics context =>
          rw [perform, get?_resetStatistics, hfound, Option.map_some, Option.some.injEq] at hlater
          subst hlater
          simp only [Starts, hfound, Operation.references, List.append_nil]
          by_cases hown : label.context = context
          · rw [if_pos hown]
            exact Or.inl ⟨congrArg _ hown.symm, label.counts_resetStatistics address⟩
          · rw [if_neg hown]
            refine Or.inr ⟨?_, label, rfl, fun sources hcounts => hcounts⟩
            rintro ⟨⟩
            exact hown rfl
      | clear => cases hlater

/-- The operation at a position starts the statistics of the label of an address. -/
def StartsAt (operations : List Operation) (position : Nat) (address : String) : Prop :=
  ∃ operation, operations[position]? = some operation ∧
    Starts (after (operations.take position)) address operation

/-- The operation at a position is the last one that starts the statistics of a label. -/
def CountsFrom (operations : List Operation) (position : Nat) (address : String) : Prop :=
  StartsAt operations position address ∧
    ∀ later, position < later → ¬ StartsAt operations later address

/-- The jumps to an address that are rendered from a position on. -/
def referencesFrom (operations : List Operation) (position : Nat) (address : String) :
    List String :=
  (operations.drop position).flatMap fun operation => operation.references address

variable {operations : List Operation} {position : Nat}

theorem StartsAt.lt_length (hstarts : StartsAt operations position address) :
    position < operations.length := by
  obtain ⟨operation, hoperation, -⟩ := hstarts
  exact (List.getElem?_eq_some_iff.mp hoperation).1

theorem startsAt_concat_iff (hposition : position < operations.length) :
    StartsAt (operations ++ [operation]) position address ↔
      StartsAt operations position address := by
  rw [StartsAt, StartsAt, List.getElem?_append_left hposition,
    List.take_append_of_le_length (Nat.le_of_lt hposition)]

theorem startsAt_length_iff :
    StartsAt (operations ++ [operation]) operations.length address ↔
      Starts (after operations) address operation := by
  rw [StartsAt, List.getElem?_concat_length, List.take_left]
  simp

/-- Rendering goes on with the statistics of a label that is there. -/
theorem not_startsAt_decompile {lines : List String} {context : String} {label : Label}
    (hoperation : operations[position]? = some (.decompile lines context))
    (hlabel : (after (operations.take position)).get? address = some label) :
    ¬ StartsAt operations position address := by
  rintro ⟨operation, hfound, hstarts⟩
  obtain rfl : Operation.decompile lines context = operation :=
    Option.some.inj (hoperation.symm.trans hfound)
  rw [Starts, hlabel] at hstarts
  cases hstarts

/-- There is one operation at most that a count starts from. -/
theorem CountsFrom.eq {other : Nat} (hfrom : CountsFrom operations position address)
    (hother : CountsFrom operations other address) : position = other := by
  rcases Nat.lt_trichotomy position other with hlt | heq | hgt
  · exact absurd hother.1 (hfrom.2 other hlt)
  · exact heq
  · exact absurd hfrom.1 (hother.2 position hgt)

theorem countsFrom_length (hstarts : Starts (after operations) address operation) :
    CountsFrom (operations ++ [operation]) operations.length address := by
  refine ⟨startsAt_length_iff.mpr hstarts, fun later hlater hlaterStarts => ?_⟩
  have hlength := hlaterStarts.lt_length
  rw [List.length_append, List.length_singleton] at hlength
  omega

theorem CountsFrom.concat (hfrom : CountsFrom operations position address)
    (hnot : ¬ Starts (after operations) address operation) :
    CountsFrom (operations ++ [operation]) position address := by
  refine ⟨(startsAt_concat_iff hfrom.1.lt_length).mpr hfrom.1, fun later hlater hstarts => ?_⟩
  have hlength := hstarts.lt_length
  rw [List.length_append, List.length_singleton] at hlength
  rcases Nat.lt_or_ge later operations.length with hearlier | hlast
  · exact hfrom.2 later hlater ((startsAt_concat_iff hearlier).mp hstarts)
  · obtain rfl : later = operations.length := Nat.le_antisymm (Nat.le_of_lt_succ hlength) hlast
    exact hnot (startsAt_length_iff.mp hstarts)

theorem referencesFrom_concat (hposition : position ≤ operations.length) :
    referencesFrom (operations ++ [operation]) position address =
      referencesFrom operations position address ++ operation.references address := by
  rw [referencesFrom, List.drop_append_of_le_length hposition, List.flatMap_append,
    List.flatMap_singleton]
  rfl

/-- Every label counts the jumps that were rendered with it from some operation on, which is the
last one that made it or had it forget its statistics. -/
theorem exists_countsFrom {label : Label} (hlabel : (after operations).get? address = some label) :
    ∃ position, CountsFrom operations position address ∧
      label.Counts address (referencesFrom operations position address) := by
  induction operations using List.reverseRecOn generalizing label with
  | nil => cases hlabel
  | append_singleton operations operation ih =>
      rw [after_concat] at hlabel
      rcases counts_perform hlabel with ⟨hstarts, hcounts⟩ | ⟨hnot, before, hbefore, hmore⟩
      · refine ⟨operations.length, countsFrom_length hstarts, ?_⟩
        rw [referencesFrom_concat (Nat.le_refl _), referencesFrom, List.drop_length]
        exact hcounts
      · obtain ⟨position, hfrom, hcounts⟩ := ih hbefore
        refine ⟨position, hfrom.concat hnot, ?_⟩
        rw [referencesFrom_concat (Nat.le_of_lt hfrom.1.lt_length)]
        exact hmore _ hcounts

end LabelCache

/-! ## What the name says -/

namespace Label

variable {label : Label} {address : String} {sources : List String}

theorem deducedName_eq_loop_iff (label : Label) :
    label.deducedName = s!"loop{label.id}" ↔
      label.backward ∧ ¬ label.forward ∧ label.jumpCount = 1 := by
  -- the four names end with one number, so they differ in their words
  have hwords : ∀ word, s!"{word}{label.id}" = s!"loop{label.id}" ↔ word = "loop" :=
    fun word => String.append_left_inj _
  unfold deducedName
  cases label.backward with
  | false =>
      cases label.forward with
      | false => exact iff_of_false (mt (hwords "label").mp (by decide)) (by simp)
      | true => exact iff_of_false (mt (hwords "skip").mp (by decide)) (by simp)
  | true =>
      cases label.forward with
      | true => exact iff_of_false (mt (hwords "label").mp (by decide)) (by simp)
      | false =>
          by_cases hone : label.jumpCount = 1
          · simp [hone]
          · have hreentry := mt (hwords "reentry").mp (by decide)
            simpa [hone] using hreentry

theorem Counts.toNat_jumpCount (hcounts : label.Counts address sources)
    (hfits : sources.length < UInt32.size) : label.jumpCount.toNat = sources.length := by
  rw [hcounts.jumpCount_eq, UInt32.toNat_ofNat_of_lt' hfits]

theorem Counts.jumpCount_eq_one_iff (hcounts : label.Counts address sources)
    (hfits : sources.length < UInt32.size) :
    label.jumpCount = 1 ↔ ∃ source, sources = [source] := by
  rw [← UInt32.toNat_inj, hcounts.toNat_jumpCount hfits, ← List.length_eq_one_iff]
  rfl

theorem Counts.backward_iff (hcounts : label.Counts address sources) :
    label.backward ↔ ∃ source ∈ sources, address < source := by
  rw [hcounts.backward_eq]
  simp

theorem Counts.forward_iff (hcounts : label.Counts address sources) :
    label.forward ↔ ∃ source ∈ sources, source < address := by
  rw [hcounts.forward_eq]
  simp

/-- A direction is the direction of some jump. -/
theorem Counts.jumpCount_pos (hcounts : label.Counts address sources)
    (hfits : sources.length < UInt32.size) (hdirection : label.backward ∨ label.forward) :
    0 < label.jumpCount := by
  have hjump : ∃ source, source ∈ sources := by
    rw [hcounts.backward_iff, hcounts.forward_iff] at hdirection
    rcases hdirection with ⟨source, hsource, -⟩ | ⟨source, hsource, -⟩
    · exact ⟨source, hsource⟩
    · exact ⟨source, hsource⟩
  obtain ⟨source, hsource⟩ := hjump
  rw [UInt32.lt_iff_toNat_lt, hcounts.toNat_jumpCount hfits]
  exact List.length_pos_of_mem hsource

/-- A single jump does not go both ways. -/
theorem Counts.not_both (hcounts : label.Counts address sources)
    (hfits : sources.length < UInt32.size) (hone : label.jumpCount = 1) :
    ¬ (label.backward ∧ label.forward) := by
  obtain ⟨source, rfl⟩ := (hcounts.jumpCount_eq_one_iff hfits).mp hone
  rw [hcounts.backward_iff, hcounts.forward_iff]
  simp only [List.mem_singleton, exists_eq_left]
  rintro ⟨hback, hforth⟩
  exact String.lt_asymm hback hforth

/-- A label has the name of a loop if it counts one jump, which goes back. -/
theorem Counts.deducedName_eq_loop_iff (hcounts : label.Counts address sources)
    (hfits : sources.length < UInt32.size) :
    label.deducedName = s!"loop{label.id}" ↔ ∃ source, sources = [source] ∧ address < source := by
  rw [Label.deducedName_eq_loop_iff, hcounts.jumpCount_eq_one_iff hfits, hcounts.backward_iff,
    hcounts.forward_iff]
  constructor
  · rintro ⟨⟨back, hmem, hback⟩, -, source, rfl⟩
    rw [List.mem_singleton] at hmem
    exact ⟨source, rfl, hmem ▸ hback⟩
  · rintro ⟨source, rfl, hback⟩
    refine ⟨⟨source, List.mem_singleton_self source, hback⟩, ?_, source, rfl⟩
    rintro ⟨forth, hmem, hforth⟩
    rw [List.mem_singleton] at hmem
    exact String.lt_asymm hback (hmem ▸ hforth)

end Label

namespace LabelCache

/-- In every cache there is, the statistics of a label are those of the jumps that were rendered
with it since it was made or its statistics were forgotten. As long as their number fits its word,
it counts as many jumps as it has positions of jumps; it has a direction only if it has jumps, and
a single jump gives it one direction at most. If the user gave it no name, it is a loop exactly if
one jump was rendered with it, which came from a greater address. -/
theorem statistics_of_references (operations : List Operation) {address : String} {label : Label}
    (hlabel : (after operations).get? address = some label) :
    (∃ position, CountsFrom operations position address) ∧
    ∀ position, CountsFrom operations position address →
      let sources := referencesFrom operations position address
      label.referencedAt.length = sources.length ∧
      (label.backward ↔ ∃ source ∈ sources, address < source) ∧
      (label.forward ↔ ∃ source ∈ sources, source < address) ∧
      (sources.length < UInt32.size →
        label.referencedAt.length = label.jumpCount.toNat ∧
        (label.backward ∨ label.forward → 0 < label.jumpCount) ∧
        (label.jumpCount = 1 → ¬ (label.backward ∧ label.forward)) ∧
        (label.userLabel = none →
          (label.displayName = s!"loop{label.id}" ↔
            ∃ source, sources = [source] ∧ address < source))) := by
  obtain ⟨start, hstart, hcounts⟩ := exists_countsFrom hlabel
  refine ⟨⟨start, hstart⟩, fun position hposition => ?_⟩
  obtain rfl : start = position := hstart.eq hposition
  intro sources
  refine ⟨hcounts.length_referencedAt, hcounts.backward_iff, hcounts.forward_iff,
    fun hfits => ⟨?_, hcounts.jumpCount_pos hfits, hcounts.not_both hfits, ?_⟩⟩
  · rw [hcounts.toNat_jumpCount hfits]
    exact hcounts.length_referencedAt
  · intro hnone
    rw [Label.displayName, hnone, Option.getD_none]
    exact hcounts.deducedName_eq_loop_iff hfits

/-- A loop that was rendered twice and is a loop again once its statistics are forgotten and
another document jumps back to it. -/
theorem statistics_of_forgotten_loop :
    let lines := [
      "0x10                          00 nop",
      "0x11                          00 jnz 0x10",
      "0x12                          00 ret",
      ""]
    let others := [
      "0x0f                          00 nop",
      "0x13                          00 jmp 0x10",
      ""]
    let operations := [Operation.decompile lines "a.asm", .decompile lines "a.asm",
      .resetStatistics "a.asm", .decompile others "b.asm"]
    let label : Label := ⟨0, none, 1, [1], none, "a.asm", true, false⟩
    (after operations).get? "0x10" = some label ∧
      CountsFrom operations 2 "0x10" ∧ referencesFrom operations 2 "0x10" = ["0x13"] ∧
      label.displayName = s!"loop{label.id}" := by
  intro lines others operations label
  obtain ⟨hmade, hlabel, hsources⟩ :
      (after (operations.take 2)).get? "0x10" =
          some ⟨0, some 0, 2, [2, 2], none, "a.asm", true, false⟩ ∧
        (after operations).get? "0x10" = some label ∧
        referencesFrom operations 2 "0x10" = ["0x13"] := by
    decide +kernel
  have hkept : (after (operations.take 3)).get? "0x10" =
      some ⟨0, none, 0, [], none, "a.asm", false, false⟩ := by
    decide +kernel
  have hfrom : CountsFrom operations 2 "0x10" := by
    refine ⟨⟨_, rfl, ?_⟩, ?_⟩
    · rw [Starts, hmade]
    · intro later hlater hstarts
      obtain rfl : later = 3 := Nat.le_antisymm (Nat.le_of_lt_succ hstarts.lt_length) hlater
      exact not_startsAt_decompile rfl hkept hstarts
  obtain ⟨-, hstatistics⟩ := statistics_of_references operations hlabel
  obtain ⟨-, -, -, hfitting⟩ := hstatistics 2 hfrom
  obtain ⟨-, -, -, hname⟩ := hfitting (by rw [hsources]; decide)
  exact ⟨hlabel, hfrom, hsources, (hname rfl).mpr ⟨"0x13", hsources, by decide⟩⟩

end LabelCache

end JitTrace
