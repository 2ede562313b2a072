import JitTrace.Proofs.Code.Meaning

/-! # The names in one document

A document that is rendered without older labels numbers its targets in the order in which they are
reached first. Deduced names end with these numbers, so no two targets share one.
-/

namespace JitTrace

/-! ## Deduced names -/

namespace Label

theorem exists_deducedName_eq (label : Label) :
    ∃ word ∈ ["loop", "reentry", "skip", "label"], label.deducedName = word ++ label.id.repr := by
  unfold deducedName
  split
  next =>
    split
    · exact ⟨"loop", by simp, rfl⟩
    · exact ⟨"reentry", by simp, rfl⟩
  next => exact ⟨"skip", by simp, rfl⟩
  next => exact ⟨"label", by simp, rfl⟩

/-- Labels with one deduced name have one identifier, since the words differ in their first two
letters. -/
theorem id_eq_of_deducedName_eq {label other : Label}
    (hname : label.deducedName = other.deducedName) : label.id = other.id := by
  obtain ⟨word, hword, hlabel⟩ := label.exists_deducedName_eq
  obtain ⟨otherWord, hother, hotherLabel⟩ := other.exists_deducedName_eq
  rw [hlabel, hotherLabel] at hname
  have hwords : word = otherWord := by
    have hchars := congrArg String.toList hname
    simp only [List.mem_cons, List.not_mem_nil, or_false] at hword hother
    rcases hword with rfl | rfl | rfl | rfl <;> rcases hother with rfl | rfl | rfl | rfl <;>
      simp at hchars ⊢
  rw [hwords, String.append_right_inj, Nat.repr_eq_ofList_toDigits, Nat.repr_eq_ofList_toDigits,
    String.ofList_inj] at hname
  rw [← Nat.ofDigitChars_ten_toDigits (n := label.id), hname, Nat.ofDigitChars_ten_toDigits]

/-- The line that defines a deduced name starts with a letter. -/
theorem head?_definition_ne_space (label : Label) :
    s!"{label.deducedName}:".toList.head? ≠ some ' ' := by
  obtain ⟨word, hword, hlabel⟩ := label.exists_deducedName_eq
  rw [hlabel]
  simp only [List.mem_cons, List.not_mem_nil, or_false] at hword
  rcases hword with rfl | rfl | rfl | rfl <;> simp [toString]

end Label

/-! ## Numbers of targets -/

namespace LabelCache

variable (cache : LabelCache) (context : String) {jumps : List DirectJump}

theorem newTargets_subset {jumps more : List DirectJump} (hsubset : jumps ⊆ more) :
    cache.newTargets jumps ⊆ cache.newTargets more := by
  intro address haddress
  rw [mem_newTargets] at haddress ⊢
  exact ⟨haddress.1, List.map_subset _ hsubset haddress.2⟩

theorem card_newTargets_takeWhile_lt {address : String}
    (haddress : address ∈ cache.newTargets jumps) :
    (cache.newTargets (jumps.takeWhile fun jump => jump.target ≠ address)).card <
      (cache.newTargets jumps).card := by
  refine Finset.card_lt_card (Finset.ssubset_iff_of_subset ?_ |>.mpr ⟨address, haddress, ?_⟩)
  · exact cache.newTargets_subset (List.takeWhile_prefix _).subset
  · rw [mem_newTargets]
    rintro ⟨-, hmem⟩
    obtain ⟨jump, hjump, htarget⟩ := List.mem_map.mp hmem
    have hne := List.mem_takeWhile_imp hjump
    exact of_decide_eq_true hne htarget

/-- Two new targets come behind different numbers of new targets. -/
theorem card_newTargets_takeWhile_inj {address other : String}
    (haddress : address ∈ cache.newTargets jumps) (hother : other ∈ cache.newTargets jumps)
    (hcard : (cache.newTargets (jumps.takeWhile fun jump => jump.target ≠ address)).card =
      (cache.newTargets (jumps.takeWhile fun jump => jump.target ≠ other)).card) :
    address = other := by
  induction jumps using List.reverseRecOn with
  | nil => simp [newTargets] at haddress
  | append_singleton jumps jump ih =>
      -- a target that is reached before keeps its rank, and the last one comes behind them all
      have hkept : ∀ target, target ∈ cache.newTargets (jumps ++ [jump]) →
          target ∈ cache.newTargets jumps ∨
            jump.target = target ∧ target ∉ jumps.map DirectJump.target := by
        intro target htarget
        rw [mem_newTargets] at htarget
        by_cases hmem : target ∈ jumps.map DirectJump.target
        · exact Or.inl ((mem_newTargets ..).mpr ⟨htarget.1, hmem⟩)
        · have hlast : target = jump.target := by simpa [hmem] using htarget.2
          exact Or.inr ⟨hlast.symm, hmem⟩
      have hrank : ∀ {target}, target ∈ cache.newTargets jumps →
          (jumps ++ [jump]).takeWhile (fun jump => jump.target ≠ target) =
            jumps.takeWhile fun jump => jump.target ≠ target := by
        intro target htarget
        exact takeWhile_concat_of_mem ((mem_newTargets ..).mp htarget).2 jump
      rcases hkept address haddress with hold | ⟨rfl, hnew⟩ <;>
        rcases hkept other hother with hotherOld | ⟨hlast, hotherNew⟩
      · rw [hrank hold, hrank hotherOld] at hcard
        exact ih hold hotherOld hcard
      · subst hlast
        rw [hrank hold, takeWhile_concat_of_not_mem hotherNew] at hcard
        exact absurd hcard (Nat.ne_of_lt (cache.card_newTargets_takeWhile_lt hold))
      · rw [hrank hotherOld, takeWhile_concat_of_not_mem hnew] at hcard
        exact absurd hcard.symm (Nat.ne_of_lt (cache.card_newTargets_takeWhile_lt hotherOld))
      · exact hlast

end LabelCache

/-! ## Documents of their own -/

namespace Block

/-- The targets of the jumps in range. -/
def targets (lines : List String) : List String :=
  (jumps lines).map DirectJump.target

/-- The labels of a block when there are no older ones, with its jumps counted. -/
def labels? (lines : List String) (context : String) : String → Option Label :=
  (∅ : LabelCache).discovered? context (jumps lines)

/-- The outline of a block when there are no older labels. -/
def document (lines : List String) : List OutputLine :=
  outline lines (fun address => decide (address ∈ targets lines)) lines

variable {lines : List String} {context : String}

theorem labels?_eq (lines : List String) (context address : String) :
    labels? lines context address =
      if address ∈ targets lines then
        some ((Label.fresh ((∅ : LabelCache).newTargets
          ((jumps lines).takeWhile fun jump => jump.target ≠ address)).card context).countJumps
            address (jumps lines))
      else none := rfl

/-- The targets of jumps in range have labels and no other address has. -/
theorem isSome_labels?_iff (lines : List String) (context address : String) :
    (labels? lines context address).isSome ↔ address ∈ targets lines := by
  rw [labels?_eq]
  split <;> simp [*]

/-- A label has counted the jumps of the block and nothing else has changed it. -/
theorem exists_label_eq {address : String} {label : Label}
    (hlabel : labels? lines context address = some label) :
    ∃ id, label = (Label.fresh id context).countJumps address (jumps lines) := by
  rw [labels?_eq, Option.ite_none_right_eq_some, Option.some.injEq] at hlabel
  exact ⟨_, hlabel.2.symm⟩

theorem outline_isSome_labels? (lines : List String) (context : String) :
    outline lines (fun address => (labels? lines context address).isSome) lines =
      document lines := by
  refine congrArg (outline lines · lines) (funext fun address => ?_)
  rw [Bool.eq_iff_iff, isSome_labels?_iff, decide_eq_true_iff]

theorem id_labels?_inj {address other : String} {label otherLabel : Label}
    (hlabel : labels? lines context address = some label)
    (hother : labels? lines context other = some otherLabel)
    (hid : label.id = otherLabel.id) : address = other := by
  rw [labels?_eq, Option.ite_none_right_eq_some, Option.some.injEq] at hlabel hother
  rw [← hlabel.2, ← hother.2] at hid
  exact LabelCache.card_newTargets_takeWhile_inj ∅
    ((LabelCache.mem_newTargets ..).mpr ⟨rfl, hlabel.1⟩)
    ((LabelCache.mem_newTargets ..).mpr ⟨rfl, hother.1⟩) hid

end Block

namespace LabelCache

variable {lines : List String}

theorem nameOf_eq {labels : String → Option Label} {address : String} {label : Label}
    (hlabel : labels address = some label) : nameOf labels address = label.displayName := by
  rw [nameOf, hlabel]
  rfl

theorem exists_nameOf_labels?_eq (context : String) {address : String}
    (haddress : address ∈ Block.targets lines) :
    ∃ label, Block.labels? lines context address = some label ∧
      nameOf (Block.labels? lines context) address = label.deducedName := by
  obtain ⟨label, hlabel⟩ :=
    Option.isSome_iff_exists.mp ((Block.isSome_labels?_iff lines context address).mpr haddress)
  refine ⟨label, hlabel, ?_⟩
  obtain ⟨id, rfl⟩ := Block.exists_label_eq hlabel
  exact nameOf_eq hlabel

theorem nameOf_labels?_inj (context : String) {address other : String}
    (haddress : address ∈ Block.targets lines) (hother : other ∈ Block.targets lines) :
    nameOf (Block.labels? lines context) address = nameOf (Block.labels? lines context) other ↔
      address = other := by
  refine ⟨fun hname => ?_, fun heq => by rw [heq]⟩
  obtain ⟨label, hlabel, hdeduced⟩ := exists_nameOf_labels?_eq context haddress
  obtain ⟨otherLabel, hotherLabel, hotherDeduced⟩ := exists_nameOf_labels?_eq context hother
  rw [hdeduced, hotherDeduced] at hname
  exact Block.id_labels?_inj hlabel hotherLabel (Label.id_eq_of_deducedName_eq hname)

/-- What is written for a block on its own, and where its labels are then. -/
theorem decompile_empty_spec (lines : List String) (context : String) :
    ((∅ : LabelCache).decompile lines context).1 =
        (Block.document lines).map (OutputLine.text (nameOf (Block.labels? lines context))) ∧
      Places (Block.labels? lines context) (Block.document lines)
        ((∅ : LabelCache).decompile lines context).2 := by
  rw [← Block.outline_isSome_labels? lines context]
  exact (∅ : LabelCache).decompile_spec lines context

end LabelCache

end JitTrace
