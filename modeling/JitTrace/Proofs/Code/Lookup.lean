import JitTrace.Proofs.Code.ControlFlow

/-! # The label of an output line

A label keeps the output lines that show it and the last one that defines it. An output line shows
or defines one label at most, so looking up the label of a line has one candidate, and it is the
one that the outline has there.
-/

namespace JitTrace

/-! ## Output lines -/

theorem OutputLine.defines_iff {output : OutputLine} {address : String} :
    output.defines address ↔ output = .definition address := by
  cases output <;> simp [defines]

/-- The last position that passes a test: no later one does. -/
theorem getLast?_findIdxs_eq_some_iff {α : Type} (test : α → Bool) (items : List α)
    (position : Nat) :
    (items.findIdxs test).getLast? = some position ↔
      (∃ item, items[position]? = some item ∧ test item) ∧
        ∀ later ∈ items.drop (position + 1), ¬ test later := by
  induction items using List.reverseRecOn with
  | nil => simp
  | append_singleton items item ih =>
      rw [List.findIdxs_append, List.findIdxs_singleton, Nat.zero_add]
      rcases Nat.lt_trichotomy position items.length with hlt | rfl | hgt
      · rw [List.getElem?_append_left hlt, List.drop_append_of_le_length hlt]
        by_cases htest : test item
        · simp [htest, Nat.ne_of_gt hlt]
        · simp [htest, ih, or_imp, forall_and]
      · by_cases htest : test item
        · simp [htest]
        · simp [htest, ih]
      · have hitems : items[position]? = none := List.getElem?_eq_none (Nat.le_of_lt hgt)
        have hmore : (items ++ [item])[position]? = none :=
          List.getElem?_eq_none (by rw [List.length_append]; exact hgt)
        rw [hmore]
        by_cases htest : test item
        · simp [htest, Nat.ne_of_lt hgt]
        · simp [htest, ih, hitems]

namespace Block

/-- The address whose label an output line shows, or defines as the last line that does. -/
def addressAt? (outline : List OutputLine) (position : Nat) : Option String :=
  match outline[position]? with
  | some (.toLabel _ target) => some target
  | some (.definition address) =>
    if .definition address ∈ outline.drop (position + 1) then none else some address
  | _ => none

theorem mem_targets_of_addressAt? {lines : List String} {position : Nat} {address : String}
    (haddress : addressAt? (document lines) position = some address) :
    address ∈ targets lines := by
  unfold addressAt? at haddress
  split at haddress
  next mnemonic target houtput =>
    cases haddress
    exact mem_targets_of_toLabel_mem (List.mem_of_getElem? houtput)
  next target houtput =>
    rw [Option.ite_none_left_eq_some, Option.some.injEq] at haddress
    rw [← haddress.2]
    exact mem_targets_of_definition_mem (List.mem_of_getElem? houtput)
  next => cases haddress

end Block

/-- A label that is placed in an outline touches the lines where the outline has its address. -/
theorem Label.touchesLine_place_iff (label : Label) (hline : label.line = none)
    (hreferenced : label.referencedAt = []) (address : String) (outline : List OutputLine)
    (position : Nat) :
    (label.place address outline).touchesLine position ↔
      Block.addressAt? outline position = some address := by
  have hshown : position ∈ outline.findIdxs (OutputLine.showsTarget address) ↔
      ∃ output, outline[position]? = some output ∧ output.showsTarget address := by
    simp [List.getElem?_eq_some_iff]
  simp only [touchesLine, place, hline, hreferenced, Option.or_none, List.nil_append,
    Bool.or_eq_true, decide_eq_true_iff, List.contains_iff_mem, getLast?_findIdxs_eq_some_iff,
    hshown, OutputLine.defines_iff]
  unfold Block.addressAt?
  cases outline[position]? with
  | none => simp
  | some output =>
      cases output with
      | definition other =>
          simp only [OutputLine.showsTarget, Option.some.injEq, exists_eq_left', Bool.false_eq_true,
            or_false, OutputLine.definition.injEq, List.forall_mem_ne',
            Option.ite_none_left_eq_some]
          constructor
          · rintro ⟨rfl, hlast⟩
            exact ⟨hlast, rfl⟩
          · rintro ⟨hlast, rfl⟩
            exact ⟨rfl, hlast⟩
      | plain instruction => simp [OutputLine.showsTarget]
      | indirect mnemonic operand => simp [OutputLine.showsTarget]
      | toLabel mnemonic target => simp [OutputLine.showsTarget]
      | outside mnemonic target => simp [OutputLine.showsTarget]

/-! ## Addresses of labels -/

namespace LabelCache

variable (cache : LabelCache) (context : String)

theorem keys_defineAt (position : Nat) (address : String) :
    (cache.defineAt position address).2.labels.keys = cache.labels.keys := by
  unfold defineAt
  split
  next => rfl
  next => exact Index.keys_modify ..

theorem keys_writeInstruction (range : Option CodeRange) (position : Nat) (instruction : String) :
    (cache.writeInstruction range position instruction).2.labels.keys = cache.labels.keys := by
  unfold writeInstruction
  split
  next => rfl
  next => rfl
  next =>
    split
    next => rfl
    next => exact Index.keys_modify ..

theorem keys_writeLine (range : Option CodeRange) (position : Nat) (line : String) :
    (cache.writeLine range position line).2.labels.keys = cache.labels.keys := by
  unfold writeLine
  split
  next => rfl
  next => exact (keys_writeInstruction ..).trans (keys_defineAt ..)

/-- The second pass makes no labels. -/
theorem keys_writeLines (range : Option CodeRange) (position : Nat) (lines : List String) :
    (cache.writeLines range position lines).2.labels.keys = cache.labels.keys := by
  induction lines generalizing cache position with
  | nil => rfl
  | cons line rest ih => rw [writeLines, ih, keys_writeLine]

variable {cache}

theorem nodup_keys_countJump (hdistinct : cache.labels.keys.Nodup) (jump : DirectJump) :
    (cache.countJump context jump).labels.keys.Nodup := by
  have hensure : (cache.ensure jump.target context).labels.keys.Nodup := by
    unfold ensure
    split
    next => exact hdistinct
    next => exact Index.nodup_keys_insert hdistinct _ _
  exact (Index.keys_modify _ jump.target _).symm ▸ hensure

theorem nodup_keys_decompile (hdistinct : cache.labels.keys.Nodup) (lines : List String) :
    (cache.decompile lines context).2.labels.keys.Nodup := by
  have hcounted : ∀ jumps : List DirectJump,
      (jumps.foldl (countJump context) cache.restartIds).labels.keys.Nodup := by
    intro jumps
    induction jumps using List.reverseRecOn with
    | nil => exact hdistinct
    | append_singleton jumps jump ih =>
        rw [List.foldl_append]
        exact nodup_keys_countJump context ih jump
  unfold decompile
  rw [keys_writeLines, discover_eq]
  exact hcounted _

/-! ## The label of a line -/

theorem foremost?_eq_none_iff (entries : List (String × Label)) :
    foremost? entries = none ↔ entries = [] := by
  cases entries with
  | nil => simp [foremost?]
  | cons entry rest =>
      unfold foremost?
      split
      next => split <;> simp
      next => simp

theorem mem_of_foremost?_eq_some {entries : List (String × Label)} {best : String × Label}
    (hbest : foremost? entries = some best) : best ∈ entries := by
  induction entries with
  | nil => cases hbest
  | cons entry rest ih =>
      unfold foremost? at hbest
      split at hbest
      next other hother =>
        split at hbest
        next => exact List.mem_cons_of_mem entry (ih (hother.trans hbest))
        next =>
          cases hbest
          exact List.mem_cons_self
      next =>
        cases hbest
        exact List.mem_cons_self

/-- If one address at most has a label of the document that touches the line, it is found. -/
theorem addressAtLine?_eq (hdistinct : cache.labels.keys.Nodup) {line : Nat}
    {address? : Option String}
    (honly : ∀ address, (∃ label, cache.get? address = some label ∧ label.context = context ∧
      label.touchesLine line) ↔ address? = some address) :
    cache.addressAtLine? context line = address? := by
  have hentry : ∀ entry, entry ∈ cache.labels.entries.filter (fun entry =>
      entry.2.context = context && entry.2.touchesLine line) → address? = some entry.1 := by
    rintro ⟨address, label⟩ hmem
    rw [List.mem_filter, Index.mem_entries_iff hdistinct, Bool.and_eq_true,
      decide_eq_true_iff] at hmem
    exact (honly address).mp ⟨label, hmem.1, hmem.2⟩
  unfold addressAtLine?
  cases hbest : foremost? (cache.labels.entries.filter fun entry =>
      entry.2.context = context && entry.2.touchesLine line) with
  | some best => exact (hentry best (mem_of_foremost?_eq_some hbest)).symm
  | none =>
      rw [foremost?_eq_none_iff, List.filter_eq_nil_iff] at hbest
      cases address? with
      | none => rfl
      | some address =>
          obtain ⟨label, hlabel, hcontext, htouches⟩ := (honly address).mpr rfl
          refine absurd ?_ (hbest (address, label) ?_)
          · simp [hcontext, htouches]
          · exact (Index.mem_entries_iff hdistinct ..).mpr hlabel

end LabelCache

end JitTrace
