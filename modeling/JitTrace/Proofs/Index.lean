import JitTrace.Index
import Mathlib.Data.List.Nodup

/-! # Laws of indexes

What changing an index does to what is found in it, to its keys, and to their number. Keys of an
index that grew by insertion are distinct, so its size is the number of texts found in it.
-/

namespace JitTrace.Index

variable {α : Type} {β : Type}

/-- Changing the value under a key changes what is found there and nothing else. -/
theorem get?_modify (index : Index α) (key wanted : String) (change : α → α) :
    (index.modify key change).get? wanted =
      if wanted = key then (index.get? key).map change else index.get? wanted := by
  unfold modify
  cases hfound : index.get? key with
  | none =>
      by_cases heq : wanted = key
      · rw [if_pos heq, heq]
        exact hfound
      · rw [if_neg heq]
  | some value => exact get?_insert index key wanted (change value)

/-- Changing every value changes every value that is found. -/
theorem get?_mapValues (index : Index α) (change : α → β) (wanted : String) :
    (index.mapValues change).get? wanted = (index.get? wanted).map change := by
  obtain ⟨entries⟩ := index
  simp only [mapValues, get?]
  induction entries with
  | nil => rfl
  | cons entry rest ih =>
      rcases entry with ⟨key, value⟩
      by_cases heq : wanted = key
      · simp [heq]
      · simp only [List.map_cons, List.lookup_cons, beq_eq_false_iff_ne.2 heq]
        exact ih

/-- Something is found under the keys and nowhere else. -/
theorem isSome_get?_iff (index : Index α) (key : String) :
    (index.get? key).isSome ↔ key ∈ index.keys := by
  obtain ⟨entries⟩ := index
  simp only [get?, keys]
  induction entries with
  | nil => simp
  | cons entry rest ih =>
      rcases entry with ⟨found, value⟩
      by_cases heq : key = found
      · simp [heq]
      · simp only [List.lookup_cons, beq_eq_false_iff_ne.2 heq, List.map_cons, List.mem_cons, heq,
          false_or]
        exact ih

theorem get?_eq_none_iff (index : Index α) (key : String) :
    index.get? key = none ↔ key ∉ index.keys := by
  rw [← isSome_get?_iff, Option.not_isSome_iff_eq_none]

/-- A key that is new comes behind the others; one that is there keeps its place. -/
theorem keys_insert (index : Index α) (key : String) (value : α) :
    (index.insert key value).keys =
      if key ∈ index.keys then index.keys else index.keys ++ [key] := by
  obtain ⟨entries⟩ := index
  simp only [insert, keys]
  induction entries with
  | nil => simp [put]
  | cons entry rest ih =>
      rcases entry with ⟨found, held⟩
      by_cases heq : found = key
      · simp [put, heq]
      · rw [put, if_neg heq, List.map_cons, ih]
        by_cases hmem : key ∈ rest.map Prod.fst
        · simp [hmem]
        · simp [hmem, Ne.symm heq]

theorem nodup_keys_insert {index : Index α} (hnodup : index.keys.Nodup) (key : String) (value : α) :
    (index.insert key value).keys.Nodup := by
  rw [keys_insert]
  split
  next => exact hnodup
  next hnew =>
    refine List.nodup_append.mpr ⟨hnodup, List.nodup_singleton key, ?_⟩
    intro found hfound other hother heq
    rw [List.mem_singleton] at hother
    exact hnew (hother ▸ heq ▸ hfound)

theorem keys_modify (index : Index α) (key : String) (change : α → α) :
    (index.modify key change).keys = index.keys := by
  unfold modify
  cases hfound : index.get? key with
  | none => rfl
  | some value =>
      have hkey : key ∈ index.keys := by
        rw [← isSome_get?_iff, hfound]
        rfl
      exact (keys_insert index key (change value)).trans (if_pos hkey)

/-- If keys are distinct, no entry is hidden by another. -/
theorem mem_entries_iff {index : Index α} (hnodup : index.keys.Nodup) (key : String) (value : α) :
    (key, value) ∈ index.entries ↔ index.get? key = some value := by
  obtain ⟨entries⟩ := index
  simp only [keys, get?] at hnodup ⊢
  induction entries with
  | nil => simp
  | cons entry rest ih =>
      rcases entry with ⟨found, held⟩
      rw [List.map_cons, List.nodup_cons] at hnodup
      by_cases heq : key = found
      · subst heq
        have hrest : (key, value) ∉ rest := fun hmem =>
          hnodup.1 (List.mem_map.mpr ⟨_, hmem, rfl⟩)
        simp [hrest, eq_comm]
      · simp only [List.mem_cons, Prod.mk.injEq, heq, false_and, false_or, List.lookup_cons,
          beq_eq_false_iff_ne.2 heq]
        exact ih hnodup.2

theorem size_eq_length_keys (index : Index α) : index.size = index.keys.length := by
  simp [size, keys]

/-- A new key adds one to the size. -/
theorem size_insert_of_get?_eq_none {index : Index α} {key : String}
    (hnew : index.get? key = none) (value : α) :
    (index.insert key value).size = index.size + 1 := by
  rw [size_eq_length_keys, size_eq_length_keys, keys_insert,
    if_neg ((get?_eq_none_iff index key).mp hnew), List.length_append, List.length_singleton]

end JitTrace.Index
