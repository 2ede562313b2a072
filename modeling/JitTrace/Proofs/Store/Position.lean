import JitTrace.Store.Basic
import JitTrace.Proofs.Index
import Mathlib.Algebra.GroupWithZero.Nat

/-! # Positions in a store

The files of a store are seen through the names of the files, the functions at positions, and the
numbers of all functions and of all events. Each way of changing the files is described by what it
does to these views, so that nothing else has to look into the lists.
-/

namespace JitTrace.Store

/-- The name of the file at a position. -/
def filename? (store : Store) (file : Nat) : Option String :=
  store.files[file]?.map FileInsight.filename

/-- The number of functions in all files. -/
def functionTotal (store : Store) : Nat :=
  (store.files.map fun file => file.functions.length).sum

/-- The number of events in the histories of all functions. -/
def eventTotal (store : Store) : Nat :=
  (store.files.map fun file =>
    (file.functions.map fun function => function.events.length).sum).sum

/-- The store with a function behind the others of the file at a position. -/
def append (store : Store) (file : Nat) (function : FunctionInsight) : Store :=
  { store with
    files := store.files.modify file fun insight =>
      { insight with functions := insight.functions ++ [function] } }

theorem function?_eq (store : Store) (handle : Handle) :
    store.function? handle =
      store.files[handle.file]?.bind fun file => file.functions[handle.function]? := rfl

theorem functionAtSite?_eq (store : Store) (site : String) :
    store.functionAtSite? site = (store.bySite.get? site).bind store.function? := rfl

/-- The sum of a list in which one number is replaced. -/
private theorem sum_map_modify {α : Type} (size : α → Nat) (change : α → α) (items : List α)
    (index : Nat) (item : α) (hitem : items[index]? = some item) :
    ((items.modify index change).map size).sum + size item =
      (items.map size).sum + size (change item) := by
  induction items generalizing index with
  | nil => simp at hitem
  | cons head rest ih =>
      cases index with
      | zero =>
          simp only [List.getElem?_cons_zero, Option.some.injEq] at hitem
          subst hitem
          simp only [List.modify_zero_cons, List.map_cons, List.sum_cons]
          omega
      | succ index =>
          have hrest := ih index (by simpa using hitem)
          simp only [List.modify_succ_cons, List.map_cons, List.sum_cons]
          omega

/-! ## Changing a function -/

section Modify

variable (store : Store) (handle : Handle) (change : FunctionInsight → FunctionInsight)

@[simp]
theorem bySite_modify : (store.modify handle change).bySite = store.bySite := rfl

@[simp]
theorem byAddress_modify : (store.modify handle change).byAddress = store.byAddress := rfl

theorem filename?_modify (file : Nat) :
    (store.modify handle change).filename? file = store.filename? file := by
  simp only [filename?, modify, List.getElem?_modify]
  cases store.files[file]? with
  | none => rfl
  | some insight =>
      simp only [Option.map_eq_map, Option.map_some]
      split <;> rfl

/-- Only the function at the position changes. -/
theorem function?_modify (other : Handle) :
    (store.modify handle change).function? other =
      if other = handle then (store.function? handle).map change else store.function? other := by
  obtain ⟨file, index⟩ := handle
  obtain ⟨otherFile, otherIndex⟩ := other
  simp only [function?_eq, modify, List.getElem?_modify, Handle.mk.injEq]
  by_cases hfile : otherFile = file
  · subst hfile
    cases store.files[otherFile]? with
    | none => simp
    | some insight =>
        by_cases hindex : otherIndex = index
        · simp [hindex]
        · simp [hindex, Ne.symm hindex]
  · cases store.files[otherFile]? with
    | none => simp [hfile]
    | some insight => simp [hfile, Ne.symm hfile]

theorem functionTotal_modify :
    (store.modify handle change).functionTotal = store.functionTotal := by
  unfold functionTotal modify
  congr 1
  apply List.ext_getElem?
  intro file
  simp only [List.getElem?_map, List.getElem?_modify, Option.map_eq_map]
  cases store.files[file]? with
  | none => rfl
  | some insight =>
      simp only [Option.map_some]
      split
      · simp
      · rfl

/-- The events of the changed function come in place of those it had. -/
theorem eventTotal_modify {function : FunctionInsight}
    (hfunction : store.function? handle = some function) :
    (store.modify handle change).eventTotal + function.events.length =
      store.eventTotal + (change function).events.length := by
  obtain ⟨insight, hinsight, hheld⟩ := Option.bind_eq_some_iff.mp hfunction
  have hfile := sum_map_modify (fun function : FunctionInsight => function.events.length) change
    insight.functions handle.function function hheld
  have hfiles := sum_map_modify
    (fun file : FileInsight => (file.functions.map fun function => function.events.length).sum)
    (fun file => { file with functions := file.functions.modify handle.function change })
    store.files handle.file insight hinsight
  simp only at hfiles
  simp only [eventTotal, modify]
  omega

end Modify

/-! ## Appending a function -/

section Append

variable (store : Store) (file : Nat) (function : FunctionInsight)

theorem filename?_append (other : Nat) :
    (store.append file function).filename? other = store.filename? other := by
  simp only [filename?, append, List.getElem?_modify]
  cases store.files[other]? with
  | none => rfl
  | some insight =>
      simp only [Option.map_eq_map, Option.map_some]
      split <;> rfl

/-- No position held a function where the next one goes. -/
theorem function?_fileSize : store.function? ⟨file, store.fileSize file⟩ = none := by
  simp only [function?_eq, fileSize]
  cases store.files[file]? with
  | none => rfl
  | some insight => simp

/-- The new function is found behind the others of its file, and these stay where they were. -/
theorem function?_append (hfile : (store.filename? file).isSome) (other : Handle) :
    (store.append file function).function? other =
      if other = ⟨file, store.fileSize file⟩ then some function else store.function? other := by
  obtain ⟨otherFile, index⟩ := other
  simp only [function?_eq, append, fileSize, List.getElem?_modify, Handle.mk.injEq]
  by_cases heq : otherFile = file
  · subst heq
    cases hinsight : store.files[otherFile]? with
    | none => simp [filename?, hinsight] at hfile
    | some insight =>
        by_cases hindex : index = insight.functions.length
        · simp [hindex]
        · simp only [Option.map_eq_map, Option.map_some, if_true, true_and, hindex, if_false,
            Option.bind_some]
          rcases Nat.lt_or_gt_of_ne hindex with hlt | hgt
          · rw [List.getElem?_append_left hlt]
          · rw [List.getElem?_eq_none (by simp; omega), List.getElem?_eq_none (by omega)]
  · cases store.files[otherFile]? with
    | none => simp [heq]
    | some insight => simp [heq, Ne.symm heq]

theorem functionTotal_append (hfile : (store.filename? file).isSome) :
    (store.append file function).functionTotal = store.functionTotal + 1 := by
  cases hinsight : store.files[file]? with
  | none => simp [filename?, hinsight] at hfile
  | some insight =>
      have hsum := sum_map_modify (fun file => file.functions.length)
        (fun insight => { insight with functions := insight.functions ++ [function] })
        store.files file insight hinsight
      simp only [List.length_append, List.length_singleton] at hsum
      simp only [functionTotal, append]
      omega

theorem eventTotal_append (hfile : (store.filename? file).isSome) :
    (store.append file function).eventTotal = store.eventTotal + function.events.length := by
  cases hinsight : store.files[file]? with
  | none => simp [filename?, hinsight] at hfile
  | some insight =>
      have hsum := sum_map_modify
        (fun file : FileInsight => (file.functions.map fun function => function.events.length).sum)
        (fun insight => { insight with functions := insight.functions ++ [function] })
        store.files file insight hinsight
      simp only [List.map_append, List.map_singleton, List.sum_append, List.sum_singleton] at hsum
      simp only [eventTotal, append]
      omega

end Append

/-! ## Opening a file -/

section EnsureFile

variable (store : Store) (filename : String)

variable {store filename} in
theorem ensureFile_of_some {file : Nat} (hfound : store.byFilename.get? filename = some file) :
    store.ensureFile filename = (file, store) := by
  rw [ensureFile, hfound]

variable {store filename} in
theorem ensureFile_of_none (hnew : store.byFilename.get? filename = none) :
    store.ensureFile filename =
      (store.files.length,
        { store with
          files := store.files ++ [⟨filename, []⟩]
          byFilename := store.byFilename.insert filename store.files.length }) := by
  rw [ensureFile, hnew]

@[simp]
theorem bySite_ensureFile : (store.ensureFile filename).2.bySite = store.bySite := by
  unfold ensureFile
  split <;> rfl

@[simp]
theorem byAddress_ensureFile : (store.ensureFile filename).2.byAddress = store.byAddress := by
  unfold ensureFile
  split <;> rfl

/-- A file that is new holds no function yet. -/
theorem function?_ensureFile (handle : Handle) :
    (store.ensureFile filename).2.function? handle = store.function? handle := by
  unfold ensureFile
  split
  next => rfl
  next =>
    simp only [function?_eq]
    rcases Nat.lt_trichotomy handle.file store.files.length with hlt | heq | hgt
    · rw [List.getElem?_append_left hlt]
    · rw [heq]
      simp
    · rw [List.getElem?_eq_none (by simp; omega), List.getElem?_eq_none (by omega)]

theorem functionTotal_ensureFile :
    (store.ensureFile filename).2.functionTotal = store.functionTotal := by
  unfold ensureFile
  split
  next => rfl
  next => simp [functionTotal]

theorem eventTotal_ensureFile :
    (store.ensureFile filename).2.eventTotal = store.eventTotal := by
  unfold ensureFile
  split
  next => rfl
  next => simp [eventTotal]

end EnsureFile

/-- Registering a function opens its file, appends it there, and notes its site. -/
theorem register_eq (store : Store) (location : Location) :
    store.register location =
      let opened := (store.ensureFile location.filename).2
      let file := (store.ensureFile location.filename).1
      (⟨file, opened.fileSize file⟩,
        { opened.append file (.ofLocation location) with
          bySite := opened.bySite.insert location.key ⟨file, opened.fileSize file⟩ }) := rfl

end JitTrace.Store
