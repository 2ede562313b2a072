import JitTrace.Proofs.Store.Log

/-! # What a record leaves alone

A record that is not recorded leaves the store as it was. One that is recorded lengthens the history
of one function by one event. This function was there before, or comes behind the others of its
file, or is the only one of a new file behind the others. All other functions stay as they were and
where they were, and every index keeps its entries, except that an address leads to new code from
now on.
-/

namespace JitTrace

namespace FunctionInsight

theorem events_meet (known : Option FunctionInsight) (location : Location) :
    (meet known location).events = known.elim [] events := by
  cases known with
  | none => rfl
  | some function => exact (function.learnName_frame location).2.2

end FunctionInsight

namespace Store

/-! ## Putting a function into files -/

/-- Files before and after a function was put at a position: in place of the one that was there,
behind the last one of a file, or into a new file behind the last one. -/
inductive Placed (function : FunctionInsight) :
    List FileInsight → Handle → List FileInsight → Prop where
  | known {before after filename front old back} :
      Placed function (before ++ ⟨filename, front ++ old :: back⟩ :: after)
        ⟨before.length, front.length⟩ (before ++ ⟨filename, front ++ function :: back⟩ :: after)
  | added {before after filename functions} :
      Placed function (before ++ ⟨filename, functions⟩ :: after)
        ⟨before.length, functions.length⟩
        (before ++ ⟨filename, functions ++ [function]⟩ :: after)
  | opened {files filename} :
      Placed function files ⟨files.length, 0⟩ (files ++ [⟨filename, [function]⟩])

theorem exists_append_of_getElem? {α : Type} {items : List α} {index : Nat} {item : α}
    (hitem : items[index]? = some item) :
    ∃ before after, items = before ++ item :: after ∧ before.length = index := by
  obtain ⟨hlt, rfl⟩ := List.getElem?_eq_some_iff.mp hitem
  refine ⟨items.take index, items.drop (index + 1), ?_, List.length_take_of_le (Nat.le_of_lt hlt)⟩
  rw [List.getElem_cons_drop, List.take_append_drop]

theorem modify_append_cons {α : Type} (before : List α) (item : α) (after : List α)
    (change : α → α) :
    (before ++ item :: after).modify before.length change = before ++ change item :: after := by
  simp [List.modify_eq_take_cons_drop]

/-- Changing the function that was put last changes what is put. -/
theorem Placed.modify {function : FunctionInsight} {store next : Store} {handle : Handle}
    (hplaced : Placed function store.files handle next.files)
    (change : FunctionInsight → FunctionInsight) :
    Placed (change function) store.files handle (next.modify handle change).files := by
  generalize hfiles : store.files = files at hplaced
  generalize hnext : next.files = nextFiles at hplaced
  rw [Store.modify, hnext]
  cases hplaced with
  | known =>
      simp only [modify_append_cons]
      exact .known
  | added =>
      simp only [modify_append_cons]
      exact .added
  | opened =>
      simp only [modify_append_cons, List.modify_zero_cons]
      exact .opened

theorem placed_modify {store : Store} {handle : Handle} {function : FunctionInsight}
    (hfunction : store.function? handle = some function)
    (change : FunctionInsight → FunctionInsight) :
    Placed (change function) store.files handle (store.modify handle change).files := by
  obtain ⟨file, index⟩ := handle
  obtain ⟨⟨filename, functions⟩, hfile, hheld⟩ := function?_eq_some_iff.mp hfunction
  obtain ⟨front, back, rfl, rfl⟩ := exists_append_of_getElem? hheld
  obtain ⟨before, after, hfiles, rfl⟩ := exists_append_of_getElem? hfile
  simp only [Store.modify, hfiles, modify_append_cons]
  exact .known

/-- Registering puts a new function behind those of its file. -/
theorem Indexed.placed_register {store : Store} (hstore : store.Indexed) (location : Location) :
    Placed (.ofLocation location) store.files (store.register location).1
      (store.register location).2.files := by
  rw [register_eq]
  cases hfound : store.byFilename.get? location.filename with
  | none =>
      simp only [ensureFile_of_none hfound, append, fileSize, modify_append_cons,
        List.getElem?_concat_length, List.nil_append, List.length_nil]
      exact .opened
  | some file =>
      obtain ⟨⟨filename, functions⟩, hfile, -⟩ :=
        filename?_eq_some_iff.mp (hstore.filename_iff.mp hfound)
      simp only [ensureFile_of_some hfound, append, fileSize, hfile]
      obtain ⟨before, after, hfiles, rfl⟩ := exists_append_of_getElem? hfile
      rw [hfiles, modify_append_cons]
      exact .added

/-- Locating a function puts it, with the late name that the location may bring, at its position. -/
theorem Indexed.placed_locate {store : Store} (hstore : store.Indexed) (location : Location) :
    Placed (FunctionInsight.meet (store.functionAtSite? location.key) location) store.files
      (store.locate location).1 (store.locate location).2.files := by
  rw [functionAtSite?_eq, locate]
  cases hsite : store.bySite.get? location.key with
  | none => exact hstore.placed_register location
  | some handle =>
      obtain ⟨_, function, _, hfunction, _⟩ := hstore.function_of_site hsite
      rw [Option.bind_some, hfunction]
      exact placed_modify hfunction fun function => function.learnName location

theorem Indexed.placed_recordCreation {store : Store} (hstore : store.Indexed)
    (creation : Creation) (time : UInt64) (memory : MemoryArea) (location : Location) :
    Placed ((FunctionInsight.meet (store.functionAtSite? location.key) location).noteCreation
        creation time memory) store.files (store.locate location).1
      (store.recordCreation creation time memory location).files := by
  have hnoted := (hstore.placed_locate location).modify
    fun function => function.noteCreation creation time memory
  cases creation with
  | script => exact hnoted
  | compileStart => exact hnoted
  | compileEnd => exact hnoted

/-! ## Keeping the entries of indexes -/

/-- A file that is located into is found by its name from now on, if it was not before. -/
theorem get?_byFilename_locate (store : Store) (location : Location) (filename : String) :
    (store.locate location).2.byFilename.get? filename = store.byFilename.get? filename ∨
      store.byFilename.get? filename = none ∧
        (store.locate location).2.byFilename.get? filename =
          some (store.locate location).1.file := by
  rw [locate]
  cases store.bySite.get? location.key with
  | some handle => exact Or.inl rfl
  | none =>
      rw [register_eq]
      have hopened := get?_byFilename_ensureFile store location.filename filename
      by_cases heq : filename = location.filename
      · subst heq
        rw [if_pos rfl] at hopened
        cases hfound : store.byFilename.get? location.filename with
        | none => exact Or.inr ⟨rfl, hopened⟩
        | some file =>
            rw [ensureFile_of_some hfound] at hopened ⊢
            exact Or.inl hfound
      · rw [if_neg heq] at hopened
        exact Or.inl hopened

/-- What was at the position of an attached function before is what its site led to. -/
theorem Attached.function?_eq {store next : Store} (hstore : store.Indexed) {site : String}
    {handle : Handle} {function : FunctionInsight}
    (hattached : Attached store next site handle function) :
    store.function? handle = store.functionAtSite? site := by
  cases hknown : store.function? handle with
  | some known => exact (hattached.functionAtSite?_of_function? hstore hknown).symm
  | none =>
      cases hfunction : store.functionAtSite? site with
      | none => rfl
      | some function =>
          -- the site led to a position already, and it still leads there
          rw [functionAtSite?_eq, Option.bind_eq_some_iff] at hfunction
          obtain ⟨position, hposition, hheld⟩ := hfunction
          rw [hattached.handle_eq hstore hposition, hknown] at hheld
          cases hheld

/-- A site that is attached to was new or led to the same position before. -/
theorem Attached.get?_bySite {store next : Store} (hstore : store.Indexed) {site : String}
    {handle : Handle} {function : FunctionInsight}
    (hattached : Attached store next site handle function) (other : String) :
    next.bySite.get? other = store.bySite.get? other ∨
      store.bySite.get? other = none ∧ next.bySite.get? other = some handle := by
  rw [hattached.handle_at]
  by_cases heq : other = site
  · subst heq
    cases hsite : store.bySite.get? other with
    | none => exact Or.inr ⟨rfl, if_pos rfl⟩
    | some position =>
        rw [hattached.handle_eq hstore hsite]
        exact Or.inl (if_pos rfl)
  · exact Or.inl (if_neg heq)

/-! ## Applying a record -/

/-- From one store to the next, a record adds its event to the history of the function at a
position, which may be a new one, and nothing else happens: the other functions are the same, and so
are the entries of the indexes, except that a new function is found by its site, a new file by its
name, and new code by its address. -/
structure Gains (store : Store) (record : Record) (handle : Handle) (function : FunctionInsight)
    (next : Store) : Prop where
  placed : Placed function store.files handle next.files
  function_eq : next.function? handle = some function
  events_eq : function.events =
    (store.function? handle).elim [] FunctionInsight.events ++ [record.event]
  others_eq : ∀ other, other ≠ handle → next.function? other = store.function? other
  sites_kept : ∀ site, next.bySite.get? site = store.bySite.get? site ∨
    store.bySite.get? site = none ∧ next.bySite.get? site = some handle
  filenames_kept : ∀ filename, next.byFilename.get? filename = store.byFilename.get? filename ∨
    store.byFilename.get? filename = none ∧ next.byFilename.get? filename = some handle.file
  addresses_kept : ∀ key, next.byAddress.get? key = store.byAddress.get? key ∨
    (∃ time memory source, record = .creation .compileEnd time memory source ∧
      normalizeAddress memory.start = key) ∧ next.byAddress.get? key = some handle

theorem Indexed.gains_creation {store : Store} (hstore : store.Indexed) {creation : Creation}
    (time : UInt64) (memory : MemoryArea) {source : String} {location : Location}
    (hsource : creation.locate? source = some location) :
    ∃ handle function, Gains store (.creation creation time memory source) handle function
      (store.recordCreation creation time memory location) := by
  have hattached := hstore.attached_recordCreation time memory hsource
  refine ⟨_, _, hstore.placed_recordCreation creation time memory location, ?_, ?_, ?_,
    hattached.get?_bySite hstore, ?_, ?_⟩
  · rw [hattached.function_at, if_pos rfl]
  · rw [FunctionInsight.events_noteCreation, FunctionInsight.events_meet,
      hattached.function?_eq hstore]
    rfl
  · intro other hother
    rw [hattached.function_at, if_neg hother]
  · intro filename
    have hlocated := get?_byFilename_locate store location filename
    cases creation with
    | script => exact hlocated
    | compileStart => exact hlocated
    | compileEnd => exact hlocated
  · intro key
    rw [get?_byAddress_recordCreation]
    split
    next hhere =>
      obtain ⟨rfl, rfl⟩ := hhere
      exact Or.inr ⟨⟨time, memory, source, rfl, rfl⟩, rfl⟩
    next => exact Or.inl rfl

theorem Consistent.gains_deoptimization {store : Store} (hstore : store.Consistent)
    {handle : Handle} {address : String}
    (haddress : store.byAddress.get? (normalizeAddress address) = some handle)
    (time : UInt64) (position reason : String) :
    ∃ function, Gains store (.deoptimization time address position reason) handle function
      (store.modify handle fun function => function.deoptimize time reason position) := by
  obtain ⟨function, hfunction, _⟩ := hstore.compiled_of_address haddress
  have hplaced := placed_modify hfunction fun function => function.deoptimize time reason position
  refine ⟨function.deoptimize time reason position, hplaced, ?_, ?_, ?_,
    fun _ => Or.inl rfl, fun _ => Or.inl rfl, fun _ => Or.inl rfl⟩
  · rw [function?_modify, if_pos rfl, hfunction, Option.map_some]
  · rw [hfunction]
    rfl
  · intro other hother
    rw [function?_modify, if_neg hother]

/-- Applying a record to any store there is either leaves all of it alone, if the record is ignored
or its code address is unknown, or adds one event to one function and leaves all else alone. -/
theorem apply_frame (operations : List Operation) (record : Record) :
    let store := after operations
    let next := (store.apply record).2
    ((store.apply record).1 = .ignored ∨ (store.apply record).1 = .unresolvedDeopt →
      next = store) ∧
    ((store.apply record).1 = .recorded →
      ∃ handle function, Gains store record handle function next) := by
  intro store next
  have hstore : store.Consistent := consistent_after operations
  cases record with
  | creation creation time memory source =>
      cases hsource : creation.locate? source with
      | none => simp [next, apply, hsource]
      | some location =>
          simp only [next, apply, hsource, reduceCtorEq, or_self, false_imp_iff, true_and,
            forall_const]
          exact hstore.gains_creation time memory hsource
  | deoptimization time address position reason =>
      cases haddress : store.byAddress.get? (normalizeAddress address) with
      | none => simp [next, apply, haddress]
      | some handle =>
          simp only [next, apply, haddress, reduceCtorEq, or_self, false_imp_iff, true_and,
            forall_const]
          exact ⟨handle, hstore.gains_deoptimization haddress time position reason⟩

/-- Code of a new function in a new file at an address that was used before, and code thrown away at
an address that was not. -/
theorem apply_frame_at_used_address :
    let operations : List Operation := [
      .apply (.creation .compileEnd 3 ⟨"0xA", 8⟩ "f file:///a.js:1:1")]
    let compiled := Record.creation .compileEnd 5 ⟨" 0xa", 8⟩ "g file:///b.js:1:1"
    let dropped := Record.deoptimization 6 "0xB" "file:///a.js:1:1" "wrong map"
    ((after operations).apply compiled).1 = .recorded ∧
      (∃ handle function, Gains (after operations) compiled handle function
        ((after operations).apply compiled).2) ∧
      ((after operations).apply compiled).2.byAddress.get? "0xa" = some ⟨1, 0⟩ ∧
      ((after operations).apply dropped).1 = .unresolvedDeopt ∧
      ((after operations).apply dropped).2 = after operations := by
  intro operations compiled dropped
  have hrecorded : ((after operations).apply compiled).1 = .recorded := by decide +kernel
  have hunresolved : ((after operations).apply dropped).1 = .unresolvedDeopt := by decide +kernel
  exact ⟨hrecorded, (apply_frame operations compiled).2 hrecorded, by decide +kernel, hunresolved,
    (apply_frame operations dropped).1 (Or.inr hunresolved)⟩

end Store

end JitTrace
