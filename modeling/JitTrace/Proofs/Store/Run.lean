import JitTrace.Store.Ingest
import JitTrace.Proofs.Store.Apply
import Mathlib.Data.List.Induction

/-! # Stores that logs build

A store comes about by applying records, by reading event logs, completely or up to a fault, and
by starting over. Each of these leaves the store of some sequence of records, so that what holds
of all such sequences holds of all stores there are.
-/

namespace JitTrace

/-- A property that new functions have, and that a late name, new code and the loss of code
keep. -/
structure FunctionInsight.Invariant (property : FunctionInsight → Prop) : Prop where
  ofLocation : ∀ location, property (.ofLocation location)
  learnName : ∀ {function : FunctionInsight} location, property function →
    property (function.learnName location)
  noteCreation : ∀ {function : FunctionInsight} creation time memory, property function →
    property (function.noteCreation creation time memory)
  deoptimize : ∀ {function : FunctionInsight} time reason position, property function →
    property (function.deoptimize time reason position)

namespace Store

/-- The store after some more records. -/
def applyAll (store : Store) (records : List Record) : Store :=
  records.foldl (fun store record => (store.apply record).2) store

/-- The store that a sequence of records builds. -/
def ofLog (log : List Record) : Store :=
  (∅ : Store).applyAll log

theorem applyAll_append (store : Store) (records more : List Record) :
    store.applyAll (records ++ more) = (store.applyAll records).applyAll more :=
  List.foldl_append

theorem ofLog_concat (log : List Record) (record : Record) :
    ofLog (log ++ [record]) = ((ofLog log).apply record).2 :=
  applyAll_append ∅ log [record]

theorem consistent_ofLog (log : List Record) : (ofLog log).Consistent := by
  induction log using List.reverseRecOn with
  | nil => exact consistent_empty
  | append_singleton log record ih =>
      rw [ofLog_concat]
      exact ih.apply record

end Store

/-! ## Reading event logs -/

namespace Ingestion

/-- The records in the lines in front of the first fault. -/
def recordsOf : List LineItem → List Record
  | [] => []
  | .ok line :: rest => (Record.parse? line).toList ++ recordsOf rest
  | .error _ :: _ => []

theorem store_addLine (state : Ingestion) (line : String) :
    (state.addLine line).store = state.store.applyAll (Record.parse? line).toList := by
  unfold addLine
  cases Record.parse? line with
  | none => rfl
  | some record => rfl

/-- A pass applies the records in front of the first fault, and nothing else. -/
theorem store_addItems (state : Ingestion) (items : List LineItem) :
    (state.addItems items).2.store = state.store.applyAll (recordsOf items) := by
  induction items generalizing state with
  | nil => rfl
  | cons item rest ih =>
      cases item with
      | error fault => rfl
      | ok line =>
          rw [addItems, ih, store_addLine, recordsOf, Store.applyAll_append]

end Ingestion

namespace Store

/-- Reading an event log applies its records up to the first fault, whether it succeeds or not. -/
theorem store_ingest (store : Store) (chunk : Nat) (stream : Stream) :
    (store.ingest chunk stream).store =
      store.applyAll (Ingestion.recordsOf (stream.lines chunk)) := by
  have hpass := Ingestion.store_addItems (Ingestion.ofStore store) (stream.lines chunk)
  unfold ingest
  split
  next heq =>
    rw [heq] at hpass
    exact hpass
  next heq =>
    rw [heq] at hpass
    exact hpass

/-! ## Sequences of operations -/

/-- What can be done to a store. -/
inductive Operation where
  | apply (record : Record)
  | ingest (chunk : Nat) (stream : Stream)
  | clear

/-- The store after an operation. -/
def perform (store : Store) : Operation → Store
  | .apply record => (store.apply record).2
  | .ingest chunk stream => (store.ingest chunk stream).store
  | .clear => ∅

/-- The store after operations that start with an empty one. -/
def after (operations : List Operation) : Store :=
  operations.foldl perform ∅

/-- The records that a store is built of, after an operation. A failed reading counts with the
records in front of the fault, and clearing forgets all records. -/
def Operation.record (log : List Record) : Operation → List Record
  | .apply record => log ++ [record]
  | .ingest chunk stream => log ++ Ingestion.recordsOf (stream.lines chunk)
  | .clear => []

/-- The records that a store is built of, after operations that start with an empty one. -/
def recorded (operations : List Operation) : List Record :=
  operations.foldl Operation.record []

theorem perform_ofLog (log : List Record) (operation : Operation) :
    (ofLog log).perform operation = ofLog (operation.record log) := by
  cases operation with
  | apply record => exact (ofLog_concat log record).symm
  | ingest chunk stream =>
      rw [perform, store_ingest]
      exact (applyAll_append ∅ log _).symm
  | clear => rfl

theorem after_eq_ofLog (operations : List Operation) :
    after operations = ofLog (recorded operations) := by
  induction operations using List.reverseRecOn with
  | nil => rfl
  | append_singleton operations operation ih =>
      have hstep : after (operations ++ [operation]) = (after operations).perform operation :=
        List.foldl_append
      have hrecorded : recorded (operations ++ [operation]) =
          operation.record (recorded operations) :=
        List.foldl_append
      rw [hstep, hrecorded, ih, perform_ofLog]

/-- Whatever was done to a store, some sequence of records builds the same one. -/
theorem exists_ofLog_eq_after (operations : List Operation) :
    ∃ log, after operations = ofLog log :=
  ⟨recorded operations, after_eq_ofLog operations⟩

theorem consistent_after (operations : List Operation) : (after operations).Consistent := by
  obtain ⟨log, hlog⟩ := exists_ofLog_eq_after operations
  rw [hlog]
  exact consistent_ofLog log

/-! ## What holds of all functions -/

/-- Everything that applying a record does to a function keeps an invariant of functions. -/
theorem Applies.function_at {store : Store} {record : Record} {result : Outcome × Store}
    (happlies : Applies store record result) {property : FunctionInsight → Prop}
    (hinvariant : FunctionInsight.Invariant property)
    (hstore : ∀ {handle function}, store.function? handle = some function → property function)
    {handle : Handle} {function : FunctionInsight}
    (hfunction : result.2.function? handle = some function) : property function := by
  cases happlies with
  | ignored => exact hstore hfunction
  | unresolved => exact hstore hfunction
  | @created creation time memory source location next position hsource hattached haddresses =>
      rw [hattached.function_at] at hfunction
      split at hfunction
      next =>
        cases hfunction
        refine hinvariant.noteCreation _ _ _ ?_
        rw [FunctionInsight.meet]
        cases hknown : store.functionAtSite? location.key with
        | none => exact hinvariant.ofLocation location
        | some known =>
            rw [functionAtSite?_eq, Option.bind_eq_some_iff] at hknown
            obtain ⟨found, _, hfound⟩ := hknown
            exact hinvariant.learnName location (hstore hfound)
      next => exact hstore hfunction
  | deoptimized haddress hsite hknown hattached hsame =>
      rw [hattached.function_at] at hfunction
      split at hfunction
      next =>
        cases hfunction
        exact hinvariant.deoptimize _ _ _ (hstore hknown)
      next => exact hstore hfunction

/-- An invariant of functions holds of every function in every store that a log builds. -/
theorem invariant_ofLog {property : FunctionInsight → Prop}
    (hinvariant : FunctionInsight.Invariant property) (log : List Record) {handle : Handle}
    {function : FunctionInsight} (hfunction : (ofLog log).function? handle = some function) :
    property function := by
  induction log using List.reverseRecOn generalizing handle function with
  | nil => cases hfunction
  | append_singleton log record ih =>
      rw [ofLog_concat] at hfunction
      have happlies := (consistent_ofLog log).applies record
      exact happlies.function_at hinvariant ih hfunction

/-! ## What the indexes say of the files -/

theorem filename?_eq_some_iff {store : Store} {file : Nat} {filename : String} :
    store.filename? file = some filename ↔
      ∃ insight, store.files[file]? = some insight ∧ insight.filename = filename := by
  rw [filename?, Option.map_eq_some_iff]

theorem function?_eq_some_iff {store : Store} {handle : Handle} {function : FunctionInsight} :
    store.function? handle = some function ↔
      ∃ insight, store.files[handle.file]? = some insight ∧
        insight.functions[handle.function]? = some function := by
  rw [function?_eq, Option.bind_eq_some_iff]

/-- An index that leads every name to one file needs distinct names. -/
theorem Indexed.nodup_filenames {store : Store} (hstore : store.Indexed) :
    (store.files.map FileInsight.filename).Nodup := by
  rw [List.nodup_iff_getElem?_ne_getElem?]
  intro first second hlt hlength heq
  rw [List.getElem?_map, List.getElem?_map] at heq
  have hsome : (store.filename? second).isSome := by
    rw [List.length_map] at hlength
    simp [filename?, hlength]
  obtain ⟨filename, hsecond⟩ := Option.isSome_iff_exists.mp hsome
  have hfirst : store.filename? first = some filename := heq.trans hsecond
  have hsame := (hstore.filename_iff.mpr hfirst).symm.trans (hstore.filename_iff.mpr hsecond)
  exact absurd (Option.some.inj hsame) (Nat.ne_of_lt hlt)

theorem Indexed.functions_nonempty {store : Store} (hstore : store.Indexed) {file : FileInsight}
    (hfile : file ∈ store.files) : file.functions ≠ [] := by
  obtain ⟨position, hposition⟩ := List.getElem?_of_mem hfile
  have hfilename : (store.filename? position).isSome := by
    simp [filename?, hposition]
  have hfirst := hstore.file_nonempty hfilename
  intro hempty
  simp [function?_eq, hposition, hempty] at hfirst

/-- Every function of every file has a position. -/
theorem exists_function?_of_mem {store : Store} {file : FileInsight} (hfile : file ∈ store.files)
    {function : FunctionInsight} (hfunction : function ∈ file.functions) :
    ∃ handle, store.function? handle = some function := by
  obtain ⟨position, hposition⟩ := List.getElem?_of_mem hfile
  obtain ⟨index, hindex⟩ := List.getElem?_of_mem hfunction
  exact ⟨⟨position, index⟩, function?_eq_some_iff.mpr ⟨file, hposition, hindex⟩⟩

theorem Consistent.history_nonempty {store : Store} (hstore : store.Consistent)
    {file : FileInsight} (hfile : file ∈ store.files) {function : FunctionInsight}
    (hfunction : function ∈ file.functions) : function.events ≠ [] := by
  obtain ⟨handle, hhandle⟩ := exists_function?_of_mem hfile hfunction
  exact hstore.events_nonempty hhandle

/-- Every site is the site of one position, and every function has one site. -/
theorem Indexed.existsUnique_site {store : Store} (hstore : store.Indexed) {handle : Handle}
    (hfunction : (store.function? handle).isSome) :
    ∃! site, store.bySite.get? site = some handle := by
  obtain ⟨site, hsite⟩ := hstore.site_of_function hfunction
  exact ⟨site, hsite, fun other hother => hstore.site_unique hsite hother⟩

/-- A site reads as the declaration of the function that it leads to. -/
theorem Indexed.declaration_of_site {store : Store} (hstore : store.Indexed) {site : String}
    {handle : Handle} (hsite : store.bySite.get? site = some handle) :
    ∃ file function, store.files[handle.file]? = some file ∧
      file.functions[handle.function]? = some function ∧
      Location.Declares site file.filename function.declaration := by
  obtain ⟨filename, function, hname, hfunction, hdeclares⟩ := hstore.function_of_site hsite
  obtain ⟨file, hfile, hheld⟩ := function?_eq_some_iff.mp hfunction
  obtain ⟨found, hfound, hfilename⟩ := filename?_eq_some_iff.mp hname
  obtain rfl : file = found := Option.some.inj (hfile.symm.trans hfound)
  exact ⟨file, function, hfile, hheld, hfilename ▸ hdeclares⟩

/-- In every store there is, the files have distinct names, which the index of names leads to;
the sites are the keys of the functions, one each, and read as their declarations; code addresses
lead to functions that were compiled there; and no file and no history is empty. -/
theorem indexes_fit_files (operations : List Operation) :
    let store := after operations
    (store.files.map FileInsight.filename).Nodup ∧
    (∀ filename file, store.byFilename.get? filename = some file ↔
      ∃ insight, store.files[file]? = some insight ∧ insight.filename = filename) ∧
    (store.bySite.keys.Nodup ∧
      (∀ site ∈ store.bySite.keys, ∃ handle, store.bySite.get? site = some handle ∧
        (store.function? handle).isSome) ∧
      ∀ handle, (store.function? handle).isSome →
        ∃! site, store.bySite.get? site = some handle) ∧
    store.functionCount = (store.files.map fun file => file.functions.length).sum ∧
    (∀ site handle, store.bySite.get? site = some handle →
      ∃ file function, store.files[handle.file]? = some file ∧
        file.functions[handle.function]? = some function ∧
        ∀ name, Location.parse? name site =
          some ⟨name, file.filename, function.declaration.line, function.declaration.column,
            site⟩) ∧
    (∀ key handle, store.byAddress.get? key = some handle →
      ∃ function, store.function? handle = some function ∧
        ∃ event ∈ function.events, ∃ memory, event.kind = .compileEnd memory ∧
          normalizeAddress memory.start = key) ∧
    ∀ file ∈ store.files, file.functions ≠ [] ∧
      ∀ function ∈ file.functions, function.events ≠ [] := by
  intro store
  have hstore : store.Consistent := consistent_after operations
  refine ⟨hstore.nodup_filenames, ?_, ⟨hstore.sites_nodup, ?_, ?_⟩, hstore.count_eq, ?_, ?_, ?_⟩
  · intro filename file
    rw [hstore.filename_iff, filename?_eq_some_iff]
  · intro site hsite
    obtain ⟨handle, hhandle⟩ :=
      Option.isSome_iff_exists.mp ((Index.isSome_get?_iff store.bySite site).mpr hsite)
    obtain ⟨_, function, _, hfunction, _⟩ := hstore.function_of_site hhandle
    exact ⟨handle, hhandle, by simp [hfunction]⟩
  · intro handle hfunction
    exact hstore.existsUnique_site hfunction
  · intro site handle hsite
    exact hstore.declaration_of_site hsite
  · intro key handle haddress
    exact hstore.compiled_of_address haddress
  · intro file hfile
    exact ⟨hstore.functions_nonempty hfile,
      fun function hfunction => hstore.history_nonempty hfile hfunction⟩

end Store

end JitTrace
