import JitTrace.Index
import JitTrace.Insight.Basic
import JitTrace.Journal
import JitTrace.Record

/-! # The insight store

The insights of all files of a run. Every function is kept in the list of its file, and nowhere
else: the indexes by file name, by declaration site and by code address hold positions in these
lists, so a function that is found through any of them is the same one. Lists only grow at their
ends, which keeps positions valid.
-/

namespace JitTrace

/-- A position in the files of a store. -/
structure Handle where
  file : Nat
  function : Nat
  deriving DecidableEq, Repr

/-- The insights of all files, in the order in which the log names them first. -/
structure Store where
  files : List FileInsight
  byFilename : Index Nat
  bySite : Index Handle
  byAddress : Index Handle
  deriving DecidableEq, Repr

/-- What became of a record. -/
inductive Outcome where
  /-- An event was appended to a function. -/
  | recorded
  /-- The declaration site could not be read. -/
  | ignored
  /-- Code was thrown away that was never seen compiling. -/
  | unresolvedDeopt
  deriving DecidableEq, Repr

namespace Store

/-- The store without insights. -/
def empty : Store := ⟨[], ∅, ∅, ∅⟩

instance : EmptyCollection Store := ⟨empty⟩

instance : Inhabited Store := ⟨empty⟩

def isEmpty (store : Store) : Bool :=
  store.files.isEmpty

/-- The number of declaration sites seen. -/
def functionCount (store : Store) : Nat :=
  store.bySite.size

/-- The insights of a file. -/
def file? (store : Store) (filename : String) : Option FileInsight := do
  store.files[← store.byFilename.get? filename]?

/-- The function at a position. -/
def function? (store : Store) (handle : Handle) : Option FunctionInsight := do
  (← store.files[handle.file]?).functions[handle.function]?

/-- The function declared at a site. -/
def functionAtSite? (store : Store) (site : String) : Option FunctionInsight := do
  store.function? (← store.bySite.get? site)

/-- The function whose optimized code starts at an address. -/
def functionAtAddress? (store : Store) (address : String) : Option FunctionInsight := do
  store.function? (← store.byAddress.get? (normalizeAddress address))

/-- The store with the function at a position changed. -/
def modify (store : Store) (handle : Handle) (change : FunctionInsight → FunctionInsight) :
    Store :=
  { store with
    files := store.files.modify handle.file fun file =>
      { file with functions := file.functions.modify handle.function change } }

/-- The position of a file, which is appended if it is new. -/
def ensureFile (store : Store) (filename : String) : Nat × Store :=
  match store.byFilename.get? filename with
  | some file => (file, store)
  | none =>
    (store.files.length,
      { store with
        files := store.files ++ [⟨filename, []⟩]
        byFilename := store.byFilename.insert filename store.files.length })

/-- The number of functions in the file at a position. -/
def fileSize (store : Store) (file : Nat) : Nat :=
  match store.files[file]? with
  | some insight => insight.functions.length
  | none => 0

/-- Appends a function to its file, and finds it by its site from now on. -/
def register (store : Store) (location : Location) : Handle × Store :=
  let (file, store) := store.ensureFile location.filename
  let handle : Handle := ⟨file, store.fileSize file⟩
  (handle,
    { store with
      files := store.files.modify file fun insight =>
        { insight with functions := insight.functions ++ [.ofLocation location] }
      bySite := store.bySite.insert location.key handle })

/-- The position of the function at a location. A function that is known takes the location's
name if it has none, and a new one is registered. -/
def locate (store : Store) (location : Location) : Handle × Store :=
  match store.bySite.get? location.key with
  | some handle => (handle, store.modify handle fun function => function.learnName location)
  | none => store.register location

/-- Attaches a code object to the function at a location. Optimized code is found by its address
from now on. -/
def recordCreation (store : Store) (creation : Creation) (time : UInt64) (memory : MemoryArea)
    (location : Location) : Store :=
  let (handle, store) := store.locate location
  let store := store.modify handle fun function => function.noteCreation creation time memory
  match creation with
  | .compileEnd => { store with byAddress := store.byAddress.insert memory.addressKey handle }
  | _ => store

/-- Attaches a record to its function. -/
def apply (store : Store) : Record → Outcome × Store
  | .creation creation time memory source =>
    match creation.locate? source with
    | none => (.ignored, store)
    | some location => (.recorded, store.recordCreation creation time memory location)
  | .deoptimization time address position reason =>
    match store.byAddress.get? (normalizeAddress address) with
    | none => (.unresolvedDeopt, store)
    | some handle =>
      (.recorded, store.modify handle fun function => function.deoptimize time reason position)

/-- The messages about a new function. -/
def registrationRemarks (store : Store) (location : Location) : List Message :=
  let newFile := s!"Registered insights for file '{location.filename}'"
  let newFunction :=
    s!"Registered insights for function '{location.filename}' -> '{location.name}'"
  match store.byFilename.get? location.filename with
  | some _ => [.debug newFunction]
  | none => [.debug newFile, .debug newFunction]

/-- The messages that go with applying a record to the store. -/
def remarks (store : Store) : Record → List Message
  | .creation creation _ _ source =>
    match creation.locate? source with
    | none => [.debug s!"Ignoring record with unparsable location '{source}'"]
    | some location =>
      match store.bySite.get? location.key with
      | some _ => []
      | none => store.registrationRemarks location
  | .deoptimization _ address _ _ =>
    match store.byAddress.get? (normalizeAddress address) with
    | none => [.debug s!"Skipping deopt of unknown code at {address}"]
    | some _ => []

end Store

end JitTrace
