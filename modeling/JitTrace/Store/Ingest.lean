import JitTrace.Store.Basic
import JitTrace.Stream.LineReader

/-! # Reading an event log

The lines of an event log applied to a store, one after another. The first fault ends the reading:
what was applied before stays applied, and the counts are given up.
-/

namespace JitTrace

/-- Counts of one pass over an event log. -/
structure IngestStats where
  lines : Nat
  /-- Records attached to a function. -/
  records : Nat
  /-- Records of thrown away code that was never seen compiling. -/
  unresolvedDeopts : Nat
  deriving DecidableEq, Repr

/-- A pass over an event log so far. -/
structure Ingestion where
  store : Store
  stats : IngestStats
  /-- The messages so far, the latest first. -/
  remarks : List Message
  deriving DecidableEq, Repr

namespace Ingestion

/-- A pass that starts with a store. -/
def ofStore (store : Store) : Ingestion :=
  ⟨store, ⟨0, 0, 0⟩, []⟩

/-- Counts what became of a record. -/
def count (stats : IngestStats) : Outcome → IngestStats
  | .recorded => { stats with records := stats.records + 1 }
  | .ignored => stats
  | .unresolvedDeopt => { stats with unresolvedDeopts := stats.unresolvedDeopts + 1 }

/-- Applies one line. -/
def addLine (state : Ingestion) (line : String) : Ingestion :=
  let stats := { state.stats with lines := state.stats.lines + 1 }
  match Record.parse? line with
  | none => { state with stats }
  | some record =>
    let (outcome, store) := state.store.apply record
    { store
      stats := count stats outcome
      remarks := (state.store.remarks record).reverse ++ state.remarks }

/-- Applies lines up to the first fault, which is given with the pass so far. -/
def addItems (state : Ingestion) : List LineItem → Option IoFault × Ingestion
  | [] => (none, state)
  | .ok line :: rest => (state.addLine line).addItems rest
  | .error fault :: _ => (some fault, state)

/-- The message at the end of a pass. -/
def summary (stats : IngestStats) : Message :=
  .debug <| s!"Ingested {stats.lines} lines: {stats.records} records, " ++
    s!"{stats.unresolvedDeopts} unresolved deopts"

end Ingestion

/-- What reading an event log leaves behind. -/
structure IngestResult where
  /-- The counts, or the fault that ended the reading. -/
  stats : Except IoFault IngestStats
  store : Store
  remarks : List Message

/-- Reads an event log into a store, which is not cleared. -/
def Store.ingest (store : Store) (chunk : Nat) (stream : Stream) : IngestResult :=
  match (Ingestion.ofStore store).addItems (stream.lines chunk) with
  | (none, state) =>
    ⟨.ok state.stats, state.store, (Ingestion.summary state.stats :: state.remarks).reverse⟩
  | (some fault, state) => ⟨.error fault, state.store, state.remarks.reverse⟩

end JitTrace
