import JitTrace.Store.Basic

/-! # Reports

A snapshot of the insights of a run, as it is kept in a file.
-/

namespace JitTrace

/-- A snapshot of a run. -/
structure Report where
  version : String
  /-- The event log the insights come from. -/
  eventLog : String
  functionCount : Nat
  /-- The number of functions that lost optimized code. -/
  deoptimizedCount : Nat
  files : List FileInsight
  /-- When the report was made. -/
  generatedAt : String
  deriving DecidableEq, Repr

/-- The version of the report's form. -/
def Report.formVersion : String := "1.0.0"

/-- The number of functions that lost optimized code. -/
def Store.deoptimizedCount (store : Store) : Nat :=
  (store.files.flatMap FileInsight.functions).countP FunctionInsight.wasDeoptimized

/-- The snapshot of a store. -/
def Store.toReport (store : Store) (eventLog generatedAt : String) : Report where
  version := Report.formVersion
  eventLog := eventLog
  functionCount := store.functionCount
  deoptimizedCount := store.deoptimizedCount
  files := store.files
  generatedAt := generatedAt

end JitTrace
