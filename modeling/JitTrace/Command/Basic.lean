import JitTrace.Code.Rename
import JitTrace.Instrument
import JitTrace.Report.File
import JitTrace.Session
import JitTrace.Store.Selection

/-! # Commands

What the program can be told to do, and why a command fails. A fault that happened on behalf of a
command is kept as the cause of the command's own.
-/

namespace JitTrace

/-- How an analysis is shown. -/
structure AnalyzeOptions where
  /-- The only file to summarize. -/
  file : Option String
  /-- The path of the report to write. -/
  output : Option String
  /-- No summary is printed. -/
  quiet : Bool
  deriving DecidableEq, Repr

/-- How the history of a function is shown. -/
structure HistoryOptions where
  function : Selector
  json : Bool
  deriving DecidableEq, Repr

/-- How the code of a function is shown. -/
structure CodeOptions where
  function : Selector
  /-- Lines are printed as they are logged. -/
  raw : Bool
  renames : List Rename
  deriving DecidableEq, Repr

/-- What the program can be told to do. -/
inductive Command where
  | instrument (command : String)
  | analyze (options : AnalyzeOptions)
  | history (options : HistoryOptions)
  | code (options : CodeOptions)
  | validate (file : String)
  | clean
  | version
  deriving DecidableEq, Repr

/-- Why a command fails. -/
inductive CommandFault where
  | configuration (fault : LoadFault)
  | instrument (fault : InstrumentFault)
  | folder (path : String) (cause : IoFault)
  | removal (path : String) (cause : IoFault)
  | analysis (cause : TraceFault)
  | selection (fault : SelectionFault)
  | neverCompiled (function : String)
  | code (cause : TraceFault)
  | codeMissing (address : String)
  | report (cause : ReportFault)
  | unreadableReport (fault : ReportFault)
  deriving DecidableEq, Repr

/-- The wording of a fault, without its cause. -/
def CommandFault.message : CommandFault → String
  | .configuration fault => fault.message
  | .instrument fault => fault.message
  | .folder path _ => s!"Failed to create insights folder {path}"
  | .removal path _ => s!"Failed to remove {path}"
  | .analysis _ => "Failed to analyze event log"
  | .selection fault => fault.message
  | .neverCompiled function => s!"Failed to find compiled code for function {function}"
  | .code _ => "Failed to read optimized code"
  | .codeMissing address => s!"No optimized code logged at {address}"
  | .report _ => "Failed to write insight report"
  | .unreadableReport fault => fault.message

/-- The wording of the cause of a fault. -/
def CommandFault.causeMessage? : CommandFault → Option String
  | .configuration fault => some fault.cause.message
  | .folder _ cause => some cause.message
  | .removal _ cause => some cause.message
  | .analysis cause => some cause.message
  | .code cause => some cause.message
  | .report cause => some cause.message
  | .instrument _ => none
  | .selection _ => none
  | .neverCompiled _ => none
  | .codeMissing _ => none
  | .unreadableReport _ => none

/-- What is shown about a fault: its wording, and its cause below an empty line. -/
def CommandFault.notice (fault : CommandFault) : String :=
  let cause := fault.causeMessage?.map fun cause => s!"\nCaused by:\n    {cause}\n"
  s!"Error: {fault.message}\n" ++ cause.getD ""

end JitTrace
