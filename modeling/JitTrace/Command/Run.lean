import JitTrace.Command.Basic
import JitTrace.Terminal.Render

/-! # Running commands

Each command as an action on a file system with a transcript. The colours of the output and the
time that a report bears are given from outside.
-/

namespace JitTrace

/-- What a command takes from its surroundings. -/
structure Surroundings where
  palette : Palette
  /-- The time at which a report counts as made. -/
  time : String

/-- The version of the program. -/
def programVersion : String := "0.1.0"

namespace Command

variable {m : Type → Type} [Monad m] [FileSystem m] [MonadStateOf Transcript m]

/-! ## Analysis -/

/-- A session that has analysed the configured event log, and the counts of the analysis. -/
def analyzed (config : Config) : ExceptT CommandFault m (IngestStats × Session Unit) := do
  let answer ← (Session.start config ()).analyze
  let stats ← require .analysis answer.result
  return (stats, answer.session)

/-- Prints the summary of a file, or of all files. -/
def printSummary (palette : Palette) (session : Session Unit) : Option String → m Unit
  | some file => do
    match ← session.insights file with
    | some insights => printLine (insights.render palette)
    | none => remark (.warning s!"No insights for file '{file}'")
  | none =>
    session.store.files.forM fun insights => printLine (insights.render palette)

/-- Writes the report of an analysis to a path. -/
def writeReport (time : String) (session : Session Unit) (path : String) :
    ExceptT CommandFault m Unit := do
  let report := session.store.toReport session.config.eventLogPath time
  (report.write path).adapt .report
  remark (.info s!"✓ Report written to: {path}")

/-- Analyses the event log, summarizes every function and writes a report. -/
def runAnalyze (surroundings : Surroundings) (config : Config) (options : AnalyzeOptions) :
    ExceptT CommandFault m Unit := do
  let (stats, session) ← analyzed config
  if stats.unresolvedDeopts > 0 then
    remark (.info s!"{stats.unresolvedDeopts} deopts referenced code not seen compiling")
  unless options.quiet do
    printSummary surroundings.palette session options.file
  if let some path := options.output then
    writeReport surroundings.time session path

/-! ## One function -/

/-- Prints the history of a function. -/
def runHistory (surroundings : Surroundings) (config : Config) (options : HistoryOptions) :
    ExceptT CommandFault m Unit := do
  let (_, session) ← analyzed config
  let function ← require .selection (session.store.select options.function)
  if options.json then printLine function.historyJson
  else print (function.renderHistory surroundings.palette)

/-- The message about a request to rename a label. -/
def renameRemark (rename : Rename) : Option String → Message
  | some previous => .info s!"Renamed {previous} to {rename.name}"
  | none => .warning s!"No label on output line {rename.line}"

/-- Carries out requests to rename labels of a document. -/
def renameAll (context : String) (session : Session Unit) :
    List Rename → List Message × Session Unit
  | [] => ([], session)
  | rename :: rest =>
    let (previous, session) := session.rename context rename.position rename.name
    let (remarks, session) := renameAll context session rest
    (renameRemark rename previous :: remarks, session)

/-- Renders a block under a fresh count of the jumps, so that all its lines show the new
names. -/
def renderRenamed (session : Session Unit) (context : String) (lines : List String)
    (renames : List Rename) : List Message × String :=
  let (remarks, session) := renameAll context session renames
  let (text, _) := (session.resetStatistics context).decompile lines context
  (remarks ++ [Block.rangeRemark lines], text)

/-- Prints a block with labels, renamed as requested. -/
def printLabelled (palette : Palette) (session : Session Unit) (address : String)
    (lines : List String) (renames : List Rename) : m Unit := do
  let context := Session.codeContext address
  let (text, session) := session.decompile lines context
  remark (Block.rangeRemark lines)
  if renames.isEmpty then printLine (renderCode palette text)
  else
    let (remarks, text) := renderRenamed session context lines renames
    remarkAll remarks
    printLine (renderCode palette text)

/-- Prints the code that the last compilation of a function produced. -/
def runCode (surroundings : Surroundings) (config : Config) (options : CodeOptions) :
    ExceptT CommandFault m Unit := do
  let (_, session) ← analyzed config
  let function ← require .selection (session.store.select options.function)
  let some memory := function.lastCompiledCode? | throw (.neverCompiled function.name)
  unless function.hasCompiledCode do
    remark (.warning s!"{function.name} was deoptimized, showing its last optimized code")
  remark (.info s!"Showing code of {function.name} at {memory.start}")
  let lines ← require .code (← session.optimizedCode memory.start).result
  if lines.isEmpty then throw (.codeMissing memory.start)
  if options.raw then printLine (Text.joinLines lines)
  else printLabelled surroundings.palette session memory.start lines options.renames

/-! ## The folder of the logs -/

/-- Prints an instrumented command and makes the folder of the logs. -/
def runInstrument (config : Config) (command : String) : ExceptT CommandFault m Unit := do
  let enriched ← require .instrument (config.instrument command)
  remark (.debug s!"Command '{command}' enriched as '{enriched}'")
  require (.folder config.insightsDir) (← FileSystem.createDirectories config.insightsDir)
  remark (.info s!"Prepared insights folder at '{config.insightsDir}'")
  printLine enriched

/-- Removes the folder of the logs. -/
def runClean (config : Config) : ExceptT CommandFault m Unit := do
  let folder := config.insightsDir
  if ← pathExists folder then
    require (.removal folder) (← FileSystem.removeDirectory folder)
    remark (.info s!"Successfully cleaned up the V8 insight traces in {folder}")
  else remark (.info s!"Nothing to clean at {folder}")

/-! ## Reports and version -/

/-- Reads a report and prints what it counts. -/
def runValidate (file : String) : ExceptT CommandFault m Unit := do
  printLine s!"Validating report: {file}"
  let report ← (Report.load file).adapt .unreadableReport
  printLine "✓ Valid report JSON"
  printLine s!"  Version: {report.version}"
  printLine s!"  Event log: {report.eventLog}"
  printLine s!"  Files: {report.files.length}"
  printLine s!"  Functions: {report.functionCount}"
  printLine s!"  Deoptimized: {report.deoptimizedCount}"

/-- Prints the version. -/
def runVersion : m Unit := do
  printLine s!"V8 Insights v{programVersion}"
  printLine s!"Report Schema: v{Report.formVersion}"
  printLine ""
  printLine "Compilation and deoptimization insights from V8 trace logs."

/-- Runs a command. -/
def run (surroundings : Surroundings) (config : Config) :
    Command → ExceptT CommandFault m Unit
  | .instrument command => runInstrument config command
  | .analyze options => runAnalyze surroundings config options
  | .history options => runHistory surroundings config options
  | .code options => runCode surroundings config options
  | .validate file => runValidate file
  | .clean => runClean config
  | .version => runVersion

end Command

end JitTrace
