import JitTrace.Path
import JitTrace.Report.Read
import JitTrace.Report.Write
import JitTrace.Transcript

/-! # Report files

Writing a report to a path and reading it again. The path is checked first, and the directories
above it are made as far as they are missing.
-/

namespace JitTrace

/-- Why a path is no place for a report. -/
inductive PathFault where
  | empty
  | directory (path : String)
  /-- The directory above the path cannot be made. -/
  | noFolder (folder : String) (fault : IoFault)
  deriving DecidableEq, Repr

/-- The wording of a fault. -/
def PathFault.message : PathFault → String
  | .empty => "Path is empty"
  | .directory path => s!"Path is a directory: {path}"
  | .noFolder folder fault => s!"Cannot create directory {folder}: {fault.message}"

/-- Why a report is not written or read. -/
inductive ReportFault where
  /-- The file cannot be opened, be it for writing or for reading. -/
  | unopened (fault : IoFault)
  | json (fault : Json.Fault)
  | path (fault : PathFault)
  deriving DecidableEq, Repr

/-- The wording of a fault. What exactly is wrong with the form of a file is not told. -/
def ReportFault.message : ReportFault → String
  | .unopened fault => s!"Failed to write file: {fault.message}"
  | .json (.unreadable fault) => s!"Failed to serialize JSON: {fault.message}"
  | .json _ => "Failed to serialize JSON"
  | .path fault => s!"Invalid output path: {fault.message}"

namespace Report

variable {m : Type → Type} [Monad m] [FileSystem m]

/-- Checks that a path is a place for a report. -/
def checkPath (path : String) : m (Except PathFault Unit) := do
  if path.isEmpty then return .error .empty
  else if (← FileSystem.kind? path) = some .directory then return .error (.directory path)
  else return .ok ()

variable [MonadStateOf Transcript m]

/-- Makes the directories above a path, if they are missing. -/
def prepareFolder (path : String) : m (Except PathFault Unit) := do
  match Path.parent? path with
  | none => return .ok ()
  | some folder =>
    if folder.isEmpty || (← pathExists folder) then return .ok ()
    else
      remark (.debug s!"Creating parent directories: {folder}")
      return (← FileSystem.createDirectories folder).mapError (PathFault.noFolder folder)

/-- Writes a report to a path. -/
def write (report : Report) (path : String) : ExceptT ReportFault m Unit := do
  remark (.info s!"Writing report to: {path}")
  require .path (← checkPath path)
  require .path (← prepareFolder path)
  require .unopened (← FileSystem.writeFile path report.text)

/-- The report in a stream. -/
def ofStream (stream : Stream) : Except ReportFault Report :=
  match stream.readAll with
  | .error fault => .error (.json (.unreadable fault))
  | .ok bytes => (Report.read (Utf8.symbols bytes)).mapError .json

/-- Reads a report from a path. -/
def load (path : String) : ExceptT ReportFault m Report := do
  remark (.debug s!"Reading report from: {path}")
  let stream ← require .unopened (← FileSystem.openFile path)
  let report ← require id (ofStream stream)
  remark (.debug s!"Report loaded: version {report.version}, {report.functionCount} functions")
  return report

end Report

end JitTrace
