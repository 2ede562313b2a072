import JitTrace.Moment
import JitTrace.Program
import Std.Time.DateTime.Timestamp

/-! # The program on a real system

The file system, the clock, the terminal and the environment of a running process, as the program
takes them. Nothing is decided here.
-/

namespace JitTrace

/-- The fault of a failed operation on files. -/
def IoFault.ofError : IO.Error → IoFault
  | .noFileOrDirectory .. => .notFound
  | .alreadyExists .. => .alreadyExists
  | .inappropriateType _ code details =>
    if code = 20 then .notADirectory
    else if code = 21 then .isADirectory
    else .other details
  | error => .other (toString error)

/-- An operation on files with its fault as a value. -/
def attemptOnFiles {α : Type} (operation : IO α) : IO (Except IoFault α) := do
  try return .ok (← operation)
  catch error => return .error (IoFault.ofError error)

instance : FileSystem IO where
  kind? path := do
    match ← attemptOnFiles (IO.FS.realPath path) with
    | .error _ => return none
    | .ok found => return some (if ← found.isDir then .directory else .file)
  openFile path := do
    match ← attemptOnFiles (IO.FS.readBinFile path) with
    | .ok bytes => return .ok (.ofBytes bytes.toList)
    | .error .isADirectory => return .ok [.failure .isADirectory]
    | .error fault => return .error fault
  writeFile path text := attemptOnFiles (IO.FS.writeFile path text)
  createDirectories path := do
    if path.isEmpty then return .ok ()
    else attemptOnFiles (IO.FS.createDirAll path)
  removeDirectory path := attemptOnFiles (IO.FS.removeDirAll path)

/-- The present moment. -/
def Moment.now : IO Moment := do
  let stamp ← Std.Time.Timestamp.now
  let nanoseconds := stamp.toNanosecondsSinceUnixEpoch.val.toNat
  return ⟨nanoseconds / 1000000000, nanoseconds % 1000000000⟩

/-- The palette of the standard output. -/
def Palette.ofEnvironment : IO Palette := do
  let isTerminal ← (← IO.getStdout).isTty
  return .choose (← IO.getEnv "CLICOLOR_FORCE") (← IO.getEnv "NO_COLOR") (← IO.getEnv "CLICOLOR")
    isTerminal

/-- A message as a line of the log. -/
def Message.logLine (message : Message) : String :=
  match message.level with
  | .debug => s!"[DEBUG] {message.text}"
  | .info => s!"[INFO] {message.text}"
  | .warning => s!"[WARN] {message.text}"

/-- Shows how a run ended. -/
def Ending.announce : Ending → IO Unit
  | .finished => pure ()
  | .refused => IO.eprint Program.usage
  | .failed fault => IO.eprint fault.notice

end JitTrace

open JitTrace in
/-- Runs the program. The output goes to the standard output, messages and faults to the standard
error. -/
def main (arguments : List String) : IO UInt32 := do
  let folder ← IO.getEnv "V8_INSIGHTS_DIR"
  let surroundings : Surroundings := ⟨← Palette.ofEnvironment, (← Moment.now).text⟩
  let run : Recorded IO Ending := Program.run surroundings folder arguments
  let (ending, transcript) ← run.run .blank
  for message in transcript.messages do
    if message.level != .debug || Program.isVerbose folder arguments then
      IO.eprintln message.logLine
  IO.print transcript.output
  ending.announce
  return ending.code
