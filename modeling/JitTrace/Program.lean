import JitTrace.Command.Run
import JitTrace.CommandLine.Invocation

/-! # The program

A run of the program from its command line to its end, as an action on a file system with a
transcript.
-/

namespace JitTrace

/-- How a run ends. -/
inductive Ending where
  | finished
  /-- The command line is refused, and nothing is done. -/
  | refused
  | failed (fault : CommandFault)
  deriving DecidableEq, Repr

/-- The code that the program hands back. -/
def Ending.code : Ending → UInt32
  | .finished => 0
  | .failed _ => 1
  | .refused => 2

/-- Checks a command before any log is read. -/
def Command.check : Command → Except SelectionFault Unit
  | .history options => options.function.validate
  | .code options => options.function.validate
  | _ => .ok ()

namespace Program

/-- How the program is called. -/
def usage : String :=
  "Usage: v8-insights [OPTIONS] <COMMAND>\n\n" ++
    "Commands: instrument, analyze, history, code, validate, clean, version, help\n\n" ++
    "Options: -d, --dir <DIR>; -c, --config <CONFIG>; -v, --verbose; -h, --help; -V, --version\n"

/-- Whether a command line asks for the messages of the lowest level, too. -/
def isVerbose (environment : Option String) (arguments : List String) : Bool :=
  match Invocation.read environment arguments with
  | .ok invocation => invocation.verbose
  | .error _ => false

variable {m : Type → Type} [Monad m] [FileSystem m] [MonadStateOf Transcript m]

/-- Does what an invocation asks for. -/
def perform (surroundings : Surroundings) (invocation : Invocation) :
    ExceptT CommandFault m Unit := do
  let config ← require .configuration (← Config.resolve invocation.config invocation.folder)
  require .selection invocation.command.check
  invocation.command.run surroundings config

/-- Runs the program. The environment may name the folder of the logs. -/
def run (surroundings : Surroundings) (environment : Option String) (arguments : List String) :
    m Ending := do
  match Invocation.read environment arguments with
  | .error .refused => return .refused
  | .error .help =>
    print usage
    return .finished
  | .error .version =>
    printLine s!"v8-insights {programVersion}"
    return .finished
  | .ok invocation =>
    match ← (perform surroundings invocation).run with
    | .ok () => return .finished
    | .error fault => return .failed fault

end Program

end JitTrace
