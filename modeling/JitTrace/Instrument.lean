import JitTrace.Config
import JitTrace.Text.Blank
import JitTrace.Text.Split

/-! # Instrumented commands

The engine writes both logs only when it is started with the right flags. Here a command that
starts a program gets them: behind the flags it has, and in front of the script, which is its last
word. The paths of the logs are those that an analysis opens.
-/

namespace JitTrace

/-- Why a command cannot be instrumented. -/
inductive InstrumentFault where
  | empty
  | notNode (program : String)
  | noScript
  deriving DecidableEq, Repr

/-- The wording of a fault. -/
def InstrumentFault.message : InstrumentFault → String
  | .empty => "Command cannot be empty"
  | .notNode program => s!"Expected a node command, found '{program}'"
  | .noScript => "Command must name a script to run"

namespace Config

/-- The flags that make the engine write both logs, and one that eases looking into it. -/
def instrumentation (config : Config) : List String :=
  ["--no-logfile-per-isolate",
   "--allow-natives-syntax",
   "--trace-ic",
   "--print-opt-code",
   "--redirect-code-traces",
   s!"--redirect-code-traces-to={config.optCodeLogPath}",
   s!"--logfile={config.eventLogPath}"]

/-- The words of an instrumented command. -/
def instrumentWords (config : Config) : List String → Except InstrumentFault (List String)
  | [] => .error .empty
  | program :: rest =>
    if !Text.endsWith program "node" then .error (.notNode program)
    else
      match rest.getLast? with
      | none => .error .noScript
      | some script => .ok (program :: (rest.dropLast ++ config.instrumentation ++ [script]))

/-- The command with the flags added, its words one space apart. -/
def instrument (config : Config) (command : String) : Except InstrumentFault String :=
  (config.instrumentWords (Text.words command)).map fun words => " ".intercalate words

end Config

end JitTrace
