import JitTrace.Command.Basic
import JitTrace.CommandLine.Switch

/-! # Invocations

A command line as a whole: options that any command takes, the name of a command, and its own
options. The general options may stand in front of the name and behind it; one behind it counts
before one in front, and both before the folder that the environment names. The environment is
looked at wherever the folder is not given, and the empty folder is refused there as well.
-/

namespace JitTrace

/-- What the program is asked to do. -/
structure Invocation where
  /-- The configuration file. -/
  config : Option String
  /-- The folder of the logs. -/
  folder : Option String
  verbose : Bool
  command : Command
  deriving DecidableEq, Repr

namespace CommandLine

/-- The options of any command. -/
def generalSwitches : List Switch :=
  [⟨some 'd', "dir", .value Draft.setFolder⟩,
   ⟨some 'c', "config", .value Draft.setConfig⟩,
   ⟨some 'v', "verbose", .flag Draft.setVerbose⟩,
   ⟨some 'h', "help", .flag fun _ => .error .help⟩]

/-- The options in front of the name of a command. -/
def frontSwitches : List Switch :=
  ⟨some 'V', "version", .flag fun _ => .error .version⟩ :: generalSwitches

/-- The form of a command. -/
structure Form where
  name : String
  switches : List Switch
  rule : WordRule
  /-- The command that a draft describes, if the draft is complete. -/
  command? : Draft → Option Command

/-- The function that a draft picks. -/
def selector? (draft : Draft) : Option Selector := do
  return ⟨← draft.file, ← draft.line⟩

/-- The options that pick a function. -/
def selectorSwitches : List Switch :=
  [⟨some 'f', "file", .value Draft.setFile⟩, ⟨some 'l', "line", .value Draft.setLine⟩]

/-- The forms of all commands. -/
def forms : List Form :=
  [{ name := "instrument"
     switches := []
     rule := .takes
     command? := fun draft => draft.word.map .instrument },
   { name := "analyze"
     switches :=
       [⟨some 'f', "file", .value Draft.setFile⟩,
        ⟨some 'o', "output", .value Draft.setOutput⟩,
        ⟨none, "quiet", .flag Draft.setQuiet⟩]
     rule := .refuses
     command? := fun draft => some (.analyze ⟨draft.file, draft.output, draft.quiet.isSome⟩) },
   { name := "history"
     switches := selectorSwitches ++ [⟨none, "json", .flag Draft.setJson⟩]
     rule := .refuses
     command? := fun draft => do
       return .history ⟨← selector? draft, draft.json.isSome⟩ },
   { name := "code"
     switches := selectorSwitches ++
       [⟨none, "raw", .flag Draft.setRaw⟩, ⟨none, "rename", .value Draft.addRename⟩]
     rule := .refuses
     command? := fun draft => do
       return .code ⟨← selector? draft, draft.raw.isSome, draft.renames⟩ },
   { name := "validate"
     switches := [⟨some 'f', "file", .value Draft.setInput⟩]
     rule := .refuses
     command? := fun draft => draft.file.map .validate },
   { name := "clean", switches := [], rule := .refuses, command? := fun _ => some .clean },
   { name := "version", switches := [], rule := .refuses, command? := fun _ => some .version }]

/-- The word that asks for help on a command. -/
def helpName : String := "help"

/-- Answers a request for help on a command, or on help itself. There is help on one command at a
time. -/
def readHelp : List String → Stop
  | [] => .help
  | [name] =>
    if name = helpName || forms.any (fun form => form.name = name) then .help else .refused
  | _ => .refused

/-- Checks the folder of the environment, if a level does not give one. -/
def checkEnvironment (environment : Option String) (draft : Draft) : Except Stop Unit :=
  if draft.folder.isNone && environment = some "" then .error .refused else .ok ()

end CommandLine

open CommandLine

/-- Reads a command line. The environment may name the folder of the logs. -/
def Invocation.read (environment : Option String) (arguments : List String) :
    Except Stop Invocation := do
  let (front, rest) ← readLevel frontSwitches .ends (.blank, none) arguments
  match rest with
  | [] => .error .refused
  | name :: rest =>
    if name = helpName then .error (readHelp rest)
    else
      match forms.find? fun form => form.name = name with
      | none => .error .refused
      | some form =>
        let (back, _) ← readLevel (form.switches ++ generalSwitches) form.rule (.blank, none) rest
        checkEnvironment environment front
        checkEnvironment environment back
        match form.command? back with
        | none => .error .refused
        | some command =>
          return {
            config := back.config <|> front.config
            folder := back.folder <|> front.folder <|> environment
            verbose := back.verbose.isSome || front.verbose.isSome
            command }

end JitTrace
