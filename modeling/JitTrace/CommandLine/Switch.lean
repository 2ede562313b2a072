import JitTrace.CommandLine.Draft

/-! # Options of a command line

How options are written and read. An option has a long name behind two hyphens and perhaps a
letter behind one. Letters may share a hyphen. A value follows as the next argument, behind an
equals sign, or directly behind a letter; what starts with a hyphen is never the next argument's
value, a lone hyphen apart. Two hyphens alone end the options.
-/

namespace JitTrace.CommandLine

/-- What an option does. -/
inductive Effect where
  | flag (set : Draft → Except Stop Draft)
  | value (set : String → Draft → Except Stop Draft)

/-- An option. -/
structure Switch where
  short : Option Char
  long : String
  effect : Effect

/-- The forms of an argument. -/
inductive Argument where
  /-- Two hyphens alone. -/
  | separator
  /-- A long name, and a value behind an equals sign. -/
  | long (name : String) (value : Option String)
  /-- Letters behind one hyphen. -/
  | short (letters : List Char)
  | word

/-- The form of an argument. -/
def Argument.ofText (text : String) : Argument :=
  match text.toList with
  | ['-', '-'] => .separator
  | '-' :: '-' :: name =>
    match Text.splitFirst '=' (String.ofList name) with
    | some (name, value) => .long name (some value)
    | none => .long (String.ofList name) none
  | ['-'] => .word
  | '-' :: letters => .short letters
  | _ => .word

/-- How a level of a command line treats words that belong to no option. -/
inductive WordRule where
  /-- The first one ends the level. -/
  | ends
  /-- One is taken. -/
  | takes
  /-- None may come. -/
  | refuses
  deriving DecidableEq, Repr

/-- A draft, and how the value that is still to come is set. -/
abbrev Step := Draft × Option (String → Draft → Except Stop Draft)

/-- Reads an option with a long name. -/
def readLong (switches : List Switch) (name : String) (value : Option String) (draft : Draft) :
    Except Stop Step := do
  match switches.find? (fun switch => switch.long = name), value with
  | none, _ => .error .refused
  | some { effect := .flag set, .. }, none => return (← set draft, none)
  | some { effect := .flag _, .. }, some _ => .error .refused
  | some { effect := .value set, .. }, none => return (draft, some set)
  | some { effect := .value set, .. }, some value => return (← set value draft, none)

/-- Reads letters behind one hyphen. -/
def readLetters (switches : List Switch) (draft : Draft) : List Char → Except Stop Step
  | [] => return (draft, none)
  | letter :: rest =>
    match switches.find? (fun switch => switch.short = some letter) with
    | none => .error .refused
    | some { effect := .flag set, .. } => do readLetters switches (← set draft) rest
    | some { effect := .value set, .. } =>
      match rest with
      | [] => return (draft, some set)
      | '=' :: value => return (← set (String.ofList value) draft, none)
      | value => return (← set (String.ofList value) draft, none)

/-- Takes a word that belongs to no option. -/
def takeWord (rule : WordRule) (draft : Draft) (word : String) : Except Stop Draft :=
  match rule with
  | .takes => draft.setWord word
  | _ => .error .refused

/-- Reads the arguments of a level, and gives those behind its end. -/
def readLevel (switches : List Switch) (rule : WordRule) (step : Step) :
    List String → Except Stop (Draft × List String)
  | [] =>
    match step with
    | (draft, none) => .ok (draft, [])
    | (_, some _) => .error .refused
  | argument :: rest =>
    match Argument.ofText argument, step with
    | .word, (draft, some set) => do readLevel switches rule (← set argument draft, none) rest
    | .word, (draft, none) =>
      if rule = .ends then .ok (draft, argument :: rest)
      else do readLevel switches rule (← takeWord rule draft argument, none) rest
    | _, (_, some _) => .error .refused
    | .separator, (draft, none) => do return (← rest.foldlM (takeWord rule) draft, [])
    | .long name value, (draft, none) => do
      readLevel switches rule (← readLong switches name value draft) rest
    | .short letters, (draft, none) => do
      readLevel switches rule (← readLetters switches draft letters) rest

end JitTrace.CommandLine
