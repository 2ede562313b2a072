import JitTrace.Code.Rename

/-! # Drafts of a command

What the words of a command line have set so far. Every setting may be made once, the requests to
rename labels apart. A value is checked when it is set: paths are not empty, and lines and
requests can be read.
-/

namespace JitTrace.CommandLine

/-- Why the reading of a command line ends before its end. -/
inductive Stop where
  /-- The command line is refused. -/
  | refused
  /-- Help is asked for. -/
  | help
  /-- The version is asked for. -/
  | version
  deriving DecidableEq, Repr

/-- What is set so far. -/
structure Draft where
  /-- The folder of the logs. -/
  folder : Option String
  /-- The configuration file. -/
  config : Option String
  verbose : Option Unit
  file : Option String
  output : Option String
  quiet : Option Unit
  line : Option UInt32
  json : Option Unit
  raw : Option Unit
  renames : List Rename
  /-- The word that belongs to no option. -/
  word : Option String
  deriving DecidableEq, Repr

namespace Draft

/-- Nothing is set. -/
def blank : Draft :=
  ⟨none, none, none, none, none, none, none, none, none, [], none⟩

/-- A setting made for the first time. -/
def once {α : Type} (before : Option α) (value : Except Stop α) : Except Stop (Option α) :=
  match before with
  | none => value.map some
  | some _ => .error .refused

/-- A path as a value. -/
def path (text : String) : Except Stop String :=
  if text.isEmpty then .error .refused else .ok text

/-- A line number as a value: a numeral with an optional sign that fits 32 bits. -/
def lineNumber (text : String) : Except Stop UInt32 :=
  let value :=
    match text.toList with
    | '-' :: digits =>
      if (digits.head? = some '+') then none
      else (Text.readNumeral 1 digits).toOption
    | chars => (Text.readNumeral UInt32.size chars).toOption
  match value with
  | some value => .ok (UInt32.ofNat value)
  | none => .error .refused

def setFolder (text : String) (draft : Draft) : Except Stop Draft := do
  return { draft with folder := ← once draft.folder (path text) }

def setConfig (text : String) (draft : Draft) : Except Stop Draft := do
  return { draft with config := ← once draft.config (path text) }

def setVerbose (draft : Draft) : Except Stop Draft := do
  return { draft with verbose := ← once draft.verbose (.ok ()) }

/-- Sets a file that a log names. Its name may be empty. -/
def setFile (text : String) (draft : Draft) : Except Stop Draft := do
  return { draft with file := ← once draft.file (.ok text) }

/-- Sets a file that is to be read. -/
def setInput (text : String) (draft : Draft) : Except Stop Draft := do
  return { draft with file := ← once draft.file (path text) }

def setOutput (text : String) (draft : Draft) : Except Stop Draft := do
  return { draft with output := ← once draft.output (path text) }

def setQuiet (draft : Draft) : Except Stop Draft := do
  return { draft with quiet := ← once draft.quiet (.ok ()) }

def setLine (text : String) (draft : Draft) : Except Stop Draft := do
  return { draft with line := ← once draft.line (lineNumber text) }

def setJson (draft : Draft) : Except Stop Draft := do
  return { draft with json := ← once draft.json (.ok ()) }

def setRaw (draft : Draft) : Except Stop Draft := do
  return { draft with raw := ← once draft.raw (.ok ()) }

def addRename (text : String) (draft : Draft) : Except Stop Draft :=
  match Rename.parse text with
  | .ok rename => .ok { draft with renames := draft.renames ++ [rename] }
  | .error _ => .error .refused

/-- Sets the word that belongs to no option. -/
def setWord (text : String) (draft : Draft) : Except Stop Draft := do
  return { draft with word := ← once draft.word (.ok text) }

end Draft

end JitTrace.CommandLine
