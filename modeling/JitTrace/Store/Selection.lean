import JitTrace.Store.Basic

/-! # Picking a function

A function is picked by its file and a line counted from one, as editors show it. The check of a
selector looks at the selector alone; looking it up takes line 0 for the first line.
-/

namespace JitTrace

/-- A function picked by the line of its declaration, counted from one. -/
structure Selector where
  file : String
  line : UInt32
  deriving DecidableEq, Repr

/-- Why a selector picks no function. -/
inductive SelectionFault where
  | emptyFile
  | lineZero
  | unknownFile (file : String)
  | unknownFunction (selector : Selector)
  deriving DecidableEq, Repr

/-- The wording of a fault. -/
def SelectionFault.message : SelectionFault → String
  | .emptyFile => "File cannot be empty"
  | .lineZero => "Line numbers start at 1"
  | .unknownFile file => s!"Unknown file {file}"
  | .unknownFunction selector => s!"Unknown function at {selector.file}:{selector.line}"

/-- Checks a selector before any log is read. -/
def Selector.validate (selector : Selector) : Except SelectionFault Unit :=
  if selector.file.isEmpty then .error .emptyFile
  else if selector.line = 0 then .error .lineZero
  else .ok ()

/-- The function that a selector picks: the first one of the file on that line. -/
def Store.select (store : Store) (selector : Selector) : Except SelectionFault FunctionInsight :=
  match store.file? selector.file with
  | none => .error (.unknownFile selector.file)
  | some file =>
    match file.functionAtLine? (Location.zeroBased selector.line) with
    | none => .error (.unknownFunction selector)
    | some function => .ok function

end JitTrace
