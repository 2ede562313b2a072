import JitTrace.Code.Label
import JitTrace.Text.Blank
import JitTrace.Text.Decimal
import JitTrace.Text.Split

/-! # Renaming labels

A request to rename the label on a printed line, written `LINE=NAME`. Printed lines count from
one, positions of labels from zero. Names may hold any text but blanks around it.
-/

namespace JitTrace

/-- A new name for the label on a printed line. -/
structure Rename where
  /-- The printed line, counted from one. -/
  line : Nat
  name : String
  deriving DecidableEq, Repr

/-- Why a text is no request to rename a label. -/
inductive RenameFault where
  | noSeparator (text : String)
  | line (text : String) (fault : Text.DecimalFault)
  | lineZero
  | emptyName
  deriving DecidableEq, Repr

/-- The wording of a fault. -/
def RenameFault.message : RenameFault → String
  | .noSeparator text => s!"expected LINE=NAME, got '{text}'"
  | .line text fault => s!"invalid line '{text}': {fault.message}"
  | .lineZero => "line numbers start at 1"
  | .emptyName => "label name cannot be empty"

namespace Rename

/-- Reads a request. The line has to fit 64 bits. -/
def parse (text : String) : Except RenameFault Rename :=
  match Text.splitFirst '=' text with
  | none => .error (.noSeparator text)
  | some (line, name) =>
    match Text.readDecimal UInt64.size (Text.trim line) with
    | .error fault => .error (.line line fault)
    | .ok 0 => .error .lineZero
    | .ok number =>
      if (Text.trim name).isEmpty then .error .emptyName
      else .ok ⟨number, Text.trim name⟩

/-- The position that the printed line stands for. -/
def position (rename : Rename) : Nat :=
  rename.line - 1

end Rename

end JitTrace
