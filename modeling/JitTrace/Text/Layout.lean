/-! # Laying out text

Padding to a width counted in characters, joining lines, and cutting a text into its lines. A
line ends at a newline, and a carriage return directly before that newline belongs to the end;
what follows the last newline is a line only when it is not empty.
-/

namespace JitTrace.Text

/-- The text with spaces in front, up to `width` characters. -/
def padLeft (width : Nat) (text : String) : String :=
  String.ofList (List.replicate (width - text.length) ' ') ++ text

/-- The text with spaces behind, up to `width` characters. -/
def padRight (width : Nat) (text : String) : String :=
  text ++ String.ofList (List.replicate (width - text.length) ' ')

/-- Lines joined by newlines, without one at the end. -/
def joinLines (lines : List String) : String :=
  "\n".intercalate lines

/-- A line without the carriage return it ends with. -/
def dropReturn (line : List Char) : List Char :=
  if line.getLast? = some '\r' then line.dropLast else line

/-- The lines of a text given as the pieces between its newlines. -/
def linesOfPieces : List (List Char) → List (List Char)
  | [] => []
  | [last] => if last.isEmpty then [] else [last]
  | piece :: rest => dropReturn piece :: linesOfPieces rest

/-- The lines of a text. -/
def lines (text : String) : List String :=
  (linesOfPieces (text.toList.splitOn '\n')).map String.ofList

end JitTrace.Text
