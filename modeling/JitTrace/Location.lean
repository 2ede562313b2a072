import JitTrace.Text.Blank
import JitTrace.Text.Decimal
import JitTrace.Text.Split

/-! # Declaration sites

Where a function is declared, as the engine prints it: `file://<path>:<line>:<column>`, with a
function name and a space in front or, for unnamed functions, inside brackets. The two numbers are
found from the right, so a path may contain colons. Lines are kept zero-based and columns as
printed. The printed text without name and brackets is the key of the site.
-/

namespace JitTrace

/-- A declaration site. -/
structure Location where
  name : String
  filename : String
  line : UInt32
  column : UInt32
  key : String
  deriving DecidableEq, Repr

namespace Location

/-- The name of a function that is logged without one. -/
def unknownName : String := "unknown"

/-- The scheme in front of a path. -/
def fileScheme : String := "file://"

/-- The characters that may open a location. -/
def openingBrackets : List Char := ['<', '(', '[']

/-- The characters that may close a location. -/
def closingBrackets : List Char := ['>', ')', ']']

/-- Whether the engine logged a name. -/
def isNamed (location : Location) : Bool :=
  location.name != unknownName

/-- The characters without one opening bracket in front. -/
def dropOpening : List Char → List Char
  | [] => []
  | char :: rest => if char ∈ openingBrackets then rest else char :: rest

/-- The characters without one closing bracket at the end. -/
def dropClosing (chars : List Char) : List Char :=
  match chars.getLast? with
  | some char => if char ∈ closingBrackets then chars.dropLast else chars
  | none => chars

/-- The text without one bracket at each end; the two need not match. -/
def stripBrackets (text : String) : String :=
  String.ofList (dropClosing (dropOpening text.toList))

/-- The zero-based line of a printed one. Line 0 is taken for the first. -/
def zeroBased (line : UInt32) : UInt32 :=
  if line = 0 then 0 else line - 1

/-- Reads a site whose name is known already. -/
def parse? (name site : String) : Option Location := do
  let path := (Text.afterStart? fileScheme site).getD site
  let (front, column) ← Text.splitLast ':' path
  let column ← Text.readUInt32? column
  let (filename, line) ← Text.splitLast ':' front
  let line ← Text.readUInt32? line
  return { name, filename, line := zeroBased line, column, key := site }

/-- Reads a site with a name in front. The name ends at the first space, and an empty one counts
as unknown. -/
def ofNamed? (source : String) : Option Location := do
  let (name, site) ← Text.splitFirst ' ' source
  parse? (if name.isEmpty then unknownName else name) site

/-- Reads a site without a name, between blanks and in brackets or not. -/
def ofUnnamed? (source : String) : Option Location :=
  parse? unknownName (stripBrackets (Text.trim source))

end Location

end JitTrace
