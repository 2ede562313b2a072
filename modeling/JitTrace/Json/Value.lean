/-! # Written JSON

The values that are written as JSON, in two layouts: on one line, and indented by two spaces with
each item on a line of its own. Members keep their order. In strings only quotes, backslashes and
control characters below the space are escaped.
-/

namespace JitTrace.Json

/-- A JSON value to be written. Numbers are natural. -/
inductive Value where
  | bool (value : Bool)
  | number (value : Nat)
  | string (text : String)
  | array (items : List Value)
  | object (members : List (String × Value))
  deriving Repr

/-- How values are laid out. -/
inductive Layout where
  | compact
  | pretty
  deriving DecidableEq, Repr

/-- The character that opens and closes a string. -/
def quote : Char := '\x22'

/-- A control character by its code, in two hexadecimal digits. -/
def escapeCode (char : Char) : List Char :=
  ['\\', 'u', '0', '0', Nat.digitChar (char.toNat / 16), Nat.digitChar (char.toNat % 16)]

/-- How a character is written inside a string. -/
def escapeChar (char : Char) : List Char :=
  if char = quote then ['\\', quote]
  else if char = '\\' then ['\\', '\\']
  else if char = '\x08' then ['\\', 'b']
  else if char = '\x0c' then ['\\', 'f']
  else if char = '\n' then ['\\', 'n']
  else if char = '\r' then ['\\', 'r']
  else if char = '\t' then ['\\', 't']
  else if char.toNat < 0x20 then escapeCode char
  else [char]

/-- A string in quotes. -/
def quoted (text : String) : List Char :=
  quote :: (text.toList.flatMap escapeChar ++ [quote])

/-- What stands in front of an item: nothing, or a new line with its indentation. -/
def Layout.gap (layout : Layout) (depth : Nat) : List Char :=
  match layout with
  | .compact => []
  | .pretty => '\n' :: List.replicate (2 * depth) ' '

/-- What stands between a key and its value. -/
def Layout.colon (layout : Layout) : List Char :=
  match layout with
  | .compact => [':']
  | .pretty => [':', ' ']

namespace Value

mutual

/-- Writes a value that stands at a depth. -/
def write (layout : Layout) (depth : Nat) : Value → List Char
  | .bool true => "true".toList
  | .bool false => "false".toList
  | .number value => (toString value).toList
  | .string text => quoted text
  | .array [] => ['[', ']']
  | .array (item :: rest) =>
    '[' :: (layout.gap (depth + 1) ++ item.write layout (depth + 1) ++
      writeItems layout (depth + 1) rest ++ layout.gap depth ++ [']'])
  | .object [] => ['\x7b', '\x7d']
  | .object ((key, value) :: rest) =>
    '\x7b' :: (layout.gap (depth + 1) ++ quoted key ++ layout.colon ++
      value.write layout (depth + 1) ++ writeMembers layout (depth + 1) rest ++
      layout.gap depth ++ ['\x7d'])

/-- Writes the items behind the first one. -/
def writeItems (layout : Layout) (depth : Nat) : List Value → List Char
  | [] => []
  | item :: rest =>
    ',' :: (layout.gap depth ++ item.write layout depth ++ writeItems layout depth rest)

/-- Writes the members behind the first one. -/
def writeMembers (layout : Layout) (depth : Nat) : List (String × Value) → List Char
  | [] => []
  | (key, value) :: rest =>
    ',' :: (layout.gap depth ++ quoted key ++ layout.colon ++ value.write layout depth ++
      writeMembers layout depth rest)

end

/-- The text of a value on one line. -/
def compact (value : Value) : String :=
  String.ofList (value.write .compact 0)

/-- The text of a value with indentation. -/
def pretty (value : Value) : String :=
  String.ofList (value.write .pretty 0)

end Value

end JitTrace.Json
