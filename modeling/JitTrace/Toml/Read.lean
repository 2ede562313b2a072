import JitTrace.FloatRange
import JitTrace.Text.Decimal
import JitTrace.Toml.Table

/-! # Reading a configuration text

A reader for TOML 1.0. It accepts exactly the texts of that format and gives the table they
describe; what is wrong with other texts is not told. Arrays and inline tables may nest to a depth
of 79.
-/

namespace JitTrace.Toml

/-- A reader takes characters off the front of a text. -/
abbrev Reader (α : Type) := List Char → Option (α × List Char)

/-! ## Characters -/

/-- White space inside a line. -/
def isSpace (char : Char) : Bool :=
  char = ' ' || char = '\t'

/-- A character that may stand in a comment or a string, quotes and backslashes included. -/
def isPrintable (char : Char) : Bool :=
  char = '\t' || (0x20 ≤ char.toNat && char.toNat ≠ 0x7F)

/-- A character of a key without quotes. -/
def isKeyChar (char : Char) : Bool :=
  char.isAlphanum || char = '-' || char = '_'

def dropSpace (chars : List Char) : List Char :=
  chars.dropWhile isSpace

/-- Takes a line end, if there is one. -/
def takeNewline? : List Char → Option (List Char)
  | '\n' :: rest => some rest
  | '\r' :: '\n' :: rest => some rest
  | _ => none

/-- Takes spaces, and a comment behind them. -/
def dropComment (chars : List Char) : List Char :=
  match dropSpace chars with
  | '#' :: rest => rest.dropWhile isPrintable
  | rest => rest

/-- Takes what may stand at the end of a line, and the line end. -/
def endLine? (chars : List Char) : Option (List Char) :=
  match dropComment chars with
  | [] => some []
  | rest => takeNewline? rest

/-- Takes line ends, spaces and comments between the items of an array. Every round takes a line
end, so the bound `fuel` is the length of the text. -/
def dropLinesFrom (fuel : Nat) (chars : List Char) : List Char :=
  match fuel, takeNewline? (dropComment chars) with
  | fuel + 1, some rest => dropLinesFrom fuel rest
  | _, _ => dropComment chars

def dropLines (chars : List Char) : List Char :=
  dropLinesFrom chars.length chars

/-! ## Strings -/

/-- Reads a character given by so many hexadecimal digits. -/
def readCode (count : Nat) (chars : List Char) : Option (Char × List Char) := do
  let digits := chars.take count
  guard (digits.length = count)
  let values ← digits.mapM Text.hexValue?
  let code := values.foldl (fun code value => code * 16 + value) 0
  guard code.isValidChar
  return (Char.ofNat code, chars.drop count)

/-- Reads the character behind a backslash. -/
def readEscape : Reader Char
  | 'b' :: rest => some ('\x08', rest)
  | 't' :: rest => some ('\t', rest)
  | 'n' :: rest => some ('\n', rest)
  | 'f' :: rest => some ('\x0c', rest)
  | 'r' :: rest => some ('\r', rest)
  | '\x22' :: rest => some ('\x22', rest)
  | '\\' :: rest => some ('\\', rest)
  | 'u' :: rest => readCode 4 rest
  | 'U' :: rest => readCode 8 rest
  | _ => none

/-- Takes spaces and line ends. -/
def dropBlankLines : List Char → List Char
  | '\r' :: '\n' :: rest => dropBlankLines rest
  | char :: rest => if isSpace char || char = '\n' then dropBlankLines rest else char :: rest
  | [] => []

/-- Takes the rest of a line that ends in a backslash, and all spaces and line ends behind it. -/
def skipFold? (chars : List Char) : Option (List Char) :=
  (takeNewline? (dropSpace chars)).map dropBlankLines

/-- A kind of string: what it is quoted by, whether backslashes mean something, and whether it
may run over lines. -/
structure StringForm where
  quote : Char
  escapes : Bool
  multiline : Bool

/-- The number of quotes at the start of a text. -/
def quoteRun (form : StringForm) (chars : List Char) : Nat :=
  (chars.takeWhile (· = form.quote)).length

/-- Reads a string behind its opening quotes, with the characters found so far in reverse. Every
round takes a character at least, so the bound `fuel` is the length of the text. -/
def readBody (form : StringForm) (fuel : Nat) (found : List Char) (chars : List Char) :
    Option (String × List Char) :=
  match fuel, chars with
  | 0, _ => none
  | _ + 1, [] => none
  | fuel + 1, char :: rest =>
    if char = form.quote then
      if !form.multiline then some (String.ofList found.reverse, rest)
      else
        let run := quoteRun form chars
        if run < 3 then readBody form fuel (char :: found) rest
        else
          let kept := min (run - 3) 2
          some (String.ofList (List.replicate kept char ++ found).reverse,
            chars.drop (kept + 3))
    else if char = '\\' && form.escapes then
      match readEscape rest with
      | some (escaped, rest) => readBody form fuel (escaped :: found) rest
      | none =>
        if form.multiline then
          match skipFold? rest with
          | some rest => readBody form fuel found rest
          | none => none
        else none
    else if isPrintable char then readBody form fuel (char :: found) rest
    else if form.multiline then
      match takeNewline? chars with
      | some rest => readBody form fuel ('\n' :: found) rest
      | none => none
    else none

/-- Reads a string of a form behind its opening quotes. A line end right behind the quotes of a
string over lines does not count. -/
def readStringBody (form : StringForm) (chars : List Char) : Option (String × List Char) :=
  let chars := if form.multiline then (takeNewline? chars).getD chars else chars
  readBody form (chars.length + 1) [] chars

/-- Reads a string on one line. -/
def readLineString : Reader String
  | '\x22' :: rest => readStringBody ⟨'\x22', true, false⟩ rest
  | '\x27' :: rest => readStringBody ⟨'\x27', false, false⟩ rest
  | _ => none

/-- Reads a string of any form. -/
def readString : Reader String
  | '\x22' :: '\x22' :: '\x22' :: rest => readStringBody ⟨'\x22', true, true⟩ rest
  | '\x27' :: '\x27' :: '\x27' :: rest => readStringBody ⟨'\x27', false, true⟩ rest
  | chars => readLineString chars

/-! ## Keys -/

/-- Reads one part of a key. -/
def readKeyPart (chars : List Char) : Option (String × List Char) :=
  match chars with
  | '\x22' :: _ | '\x27' :: _ => readLineString chars
  | _ =>
    let name := chars.takeWhile isKeyChar
    if name.isEmpty then none else some (String.ofList name, chars.dropWhile isKeyChar)

/-- Reads the parts of a key, with spaces around the dots. -/
def readKeyFrom (fuel : Nat) (chars : List Char) : Option (List String × List Char) :=
  match fuel with
  | 0 => none
  | fuel + 1 => do
    let (part, rest) ← readKeyPart (dropSpace chars)
    match dropSpace rest with
    | '.' :: rest =>
      let (parts, rest) ← readKeyFrom fuel rest
      return (part :: parts, rest)
    | rest => return ([part], rest)

/-- How deep keys, arrays and inline tables may go: less than this. -/
def depthLimit : Nat := 80

/-- Reads a key: the parts in front of the last one, and the last one. -/
def readKey (chars : List Char) : Option ((List String × String) × List Char) := do
  let (parts, rest) ← readKeyFrom chars.length chars
  guard (parts.length < depthLimit)
  let last ← parts.getLast?
  return ((parts.dropLast, last), rest)

/-! ## Numbers and dates -/

/-- Reads digits of a class, with single underscores between them. -/
def readDigits (isDigit : Char → Bool) (chars : List Char) : Option (List Char × List Char) :=
  let run := chars.takeWhile fun char => isDigit char || char = '_'
  let pieces := run.splitOn '_'
  if pieces.all fun piece => !piece.isEmpty then
    some (pieces.flatten, chars.drop run.length)
  else none

/-- The value of digits in a base. -/
def digitsValue (base : Nat) (digits : List Char) : Nat :=
  digits.foldl (fun value digit => value * base + (Text.hexValue? digit).getD 0) 0

/-- An integer, if it fits 64 bits. -/
def integer? (value : Int) : Option Value :=
  if -9223372036854775808 ≤ value && value ≤ 9223372036854775807 then some (.integer value)
  else none

/-- Reads an integer in another base behind its marker. -/
def readBased (base : Nat) (chars : List Char) : Option (Value × List Char) := do
  let isDigit := fun char => (Text.hexValue? char).any (· < base)
  let (digits, rest) ← readDigits isDigit chars
  return (← integer? (digitsValue base digits), rest)

/-- Reads an exponent, if there is one. -/
def readExponent : Reader (Option Int)
  | 'e' :: rest | 'E' :: rest => do
    let (sign, rest) : Int × List Char := match rest with
      | '+' :: rest => (1, rest)
      | '-' :: rest => (-1, rest)
      | rest => (1, rest)
    let (digits, rest) ← readDigits Char.isDigit rest
    return (some (sign * digitsValue 10 digits), rest)
  | chars => some (none, chars)

/-- Reads the digits behind a point, if there is one. -/
def readFraction : Reader (Option (List Char))
  | '.' :: rest => do
    let (digits, rest) ← readDigits Char.isDigit rest
    return (some digits, rest)
  | chars => some (none, chars)

/-- A number by its parts. One with a fraction or an exponent must not be above all that floating
point holds; nothing is asked of it below. -/
def numberOf? (negative : Bool) (digits : List Char) (fraction : Option (List Char))
    (exponent : Option Int) : Option Value :=
  match fraction, exponent with
  | none, none =>
    let value : Int := digitsValue 10 digits
    integer? (if negative then -value else value)
  | fraction, exponent =>
    let behind := fraction.getD []
    let significand := digitsValue 10 (digits ++ behind)
    if !negative && FloatRange.exceeds significand (exponent.getD 0 - behind.length) then none
    else some .other

/-- Reads a number behind its sign. Only a lone zero starts with zero. -/
def readNumber (negative : Bool) (chars : List Char) : Option (Value × List Char) :=
  match chars with
  | 'i' :: 'n' :: 'f' :: rest => some (.other, rest)
  | 'n' :: 'a' :: 'n' :: rest => some (.other, rest)
  | _ => do
    let (digits, rest) ← readDigits Char.isDigit chars
    guard (digits.head? ≠ some '0' || digits.length = 1)
    let (fraction, rest) ← readFraction rest
    let (exponent, rest) ← readExponent rest
    return (← numberOf? negative digits fraction exponent, rest)

/-- Reads exactly so many decimal digits as a number between bounds. -/
def readFixed (count low high : Nat) (chars : List Char) : Option (Nat × List Char) := do
  let digits := chars.take count
  guard (digits.length = count && digits.all Char.isDigit)
  let value := digitsValue 10 digits
  guard (low ≤ value && value ≤ high)
  return (value, chars.drop count)

/-- Reads one given character. -/
def readChar (expected : Char) (chars : List Char) : Option (List Char) :=
  match chars with
  | char :: rest => if char = expected then some rest else none
  | [] => none

/-- The number of days in a month. -/
def daysIn (year month : Nat) : Nat :=
  if month = 2 then
    if year % 4 = 0 && (year % 100 ≠ 0 || year % 400 = 0) then 29 else 28
  else if month = 4 || month = 6 || month = 9 || month = 11 then 30
  else 31

/-- Takes a date. -/
def takeDate? (chars : List Char) : Option (List Char) := do
  let (year, rest) ← readFixed 4 0 9999 chars
  let rest ← readChar '-' rest
  let (month, rest) ← readFixed 2 1 12 rest
  let rest ← readChar '-' rest
  let (_, rest) ← readFixed 2 1 (daysIn year month) rest
  return rest

/-- Takes the time of a day. -/
def takeTime? (chars : List Char) : Option (List Char) := do
  let (_, rest) ← readFixed 2 0 23 chars
  let rest ← readChar ':' rest
  let (_, rest) ← readFixed 2 0 59 rest
  let rest ← readChar ':' rest
  let (_, rest) ← readFixed 2 0 60 rest
  match rest with
  | '.' :: digits =>
    if (digits.head?.any Char.isDigit) then return digits.dropWhile Char.isDigit else none
  | _ => return rest

/-- Takes the distance of a time zone. -/
def takeZone? (chars : List Char) : Option (List Char) := do
  let (_, rest) ← readFixed 2 0 23 chars
  let rest ← readChar ':' rest
  let (_, rest) ← readFixed 2 0 59 rest
  return rest

/-- Takes a time zone, if there is one. -/
def dropZone (chars : List Char) : Option (List Char) :=
  match chars with
  | 'Z' :: rest | 'z' :: rest => some rest
  | '+' :: rest | '-' :: rest => takeZone? rest
  | _ => some chars

/-- Takes a date, a time, or both. -/
def takeMoment? (chars : List Char) : Option (List Char) :=
  match takeDate? chars with
  | none => takeTime? chars
  | some rest =>
    match rest with
    | 'T' :: time | 't' :: time | ' ' :: time =>
      match takeTime? time with
      | some rest => dropZone rest
      | none => some rest
    | _ => some rest

/-- Reads a number or a date. -/
def readScalar (chars : List Char) : Option (Value × List Char) :=
  match takeMoment? chars with
  | some rest => some (.other, rest)
  | none =>
    match chars with
    | '0' :: 'x' :: rest => readBased 16 rest
    | '0' :: 'o' :: rest => readBased 8 rest
    | '0' :: 'b' :: rest => readBased 2 rest
    | '+' :: rest => readNumber false rest
    | '-' :: rest => readNumber true rest
    | _ => readNumber false chars

/-! ## Values -/

mutual

/-- Reads a value, with arrays and inline tables nested less than `depth` deep. -/
def readValue (fuel depth : Nat) (chars : List Char) : Option (Value × List Char) :=
  match fuel, chars with
  | 0, _ => none
  | fuel + 1, '[' :: rest => do
    guard (1 < depth)
    let rest ← readArray fuel (depth - 1) rest
    return (.other, rest)
  | fuel + 1, '\x7b' :: rest => do
    guard (1 < depth)
    match dropSpace rest with
    | '\x7d' :: rest => return (.other, rest)
    | rest =>
      let rest ← readInline fuel (depth - 1) [] rest
      return (.other, rest)
  | _ + 1, 't' :: 'r' :: 'u' :: 'e' :: rest => some (.other, rest)
  | _ + 1, 'f' :: 'a' :: 'l' :: 's' :: 'e' :: rest => some (.other, rest)
  | _ + 1, chars =>
    match readString chars with
    | some (text, rest) => some (.text text, rest)
    | none => readScalar chars

/-- Reads the items of an array and its end. -/
def readArray (fuel depth : Nat) (chars : List Char) : Option (List Char) :=
  match fuel, dropLines chars with
  | 0, _ => none
  | _ + 1, ']' :: rest => some rest
  | fuel + 1, chars => do
    let (_, rest) ← readValue fuel depth chars
    match dropLines rest with
    | ',' :: rest => readArray fuel depth rest
    | ']' :: rest => return rest
    | _ => none

/-- Reads the entries of an inline table and its end. -/
def readInline (fuel depth : Nat) (entries : Entries) (chars : List Char) :
    Option (List Char) :=
  match fuel with
  | 0 => none
  | fuel + 1 => do
    let ((path, key), rest) ← readKey chars
    let rest ← readChar '=' rest
    let (value, rest) ← readValue fuel depth (dropSpace rest)
    let entries ← assign entries [] path key value
    match dropSpace rest with
    | ',' :: rest => readInline fuel depth entries rest
    | '\x7d' :: rest => return rest
    | _ => none

end

/-! ## Documents -/

/-- A text so far: its table, and the keys of the header above. -/
structure Document where
  entries : Entries
  header : List String

/-- Reads an entry. -/
def readEntry (document : Document) (chars : List Char) : Option (Document × List Char) := do
  let ((path, key), rest) ← readKey chars
  let rest ← readChar '=' rest
  let (value, rest) ← readValue (2 * rest.length + 2) depthLimit (dropSpace rest)
  return ({ document with entries := ← assign document.entries document.header path key value },
    rest)

/-- Reads a header behind its first bracket. -/
def readHeader (document : Document) (chars : List Char) : Option (Document × List Char) :=
  match chars with
  | '[' :: rest => do
    let ((path, key), rest) ← readKey rest
    let rest ← readChar ']' (← readChar ']' rest)
    return (⟨← appendTable document.entries path key, path ++ [key]⟩, rest)
  | _ => do
    let ((path, key), rest) ← readKey chars
    let rest ← readChar ']' rest
    return (⟨← openTable document.entries path key, path ++ [key]⟩, rest)

/-- Reads what stands on a line in front of its end. -/
def readLine (document : Document) (chars : List Char) : Option (Document × List Char) :=
  match chars with
  | [] | '#' :: _ | '\n' :: _ | '\r' :: _ => some (document, chars)
  | '[' :: rest => readHeader document rest
  | _ => readEntry document chars

/-- Reads lines to the end of a text. Every line takes a character at least, so the bound `fuel`
is the length of the text. -/
def readLines (fuel : Nat) (document : Document) (chars : List Char) : Option Document :=
  match fuel, chars with
  | _, [] => some document
  | 0, _ => none
  | fuel + 1, chars => do
    let (document, rest) ← readLine document (dropSpace chars)
    readLines fuel document (← endLine? rest)

/-- Reads a text. A byte order mark in front does not count. -/
def read (text : String) : Option Entries :=
  let chars := match text.toList with
    | '\ufeff' :: rest => rest
    | chars => chars
  (readLines chars.length ⟨[], []⟩ chars).map Document.entries

end JitTrace.Toml
