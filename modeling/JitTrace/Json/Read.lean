import JitTrace.FloatRange
import JitTrace.Json.Node
import JitTrace.Text.Decimal

/-! # Finding JSON in a text

The tree of what a text holds. The text is given as symbols: characters, and marks in place of
bytes that are none. White space is the four characters that JSON allows between its parts, and
nothing else counts, not even a byte order mark.
-/

namespace JitTrace.Json

/-- A text of which some bytes need not be characters. -/
abbrev Input := List (Option Char)

/-- The symbols of a text. -/
def Input.ofString (text : String) : Input :=
  text.toList.map some

/-- Whether a symbol may stand between the parts of a text. -/
def isGap (symbol : Option Char) : Bool :=
  symbol = some ' ' || symbol = some '\n' || symbol = some '\t' || symbol = some '\r'

/-- The text from the next part on. -/
def dropGap (input : Input) : Input :=
  input.dropWhile isGap

/-- Whether a symbol is a digit. -/
def isDigitSymbol (symbol : Option Char) : Bool :=
  symbol.any Char.isDigit

/-- Reads the letters of a word. -/
def expectWord : List Char → Input → Except Fault Input
  | [], input => .ok input
  | _ :: _, [] => .error .truncated
  | char :: word, symbol :: rest =>
    if symbol = some char then expectWord word rest else .error .malformed

/-- Reads a word that stands for a value. -/
def readWord (word : String) (value : Node) (input : Input) : Node × Option Input :=
  match expectWord word.toList input with
  | .ok rest => (value, some rest)
  | .error fault => (.broken (.both fault), none)

/-! ## Numbers -/

/-- A value with a digit behind it. -/
def appendDigit (value : Nat) (symbol : Option Char) : Nat :=
  value * 10 + ((symbol.getD '0').toNat - '0'.toNat)

/-- The value of digits. -/
def digitsValue (digits : Input) : Nat :=
  digits.foldl appendDigit 0

/-- A significand with digits behind it as long as it fits 64 bits, and the digits from the first
one on that does not fit. -/
def fitDigits (significand : Nat) (digits : Input) : Nat × Input :=
  match digits with
  | [] => (significand, [])
  | symbol :: rest =>
    if appendDigit significand symbol < UInt64.size then
      fitDigits (appendDigit significand symbol) rest
    else (significand, digits)

/-- The break where a digit is missing. A reader waits for it at the end of the text, while
skipping takes the numeral for malformed. -/
def missingDigit (rest : Input) : Break :=
  match rest with
  | [] => ⟨.truncated, .malformed⟩
  | _ :: _ => .both .malformed

/-- The digits at the start of a text, at least one, and the rest. -/
def readDigits (input : Input) : Except Break (Input × Input) :=
  let digits := input.takeWhile isDigitSymbol
  let rest := input.dropWhile isDigitSymbol
  if digits.isEmpty then .error (missingDigit rest) else .ok (digits, rest)

/-- The digits in front of the point. A zero stands alone. -/
def readWhole (input : Input) : Except Break (Input × Input) := do
  let (digits, rest) ← readDigits input
  if digits.head? = some (some '0') && 1 < digits.length then .error (.both .malformed)
  else return (digits, rest)

/-- The digits behind a point, if there is one. -/
def readFraction (input : Input) : Except Break (Option Input × Input) :=
  match input with
  | some '.' :: rest => do
    let (digits, rest) ← readDigits rest
    return (some digits, rest)
  | _ => .ok (none, input)

/-- The sign in front of an exponent's digits. -/
def readSign (input : Input) : Int × Input :=
  match input with
  | some '-' :: rest => (-1, rest)
  | some '+' :: rest => (1, rest)
  | _ => (1, input)

/-- The exponent, if there is one. -/
def readExponent (input : Input) : Except Break (Option Int × Input) :=
  match input with
  | some 'e' :: rest | some 'E' :: rest => do
    let (sign, rest) := readSign rest
    let (digits, rest) ← readDigits rest
    return (some (sign * digitsValue digits), rest)
  | _ => .ok (none, input)

/-- What a numeral comes to, given its parts. Its significand has 64 bits. Of the digits that do
not fit, those in front of the point count as zeros, and those behind it not at all. -/
def numeralOf (negative : Bool) (whole : Input) (fraction : Option Input)
    (exponent : Option Int) : Numeral :=
  match fitDigits 0 whole, fraction, exponent with
  | (value, []), none, none => if negative then .other else .natural value
  | (front, dropped), fraction, exponent =>
    let digits := fraction.getD []
    let (significand, ignored) := fitDigits front digits
    let shift : Int := dropped.length - (digits.length - ignored.length : Nat)
    if FloatRange.productExceeds significand (exponent.getD 0 + shift) then .tooLarge else .other

/-- Reads a numeral behind its sign. -/
def readNumeral (negative : Bool) (input : Input) : Except Break (Numeral × Input) := do
  let (whole, rest) ← readWhole input
  let (fraction, rest) ← readFraction rest
  let (exponent, rest) ← readExponent rest
  return (numeralOf negative whole fraction exponent, rest)

/-- Reads a number behind its sign. -/
def readNumber (negative : Bool) (input : Input) : Node × Option Input :=
  match readNumeral negative input with
  | .ok (numeral, rest) => (.number numeral, some rest)
  | .error place => (.broken place, none)

/-! ## Strings -/

/-- The number of bytes of symbols. -/
def byteCount (input : Input) : Nat :=
  input.foldr (fun symbol count => (symbol.map Char.utf8Size).getD 1 + count) 0

/-- Reads the four digits of a code. Four bytes are taken before they are looked at. -/
def readCode (input : Input) : Except Fault (Nat × Input) :=
  match input with
  | a :: b :: c :: d :: rest =>
    match a.bind Text.hexValue?, b.bind Text.hexValue?, c.bind Text.hexValue?,
        d.bind Text.hexValue? with
    | some a, some b, some c, some d => .ok (((a * 16 + b) * 16 + c) * 16 + d, rest)
    | _, _, _, _ => .error .malformed
  | short => .error (if byteCount short < 4 then .truncated else .malformed)

/-- Whether a code is the first half of a pair. -/
def isHighSurrogate (code : Nat) : Bool :=
  0xD800 ≤ code && code ≤ 0xDBFF

/-- Whether a code is the second half of a pair. -/
def isLowSurrogate (code : Nat) : Bool :=
  0xDC00 ≤ code && code ≤ 0xDFFF

/-- The character that two codes make together. -/
def pairChar (high low : Nat) : Char :=
  Char.ofNat ((high - 0xD800) * 0x400 + (low - 0xDC00) + 0x10000)

/-- What follows the first half of a pair. -/
inductive PairEnd where
  /-- The second half. -/
  | low (code : Nat) (rest : Input)
  /-- The text ends, or breaks, before that can be told. -/
  | undecided
  /-- Something else. -/
  | missing
  deriving Repr

/-- Looks for the second half of a pair. -/
def pairEnd (input : Input) : PairEnd :=
  match input with
  | [] => .undecided
  | [some '\\'] => .undecided
  | some '\\' :: some 'u' :: rest =>
    match readCode rest with
    | .ok (code, rest) => if isLowSurrogate code then .low code rest else .missing
    | .error _ => .undecided
  | _ => .missing

/-- The character that a letter behind a backslash stands for. -/
def escapedChar? (symbol : Option Char) : Option Char :=
  match symbol with
  | some '\x22' => some '\x22'
  | some '\\' => some '\\'
  | some '/' => some '/'
  | some 'b' => some '\x08'
  | some 'f' => some '\x0c'
  | some 'n' => some '\n'
  | some 'r' => some '\r'
  | some 't' => some '\t'
  | _ => none

/-- The characters of a string so far, in reverse, and what was met that has no text. -/
structure StringState where
  found : List Char
  /-- A surrogate stands alone: reading fails on the spot. -/
  lone : Bool
  /-- A byte is no text: reading fails at the end of the string. -/
  stray : Bool

namespace StringState

def push (state : StringState) (char : Char) : StringState :=
  { state with found := char :: state.found }

/-- The text of a string that ends here. -/
def text? (state : StringState) : Option String :=
  if state.lone || state.stray then none else some (String.ofList state.found.reverse)

/-- The break at a fault of the form. -/
def breakAt (state : StringState) (fault : Fault) : Break :=
  ⟨if state.lone then .malformed else fault, fault⟩

end StringState

/-- Takes a code into a string: its state, and the rest behind the code or the pair. -/
def takeCode (state : StringState) (code : Nat) (rest : Input) : StringState × Input :=
  if isLowSurrogate code then ({ state with lone := true }, rest)
  else if isHighSurrogate code then
    match pairEnd rest with
    | .low low behind => (state.push (pairChar code low), behind)
    | .undecided => (state, rest)
    | .missing => ({ state with lone := true }, rest)
  else (state.push (Char.ofNat code), rest)

/-- Reads a string behind its opening quote. Every step takes one symbol at least, so a bound
`fuel` above the number of symbols is never met. -/
def readStringFrom (fuel : Nat) (state : StringState) (input : Input) :
    Except Break (Option String × Input) :=
  match fuel, input with
  | 0, _ => .error (state.breakAt .truncated)
  | _ + 1, [] => .error (state.breakAt .truncated)
  | fuel + 1, none :: rest => readStringFrom fuel { state with stray := true } rest
  | fuel + 1, some char :: rest =>
    if char = '\x22' then .ok (state.text?, rest)
    else if char.toNat < 0x20 then .error (state.breakAt .malformed)
    else if char = '\\' then
      match rest with
      | [] => .error (state.breakAt .truncated)
      | some 'u' :: rest =>
        match readCode rest with
        | .error fault => .error (state.breakAt fault)
        | .ok (code, rest) =>
          let (state, rest) := takeCode state code rest
          readStringFrom fuel state rest
      | symbol :: rest =>
        match escapedChar? symbol with
        | some char => readStringFrom fuel (state.push char) rest
        | none => .error (state.breakAt .malformed)
    else readStringFrom fuel (state.push char) rest

/-- Reads a string behind its opening quote: its text, if it has one, and the rest. -/
def readString (fuel : Nat) (input : Input) : Except Break (Option String × Input) :=
  readStringFrom fuel ⟨[], false, false⟩ input

/-! ## Values -/

/-- What the items or members of a text hold, how they end, and the rest if they end properly. -/
structure Sequel (α : Type) where
  parts : List α
  ending : Option Break
  rest : Option Input

/-- Parts that break off with a fault. -/
def Sequel.breakOff {α : Type} (parts : List α) (fault : Fault) : Sequel α :=
  ⟨parts, some (.both fault), none⟩

mutual

/-- Finds a value: its node, and the rest of the text unless the text breaks inside. -/
def findValue (fuel : Nat) (input : Input) : Node × Option Input :=
  match fuel, dropGap input with
  | 0, _ => (.broken (.both .truncated), none)
  | _ + 1, [] => (.broken (.both .truncated), none)
  | fuel + 1, symbol :: rest =>
    match symbol with
    | some 'n' => readWord "ull" .null rest
    | some 't' => readWord "rue" (.bool true) rest
    | some 'f' => readWord "alse" (.bool false) rest
    | some '-' => readNumber true rest
    | some '\x22' =>
      match readString (fuel + 1) rest with
      | .ok (text, rest) => (.string text, some rest)
      | .error place => (.broken place, none)
    | some '[' =>
      match dropGap rest with
      | some ']' :: rest => (.array [] none, some rest)
      | rest =>
        let sequel := findItems fuel rest
        (.array sequel.parts sequel.ending, sequel.rest)
    | some '\x7b' =>
      match dropGap rest with
      | some '\x7d' :: rest => (.object [] none, some rest)
      | rest =>
        let sequel := findMembers fuel rest
        (.object sequel.parts sequel.ending, sequel.rest)
    | symbol =>
      if isDigitSymbol symbol then readNumber false (symbol :: rest)
      else (.broken (.both .malformed), none)

/-- Finds the items of an array from the next one on. -/
def findItems (fuel : Nat) (input : Input) : Sequel Node :=
  match fuel with
  | 0 => .breakOff [] .truncated
  | fuel + 1 =>
    match findValue fuel input with
    | (item, none) => ⟨[item], none, none⟩
    | (item, some rest) =>
      match dropGap rest with
      | [] => .breakOff [item] .truncated
      | some ']' :: rest => ⟨[item], none, some rest⟩
      | some ',' :: rest =>
        let sequel := findItems fuel rest
        { sequel with parts := item :: sequel.parts }
      | _ => .breakOff [item] .malformed

/-- Finds the members of an object from the next one on. -/
def findMembers (fuel : Nat) (input : Input) : Sequel (Option String × Node) :=
  match fuel, dropGap input with
  | 0, _ => .breakOff [] .truncated
  | _ + 1, [] => .breakOff [] .truncated
  | fuel + 1, some '\x22' :: rest =>
    match readString (fuel + 1) rest with
    | .error place => ⟨[], some place, none⟩
    | .ok (key, rest) =>
      match dropGap rest with
      | [] => .breakOff [(key, .broken (.both .truncated))] .truncated
      | some ':' :: rest =>
        match findValue fuel rest with
        | (value, none) => ⟨[(key, value)], none, none⟩
        | (value, some rest) =>
          match dropGap rest with
          | [] => .breakOff [(key, value)] .truncated
          | some '\x7d' :: rest => ⟨[(key, value)], none, some rest⟩
          | some ',' :: rest =>
            let sequel := findMembers fuel rest
            { sequel with parts := (key, value) :: sequel.parts }
          | _ => .breakOff [(key, value)] .malformed
      | _ => .breakOff [(key, .broken (.both .malformed))] .malformed
  | _ + 1, _ => .breakOff [] .malformed

end

/-- What a text holds, and the rest behind it unless the text breaks inside. Entering an array
and reading an item both take from the bound, which is why it is twice the length. -/
def Node.ofInput (input : Input) : Node × Option Input :=
  findValue (2 * input.length + 2) input

/-- Reads a text as one value and nothing behind it. -/
def readDocument {α : Type} (decode : Node → Except Fault α) (input : Input) : Except Fault α :=
  match Node.ofInput input with
  | (node, rest) => do
    let value ← decode node
    match rest.map dropGap with
    | some [] => return value
    | some (_ :: _) => .error .malformed
    | none => .error .truncated

end JitTrace.Json
