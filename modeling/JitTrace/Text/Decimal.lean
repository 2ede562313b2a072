/-! # Digits and decimal numerals

The values of digits, and reading an unsigned decimal numeral below a bound. A numeral is one or
more ASCII digits, with at most one plus sign in front; leading zeros are allowed, white space and
grouping are not. The first character that breaks a rule decides the fault: a digit that makes the
value too large is reported even when a letter follows it.
-/

namespace JitTrace.Text

/-- Why a text is no numeral below the bound. -/
inductive DecimalFault where
  | empty
  | invalidDigit
  | tooLarge
  deriving DecidableEq, Repr

/-- The wording of a fault. -/
def DecimalFault.message : DecimalFault → String
  | .empty => "cannot parse integer from empty string"
  | .invalidDigit => "invalid digit found in string"
  | .tooLarge => "number too large to fit in target type"

/-- The value of an ASCII digit. -/
def digitValue? (char : Char) : Option Nat :=
  if char.isDigit then some (char.toNat - '0'.toNat) else none

/-- The value of a hexadecimal digit, in either case. -/
def hexValue? (char : Char) : Option Nat :=
  if char.isDigit then some (char.toNat - '0'.toNat)
  else if 'a' ≤ char && char ≤ 'f' then some (char.toNat - 'a'.toNat + 10)
  else if 'A' ≤ char && char ≤ 'F' then some (char.toNat - 'A'.toNat + 10)
  else none

/-- Reads digits behind a value read so far. -/
def readDigits (bound value : Nat) : List Char → Except DecimalFault Nat
  | [] => .ok value
  | char :: rest =>
    match digitValue? char with
    | none => .error .invalidDigit
    | some digit =>
      if value * 10 + digit < bound then readDigits bound (value * 10 + digit) rest
      else .error .tooLarge

/-- Reads a numeral given as characters. -/
def readNumeral (bound : Nat) : List Char → Except DecimalFault Nat
  | [] => .error .empty
  | ['+'] => .error .invalidDigit
  | '+' :: digits => readDigits bound 0 digits
  | digits => readDigits bound 0 digits

/-- Reads a numeral below `bound`. -/
def readDecimal (bound : Nat) (text : String) : Except DecimalFault Nat :=
  readNumeral bound text.toList

/-- Reads a numeral that fits 64 bits. -/
def readUInt64? (text : String) : Option UInt64 :=
  (readDecimal UInt64.size text).toOption.map UInt64.ofNat

/-- Reads a numeral that fits 32 bits. -/
def readUInt32? (text : String) : Option UInt32 :=
  (readDecimal UInt32.size text).toOption.map UInt32.ofNat

end JitTrace.Text
