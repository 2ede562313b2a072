import JitTrace.Text.Blank
import JitTrace.Text.Split
import JitTrace.Text.Utf8

/-! # Lines of a disassembly

One instruction is printed per line: its address, columns of offsets and encoded bytes, and the
instruction text. Only the address in front and the instruction behind the fixed columns matter;
of the instructions only the jumps are told apart, by the letter they start with.
-/

namespace JitTrace

/-- Address and instruction of a line. -/
structure InstructionLine where
  address : String
  instruction : String
  deriving DecidableEq, Repr

namespace InstructionLine

/-- The byte offset from which the space in front of the instruction is searched. -/
def searchOffset : Nat := 30

/-- A width marker that may stand in front of an instruction. -/
def widthMarker : String := "REX.W"

/-- The address of a line: what stands in front of the first space. -/
def addressOf (line : String) : String :=
  String.ofList (line.toList.takeWhile (· ≠ ' '))

/-- The instruction of a line: what follows the first space at or behind the search offset. A line
that is too short, or has a character across that offset, has none. -/
def instructionOf (line : String) : String :=
  match Utf8.dropBytes searchOffset line.toList with
  | none => ""
  | some rest =>
    let instruction := Text.trimStart (String.ofList (rest.dropWhile (· ≠ ' ')))
    match Text.afterStart? widthMarker instruction with
    | some narrow => Text.trimStart narrow
    | none => instruction

/-- Splits a line. -/
def ofLine (line : String) : InstructionLine :=
  ⟨addressOf line, instructionOf line⟩

end InstructionLine

/-- A jump, to a literal address or through an operand. -/
inductive Jump where
  | direct (mnemonic target : String)
  | indirect (mnemonic operand : String)
  deriving DecidableEq, Repr

namespace Jump

/-- What a literal address starts with. -/
def addressStart : String := "0x"

/-- Reads the first two words of an instruction as a jump. -/
def ofInstruction? (instruction : String) : Option Jump :=
  if Text.startsWith instruction "j" then
    match Text.words instruction with
    | mnemonic :: operand :: _ =>
      if Text.startsWith operand addressStart then some (.direct mnemonic operand)
      else some (.indirect mnemonic operand)
    | _ => none
  else none

end Jump

end JitTrace
