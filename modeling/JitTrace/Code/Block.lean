import JitTrace.Code.Instruction
import JitTrace.Journal
import JitTrace.Stream.LineReader

/-! # Blocks of optimized code

The code log holds one block of lines for each code object, behind a line that starts with the
object's address, and an empty line ends the block. Addresses are compared without regard to the
case of ASCII letters here, and as plain text inside a block.
-/

namespace JitTrace.Block

/-- Whether a line starts with an address. -/
def startsWithAddress (line address : String) : Bool :=
  match Utf8.takeBytes address.utf8ByteSize line.toList with
  | some start => start.map Char.toLower = address.toList.map Char.toLower
  | none => false

/-- The lines up to the first empty one, which is included. -/
def upToEmpty : List LineItem → Except IoFault (List String)
  | [] => .ok []
  | .error fault :: _ => .error fault
  | .ok line :: rest =>
    if line.isEmpty then .ok [line]
    else
      match upToEmpty rest with
      | .ok lines => .ok (line :: lines)
      | .error fault => .error fault

/-- The block behind the first line that starts with an address, if there is such a line. -/
def find (address : String) : List LineItem → Except IoFault (Option (List String))
  | [] => .ok none
  | .error fault :: _ => .error fault
  | .ok line :: rest =>
    if startsWithAddress line address then
      match upToEmpty rest with
      | .ok lines => .ok (some lines)
      | .error fault => .error fault
    else find address rest

/-- The block of the code object at an address, empty if there is none. Nothing is read for the
empty address. -/
def extract (chunk : Nat) (stream : Stream) (address : String) : Except IoFault (List String) :=
  if address.isEmpty then .ok []
  else
    match find address (stream.lines chunk) with
    | .ok block => .ok (block.getD [])
    | .error fault => .error fault

/-- The messages that go with extracting a block. -/
def extractRemarks (chunk : Nat) (stream : Stream) (address : String) : List Message :=
  if address.isEmpty then []
  else
    match find address (stream.lines chunk) with
    | .ok (some block) => [.debug s!"Extracted {block.length} lines of code at {address}"]
    | .ok none => [.debug s!"No optimized code found at {address}"]
    | .error _ => []

end JitTrace.Block

namespace JitTrace

/-- The addresses that jumps of a block may reach by a label, compared as text. -/
structure CodeRange where
  first : String
  last : String
  deriving DecidableEq, Repr

namespace CodeRange

/-- From the address of the first line of a block to that of the last but one. The last line ends
the block, so a block of fewer than two lines has no range. -/
def ofBlock? (lines : List String) : Option CodeRange := do
  let first ← lines.head?
  let last ← lines.dropLast.getLast?
  return ⟨InstructionLine.addressOf first, InstructionLine.addressOf last⟩

def contains (range : CodeRange) (address : String) : Bool :=
  !(range.last < address || address < range.first)

end CodeRange

end JitTrace
