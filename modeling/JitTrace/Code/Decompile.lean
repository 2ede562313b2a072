import JitTrace.Code.Block
import JitTrace.Code.Label
import JitTrace.Text.Layout

/-! # Rendering code with labels

A block of code is rendered in two passes. The first one makes labels for the targets of jumps
inside the block and counts these jumps; the second one writes the lines, a definition in front of
each line that has a label, and the label's name in place of a target in range. Names depend on
the counts, so none is shown before all jumps are counted. Blank lines are left out.
-/

namespace JitTrace

namespace LabelCache

/-- Counts the jump on a line, if its target is in range. -/
def countLine (range : CodeRange) (context : String) (cache : LabelCache) (line : String) :
    LabelCache :=
  let { address, instruction } := InstructionLine.ofLine line
  match Jump.ofInstruction? instruction with
  | some (.direct _ target) =>
    if range.contains target then
      (cache.ensure target context).modify target fun label => label.countJump address target
    else cache
  | _ => cache

/-- The first pass: labels for all targets in range, with their jumps counted. -/
def discover (range : Option CodeRange) (context : String) (cache : LabelCache)
    (lines : List String) : LabelCache :=
  match range with
  | none => cache
  | some range => lines.foldl (countLine range context) cache

/-- Writes the definition of a label in front of its address. -/
def defineAt (cache : LabelCache) (position : Nat) (address : String) :
    List String × LabelCache :=
  match cache.get? address with
  | none => ([], cache)
  | some label =>
    ([s!"{label.displayName}:"],
      cache.modify address fun label => { label with line := some position })

/-- The label that a jump shows in place of its target. -/
def shownLabel? (cache : LabelCache) (range : Option CodeRange) (target : String) :
    Option Label :=
  if range.any fun range => range.contains target then cache.get? target else none

/-- Writes an instruction. -/
def writeInstruction (cache : LabelCache) (range : Option CodeRange) (position : Nat)
    (instruction : String) : String × LabelCache :=
  match Jump.ofInstruction? instruction with
  | none => (s!"  {instruction}", cache)
  | some (.indirect mnemonic operand) => (s!"  {mnemonic} {operand}", cache)
  | some (.direct mnemonic target) =>
    match cache.shownLabel? range target with
    | none => (s!"  {mnemonic} {target} (outside)", cache)
    | some label =>
      (s!"  {mnemonic} {label.displayName}",
        cache.modify target fun label =>
          { label with referencedAt := label.referencedAt ++ [position] })

/-- Writes a line as output lines from a position on. -/
def writeLine (cache : LabelCache) (range : Option CodeRange) (position : Nat) (line : String) :
    List String × LabelCache :=
  if (Text.trim line).isEmpty then ([], cache)
  else
    let { address, instruction } := InstructionLine.ofLine line
    let (definition, cache) := cache.defineAt position address
    let (written, cache) :=
      cache.writeInstruction range (position + definition.length) instruction
    (definition ++ [written], cache)

/-- The second pass: the output lines from a position on. -/
def writeLines (cache : LabelCache) (range : Option CodeRange) (position : Nat) :
    List String → List String × LabelCache
  | [] => ([], cache)
  | line :: rest =>
    let (written, cache) := cache.writeLine range position line
    let (more, cache) := cache.writeLines range (position + written.length) rest
    (written ++ more, cache)

/-- Renders a block as output lines of a document. -/
def decompile (cache : LabelCache) (lines : List String) (context : String) :
    List String × LabelCache :=
  let range := CodeRange.ofBlock? lines
  (cache.restartIds.discover range context lines).writeLines range 0 lines

end LabelCache

/-- The message that goes with rendering a block. -/
def Block.rangeRemark (lines : List String) : Message :=
  match CodeRange.ofBlock? lines with
  | some range => .debug s!"Code range {range.first} - {range.last}"
  | none => .debug s!"Block of {lines.length} lines has no code range"

end JitTrace
