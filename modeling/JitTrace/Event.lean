import JitTrace.Text.Blank

/-! # Events in the life of a function

What the engine can do to one function: create unoptimized code for it, start and finish an
optimizing compilation, and throw optimized code away. Times are microseconds since the engine
started.
-/

namespace JitTrace

/-- A region of generated code. The start is a hexadecimal address as logged. -/
structure MemoryArea where
  start : String
  size : UInt64
  deriving DecidableEq, Repr

/-- The form in which addresses are compared: without surrounding blanks, and with the ASCII
letters in lower case. -/
def normalizeAddress (address : String) : String :=
  String.ofList ((Text.trim address).toList.map Char.toLower)

/-- The key under which a code object is found. -/
def MemoryArea.addressKey (memory : MemoryArea) : String :=
  normalizeAddress memory.start

/-- What happened to a function. -/
inductive EventKind where
  /-- Unoptimized code was created. -/
  | parse (memory : MemoryArea)
  | compileStart
  | compileEnd (memory : MemoryArea)
  /-- Optimized code was thrown away at a source position. -/
  | deoptimize (reason position : String)
  deriving DecidableEq, Repr

/-- The name of a kind of event, in reports and on the terminal. -/
def EventKind.label : EventKind → String
  | .parse _ => "parse"
  | .compileStart => "compile-start"
  | .compileEnd _ => "compile-end"
  | .deoptimize _ _ => "deoptimize"

/-- One entry of a function's history. -/
structure Event where
  time : UInt64
  kind : EventKind
  deriving DecidableEq, Repr

namespace Event

/-- The name of the kind of an event. -/
def label (event : Event) : String :=
  event.kind.label

def isCompileStart (event : Event) : Bool :=
  event.kind = .compileStart

/-- The code object that a finished compilation produced. -/
def compiledMemory? (event : Event) : Option MemoryArea :=
  match event.kind with
  | .compileEnd memory => some memory
  | _ => none

end Event

end JitTrace
