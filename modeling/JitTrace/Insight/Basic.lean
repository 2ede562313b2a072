import JitTrace.Record

/-! # Insights

What the event log says about a function and about a source file. The history of a function is in
log order, and the status beside it is kept up with every event. A name that the log gives late
replaces the unknown one; a known name stays.
-/

namespace JitTrace

/-- Where a function's name stands in its file: zero-based line, column as logged, and the length
of the name in characters. -/
structure Declaration where
  line : UInt32
  column : UInt32
  length : UInt32
  deriving DecidableEq, Repr

/-- The columns of the name, from the first one to the one behind the last. The end stays at the
largest column when it would pass it. -/
def Declaration.highlight (declaration : Declaration) : UInt32 × UInt32 :=
  (declaration.column,
    UInt32.ofNat (min (declaration.column.toNat + declaration.length.toNat) (UInt32.size - 1)))

/-- The line of the name as editors show it, counted from one. -/
def Declaration.shownLine (declaration : Declaration) : UInt32 :=
  declaration.line + 1

/-- Everything the log says about one function. -/
structure FunctionInsight where
  name : String
  declaration : Declaration
  events : List Event
  /-- Optimized code is live. -/
  isCompiled : Bool
  /-- Optimized code was thrown away at least once. -/
  wasDeoptimized : Bool
  /-- Microseconds between the last compile start and the last compile end behind it. -/
  compileTime : Option UInt64
  deriving DecidableEq, Repr

namespace FunctionInsight

/-- The length of a name as a declaration holds it. -/
def nameLength (name : String) : UInt32 :=
  UInt32.ofNat name.length

/-- A function of which only the declaration is known. -/
def ofLocation (location : Location) : FunctionInsight where
  name := location.name
  declaration := ⟨location.line, location.column, nameLength location.name⟩
  events := []
  isCompiled := false
  wasDeoptimized := false
  compileTime := none

def nameIsKnown (function : FunctionInsight) : Bool :=
  function.name != Location.unknownName

/-- Takes the name of a location, if it is the first known one. -/
def learnName (function : FunctionInsight) (location : Location) : FunctionInsight :=
  if !function.nameIsKnown && location.isNamed then
    { function with
      name := location.name
      declaration := { function.declaration with length := nameLength location.name } }
  else function

/-- Appends an event to the history. -/
def push (function : FunctionInsight) (event : Event) : FunctionInsight :=
  { function with events := function.events ++ [event] }

/-- The last compile start of the history. -/
def lastCompileStart? (function : FunctionInsight) : Option Event :=
  function.events.reverse.find? Event.isCompileStart

/-- The time from one event to a later one. It is zero when the clock went back. -/
def elapsed (first later : UInt64) : UInt64 :=
  if first ≤ later then later - first else 0

/-- Notes that a compilation finished: the code is live, and its time is known if its start is. -/
def finishCompile (function : FunctionInsight) (time : UInt64) (memory : MemoryArea) :
    FunctionInsight :=
  { function with
    compileTime :=
      match function.lastCompileStart? with
      | some start => some (elapsed start.time time)
      | none => function.compileTime
    isCompiled := true }.push ⟨time, .compileEnd memory⟩

/-- Notes a new code object. -/
def noteCreation (function : FunctionInsight) (creation : Creation) (time : UInt64)
    (memory : MemoryArea) : FunctionInsight :=
  match creation with
  | .script => function.push ⟨time, .parse memory⟩
  | .compileStart => function.push ⟨time, .compileStart⟩
  | .compileEnd => function.finishCompile time memory

/-- Notes that optimized code was thrown away. -/
def deoptimize (function : FunctionInsight) (time : UInt64) (reason position : String) :
    FunctionInsight :=
  { function with isCompiled := false, wasDeoptimized := true }.push
    ⟨time, .deoptimize reason position⟩

end FunctionInsight

/-- The functions declared in one file, in the order in which the log names them first. -/
structure FileInsight where
  filename : String
  functions : List FunctionInsight
  deriving DecidableEq, Repr

/-- The first function declared on a zero-based line. -/
def FileInsight.functionAtLine? (file : FileInsight) (line : UInt32) : Option FunctionInsight :=
  file.functions.find? fun function => function.declaration.line = line

end JitTrace
