import JitTrace.Event
import JitTrace.Location

/-! # Records of the event log

A line of the event log is a list of fields separated by commas. Four kinds of lines say something
about a function; all others are skipped, and so is a line of these kinds with a field that is
missing or is no number. The start of a line alone decides its kind.
-/

namespace JitTrace

/-- The kinds of lines that report a new code object. -/
inductive Creation where
  | script
  | compileStart
  | compileEnd
  deriving DecidableEq, Repr

/-- A line of the event log that concerns a function. -/
inductive Record where
  | creation (creation : Creation) (time : UInt64) (memory : MemoryArea) (source : String)
  | deoptimization (time : UInt64) (address position reason : String)
  deriving DecidableEq, Repr

namespace Creation

/-- What a line of this kind starts with. -/
def lineStart : Creation → String
  | .script => "code-creation,Script,11"
  | .compileStart => "code-creation,LazyCompile,11"
  | .compileEnd => "code-creation,LazyCompile,0"

/-- Whether the source of such a line has a function name in front. -/
def isNamed : Creation → Bool
  | .script => false
  | .compileStart => true
  | .compileEnd => true

/-- The declaration site in the source of such a line. -/
def locate? (creation : Creation) (source : String) : Option Location :=
  if creation.isNamed then Location.ofNamed? source else Location.ofUnnamed? source

end Creation

namespace Record

/-- What a line about thrown away code starts with. -/
def deoptimizationStart : String := "code-deopt"

/-- A number field: a 64-bit numeral that blanks may surround. -/
def number? (field : String) : Option UInt64 :=
  Text.readUInt64? (Text.trim field)

/-- Reads the fields of a code object: time, start, size and source from the fourth field on.
Further fields are of no interest. -/
def ofCreationLine? (creation : Creation) (line : String) : Option Record :=
  match Text.fields ',' line with
  | _ :: _ :: _ :: time :: start :: size :: source :: _ => do
    let time ← number? time
    let size ← number? size
    return .creation creation time ⟨start, size⟩ source
  | _ => none

/-- Reads the fields of a line about thrown away code. The reason is the ninth field and keeps its
commas; the position before it loses its brackets. -/
def ofDeoptimizationLine? (line : String) : Option Record :=
  match Text.fieldsUpTo ',' 9 line with
  | [_, time, _, address, _, _, _, position, reason] => do
    let time ← number? time
    return .deoptimization time address (Location.stripBrackets position) reason
  | _ => none

/-- Classifies a line of the event log. -/
def parse? (line : String) : Option Record :=
  if Text.startsWith line Creation.script.lineStart then
    ofCreationLine? .script line
  else if Text.startsWith line Creation.compileStart.lineStart then
    ofCreationLine? .compileStart line
  else if Text.startsWith line Creation.compileEnd.lineStart then
    ofCreationLine? .compileEnd line
  else if Text.startsWith line deoptimizationStart then
    ofDeoptimizationLine? line
  else none

end Record

end JitTrace
