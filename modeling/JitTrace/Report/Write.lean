import JitTrace.Json.Value
import JitTrace.Report.Basic

/-! # Reports as JSON values

The JSON value of each part of a report. An event is one object whose members depend on its kind;
a compile time that is not known has no member.
-/

namespace JitTrace

open Json (Value)

def MemoryArea.toJson (memory : MemoryArea) : Value :=
  .object [("start", .string memory.start), ("size", .number memory.size.toNat)]

/-- The members in which kinds of events differ. -/
def EventKind.members : EventKind → List (String × Value)
  | .parse memory => [("memory", memory.toJson)]
  | .compileStart => []
  | .compileEnd memory => [("memory", memory.toJson)]
  | .deoptimize reason position => [("reason", .string reason), ("from", .string position)]

def Event.toJson (event : Event) : Value :=
  .object (("at", .number event.time.toNat) :: ("name", .string event.label) ::
    event.kind.members)

def Declaration.toJson (declaration : Declaration) : Value :=
  .object [("line", .number declaration.line.toNat),
    ("column", .number declaration.column.toNat),
    ("length", .number declaration.length.toNat)]

/-- The member for a compile time, if it is known. -/
def FunctionInsight.compileTimeMember (function : FunctionInsight) : List (String × Value) :=
  match function.compileTime with
  | some time => [("compile_time", .number time.toNat)]
  | none => []

def FunctionInsight.toJson (function : FunctionInsight) : Value :=
  .object ([("name", .string function.name),
    ("declaration", function.declaration.toJson),
    ("events", .array (function.events.map Event.toJson)),
    ("is_compiled", .bool function.isCompiled),
    ("was_deoptimized", .bool function.wasDeoptimized)] ++ function.compileTimeMember)

def FileInsight.toJson (file : FileInsight) : Value :=
  .object [("filename", .string file.filename),
    ("functions", .array (file.functions.map FunctionInsight.toJson))]

def Report.toJson (report : Report) : Value :=
  .object [("version", .string report.version),
    ("event_log", .string report.eventLog),
    ("function_count", .number report.functionCount),
    ("deoptimized_count", .number report.deoptimizedCount),
    ("files", .array (report.files.map FileInsight.toJson)),
    ("generated_at", .string report.generatedAt)]

/-- The text of a report file. -/
def Report.text (report : Report) : String :=
  report.toJson.pretty

/-- The history of a function as indented JSON. -/
def FunctionInsight.historyJson (function : FunctionInsight) : String :=
  (Value.array (function.events.map Event.toJson)).pretty

end JitTrace
