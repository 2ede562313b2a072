import JitTrace.Json.Decode
import JitTrace.Report.Basic

/-! # Reports out of JSON

Reading a report, or one event, back from what was found in a text. Each record is first a draft
in which fields may be missing. The members of an event other than its time are kept until the
object ends, since they mean nothing before the kind is known; what is wrong with them is then a
matter of their shape.
-/

namespace JitTrace

open Json (Node Fault once required)

/-! ## Events -/

/-- The fields of a memory area. -/
structure MemoryDraft where
  start : Option String
  size : Option UInt64

namespace MemoryDraft

def step (_depth : Nat) (draft : MemoryDraft) (name : String) (node : Node) :
    Except Fault MemoryDraft := do
  match name with
  | "start" => return { draft with start := ← once draft.start node.asString }
  | "size" => return { draft with size := ← once draft.size node.asUInt64 }
  | _ =>
    node.skip
    return draft

def finish (draft : MemoryDraft) : Except Fault MemoryArea := do
  return ⟨← required draft.start, ← required draft.size⟩

end MemoryDraft

def MemoryArea.ofJson (depth : Nat) (node : Node) : Except Fault MemoryArea := do
  (← node.foldRecord ["start", "size"] MemoryDraft.step ⟨none, none⟩ depth).finish

/-- The kinds of events, without what goes with them. -/
inductive EventTag where
  | parse
  | compileStart
  | compileEnd
  | deoptimize
  deriving DecidableEq, Repr

/-- The kind that a value names, by its label or by its number. -/
def EventTag.ofJson : Node → Except Fault EventTag
  | .string (some "parse") => .ok .parse
  | .string (some "compile-start") => .ok .compileStart
  | .string (some "compile-end") => .ok .compileEnd
  | .string (some "deoptimize") => .ok .deoptimize
  | .number (.natural 0) => .ok .parse
  | .number (.natural 1) => .ok .compileStart
  | .number (.natural 2) => .ok .compileEnd
  | .number (.natural 3) => .ok .deoptimize
  | _ => .error .mismatch

/-- The only value under a key. -/
def soleMember (key : String) (members : List (String × Node)) : Except Fault Node :=
  match members.filter fun member => member.1 = key with
  | [member] => .ok member.2
  | _ => .error .mismatch

/-- The kind of an event, from the members that were kept. -/
def EventKind.ofMembers (members : List (String × Node)) : Except Fault EventKind := do
  match ← EventTag.ofJson (← soleMember "name" members) with
  | .parse => return .parse (← MemoryArea.ofJson Json.depthLimit (← soleMember "memory" members))
  | .compileStart => return .compileStart
  | .compileEnd =>
    return .compileEnd (← MemoryArea.ofJson Json.depthLimit (← soleMember "memory" members))
  | .deoptimize =>
    let reason ← (← soleMember "reason" members).asString
    let position ← (← soleMember "from" members).asString
    return .deoptimize reason position

/-- The time of an event, and its other members in order. -/
structure EventDraft where
  time : Option UInt64
  members : List (String × Node)

namespace EventDraft

def step (depth : Nat) (draft : EventDraft) (name : String) (node : Node) :
    Except Fault EventDraft := do
  match name with
  | "at" => return { draft with time := ← once draft.time node.asUInt64 }
  | _ =>
    node.settle depth
    return { draft with members := draft.members ++ [(name, node)] }

def finish (draft : EventDraft) : Except Fault Event := do
  let time ← required draft.time
  match EventKind.ofMembers draft.members with
  | .ok kind => return ⟨time, kind⟩
  | .error _ => .error .mismatch

end EventDraft

def Event.ofJson (depth : Nat) (node : Node) : Except Fault Event := do
  (← node.foldObject EventDraft.step ⟨none, []⟩ depth).finish

/-! ## Functions and files -/

/-- The fields of a declaration. -/
structure DeclarationDraft where
  line : Option UInt32
  column : Option UInt32
  length : Option UInt32

namespace DeclarationDraft

def step (_depth : Nat) (draft : DeclarationDraft) (name : String) (node : Node) :
    Except Fault DeclarationDraft := do
  match name with
  | "line" => return { draft with line := ← once draft.line node.asUInt32 }
  | "column" => return { draft with column := ← once draft.column node.asUInt32 }
  | "length" => return { draft with length := ← once draft.length node.asUInt32 }
  | _ =>
    node.skip
    return draft

def finish (draft : DeclarationDraft) : Except Fault Declaration := do
  return ⟨← required draft.line, ← required draft.column, ← required draft.length⟩

end DeclarationDraft

def Declaration.ofJson (depth : Nat) (node : Node) : Except Fault Declaration := do
  (← node.foldRecord ["line", "column", "length"] DeclarationDraft.step ⟨none, none, none⟩
    depth).finish

/-- The fields of a function. The compile time may be missing or null. -/
structure FunctionDraft where
  name : Option String
  declaration : Option Declaration
  events : Option (List Event)
  isCompiled : Option Bool
  wasDeoptimized : Option Bool
  compileTime : Option (Option UInt64)

namespace FunctionDraft

def step (depth : Nat) (draft : FunctionDraft) (name : String) (node : Node) :
    Except Fault FunctionDraft := do
  match name with
  | "name" => return { draft with name := ← once draft.name node.asString }
  | "declaration" =>
    return { draft with declaration := ← once draft.declaration (Declaration.ofJson depth node) }
  | "events" =>
    return { draft with events := ← once draft.events (node.asList Event.ofJson depth) }
  | "is_compiled" => return { draft with isCompiled := ← once draft.isCompiled node.asBool }
  | "was_deoptimized" =>
    return { draft with wasDeoptimized := ← once draft.wasDeoptimized node.asBool }
  | "compile_time" =>
    return { draft with compileTime := ← once draft.compileTime (node.asOption Node.asUInt64) }
  | _ =>
    node.skip
    return draft

def finish (draft : FunctionDraft) : Except Fault FunctionInsight := do
  return {
    name := ← required draft.name
    declaration := ← required draft.declaration
    events := ← required draft.events
    isCompiled := ← required draft.isCompiled
    wasDeoptimized := ← required draft.wasDeoptimized
    compileTime := draft.compileTime.getD none }

end FunctionDraft

def FunctionInsight.ofJson (depth : Nat) (node : Node) : Except Fault FunctionInsight := do
  let names := ["name", "declaration", "events", "is_compiled", "was_deoptimized", "compile_time"]
  (← node.foldRecord names FunctionDraft.step ⟨none, none, none, none, none, none⟩ depth).finish

/-- The fields of a file. -/
structure FileDraft where
  filename : Option String
  functions : Option (List FunctionInsight)

namespace FileDraft

def step (depth : Nat) (draft : FileDraft) (name : String) (node : Node) :
    Except Fault FileDraft := do
  match name with
  | "filename" => return { draft with filename := ← once draft.filename node.asString }
  | "functions" =>
    return { draft with
      functions := ← once draft.functions (node.asList FunctionInsight.ofJson depth) }
  | _ =>
    node.skip
    return draft

def finish (draft : FileDraft) : Except Fault FileInsight := do
  return ⟨← required draft.filename, ← required draft.functions⟩

end FileDraft

def FileInsight.ofJson (depth : Nat) (node : Node) : Except Fault FileInsight := do
  (← node.foldRecord ["filename", "functions"] FileDraft.step ⟨none, none⟩ depth).finish

/-! ## Reports -/

/-- The fields of a report. -/
structure ReportDraft where
  version : Option String
  eventLog : Option String
  functionCount : Option Nat
  deoptimizedCount : Option Nat
  files : Option (List FileInsight)
  generatedAt : Option String

namespace ReportDraft

/-- A count fits 64 bits. -/
def count (node : Node) : Except Fault Nat :=
  node.asNat UInt64.size

def step (depth : Nat) (draft : ReportDraft) (name : String) (node : Node) :
    Except Fault ReportDraft := do
  match name with
  | "version" => return { draft with version := ← once draft.version node.asString }
  | "event_log" => return { draft with eventLog := ← once draft.eventLog node.asString }
  | "function_count" =>
    return { draft with functionCount := ← once draft.functionCount (count node) }
  | "deoptimized_count" =>
    return { draft with deoptimizedCount := ← once draft.deoptimizedCount (count node) }
  | "files" =>
    return { draft with files := ← once draft.files (node.asList FileInsight.ofJson depth) }
  | "generated_at" => return { draft with generatedAt := ← once draft.generatedAt node.asString }
  | _ =>
    node.skip
    return draft

def finish (draft : ReportDraft) : Except Fault Report := do
  return {
    version := ← required draft.version
    eventLog := ← required draft.eventLog
    functionCount := ← required draft.functionCount
    deoptimizedCount := ← required draft.deoptimizedCount
    files := ← required draft.files
    generatedAt := ← required draft.generatedAt }

end ReportDraft

def Report.ofJson (depth : Nat) (node : Node) : Except Fault Report := do
  let names :=
    ["version", "event_log", "function_count", "deoptimized_count", "files", "generated_at"]
  (← node.foldRecord names ReportDraft.step ⟨none, none, none, none, none, none⟩ depth).finish

/-- Reads a report from a text. -/
def Report.read (input : Json.Input) : Except Fault Report :=
  Json.readDocument (Report.ofJson Json.depthLimit) input

/-- Reads one event from a text. -/
def Event.read (input : Json.Input) : Except Fault Event :=
  Json.readDocument (Event.ofJson Json.depthLimit) input

/-- Reads a history from a text. -/
def Event.readHistory (input : Json.Input) : Except Fault (List Event) :=
  Json.readDocument (Node.asList Event.ofJson Json.depthLimit) input

end JitTrace
