import JitTrace.Json.Read

/-! # Reading values of a known shape

Taking texts, numbers, lists and records out of what was found in a JSON text. Everything is
looked at in reading order, and the first thing wrong decides the fault. A record may stand as an
object, whose members come in any order and where unknown ones are skipped, or as an array of its
fields in their own order.
-/

namespace JitTrace.Json

/-- How deep arrays and objects may nest: less than this. -/
def depthLimit : Nat := 128

/-- A field that must be there. -/
def required {α : Type} : Option α → Except Fault α
  | some value => .ok value
  | none => .error .mismatch

/-- Reads a field that must not come twice. -/
def once {α : Type} (known : Option α) (read : Except Fault α) : Except Fault (Option α) :=
  match known with
  | some _ => .error .mismatch
  | none => some <$> read

namespace Node

def asString : Node → Except Fault String
  | .string (some text) => .ok text
  | node => .error node.mismatch

def asBool : Node → Except Fault Bool
  | .bool value => .ok value
  | node => .error node.mismatch

/-- A natural number below a bound. -/
def asNat (bound : Nat) : Node → Except Fault Nat
  | .number (.natural value) => if value < bound then .ok value else .error .mismatch
  | node => .error node.mismatch

def asUInt32 (node : Node) : Except Fault UInt32 :=
  UInt32.ofNat <$> node.asNat UInt32.size

def asUInt64 (node : Node) : Except Fault UInt64 :=
  UInt64.ofNat <$> node.asNat UInt64.size

/-- A value that may be null. -/
def asOption {α : Type} (decode : Node → Except Fault α) : Node → Except Fault (Option α)
  | .null => .ok none
  | node => some <$> decode node

/-- An array of values, each of which is read one level deeper. -/
def asList {α : Type} (decode : Nat → Node → Except Fault α) (depth : Nat) :
    Node → Except Fault (List α)
  | .array items ending =>
    if depth ≤ 1 then .error .malformed
    else do
      let values ← items.mapM (decode (depth - 1))
      checkEnding ending Break.reading
      return values
  | node => .error node.mismatch

/-- Steps through the members of an object. A key without a text cannot be read. -/
def foldMembers {σ : Type} (step : σ → String → Node → Except Fault σ) (state : σ) :
    List (Option String × Node) → Except Fault σ
  | [] => .ok state
  | (none, _) :: _ => .error .malformed
  | (some key, value) :: rest => do foldMembers step (← step state key value) rest

/-- Steps through the items of an array, one for each name. An item too many stands where the
array has to end. -/
def foldItems {σ : Type} (step : σ → String → Node → Except Fault σ) (ending : Option Break)
    (state : σ) : List String → List Node → Except Fault σ
  | [], [] => do
    checkEnding ending Break.reading
    return state
  | [], _ :: _ => .error .malformed
  | _ :: _, [] => do
    checkEnding ending Break.reading
    .error .mismatch
  | name :: names, item :: items => do foldItems step ending (← step state name item) names items

/-- Steps through the members of an object. The step is told how deep the members' values may
nest. -/
def foldObject {σ : Type} (step : Nat → σ → String → Node → Except Fault σ) (state : σ)
    (depth : Nat) : Node → Except Fault σ
  | .object members ending =>
    if depth ≤ 1 then .error .malformed
    else do
      let state ← foldMembers (step (depth - 1)) state members
      checkEnding ending Break.reading
      return state
  | node => .error node.mismatch

/-- Steps through the fields of a record with the given names. -/
def foldRecord {σ : Type} (names : List String)
    (step : Nat → σ → String → Node → Except Fault σ) (state : σ) (depth : Nat) :
    Node → Except Fault σ
  | .array items ending =>
    if depth ≤ 1 then .error .malformed
    else foldItems (step (depth - 1)) ending state names items
  | node => foldObject step state depth node

end Node

end JitTrace.Json
