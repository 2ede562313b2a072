import JitTrace.Fault

/-! # JSON as it is found

What a reader finds in a text that need not be JSON. The tree goes as far as the text makes sense
and holds, at the place where it stops to make sense, a break. Walking the tree in reading order
therefore meets the first thing that is wrong with a text, be it its form or its shape. A value
that nobody asks for is skipped, and skipping looks less closely than reading: it does not mind
a numeral that is too large, or text in which surrogates stand alone or bytes are no text.
-/

namespace JitTrace.Json

/-- Why a text is not the value asked for. -/
inductive Fault where
  /-- The text is no JSON. -/
  | malformed
  /-- The value has another shape. -/
  | mismatch
  /-- The text ends too early. -/
  | truncated
  /-- The text could not be read to its end. -/
  | unreadable (fault : IoFault)
  deriving DecidableEq, Repr

/-- A place where a text stops to make sense: the fault for one who reads the value there, and
for one who skips it. -/
structure Break where
  reading : Fault
  skipping : Fault
  deriving DecidableEq, Repr

/-- The same fault for reading and skipping. -/
def Break.both (fault : Fault) : Break := ⟨fault, fault⟩

/-- A numeral, as far as it matters. -/
inductive Numeral where
  /-- An integer that fits 64 bits without a sign. -/
  | natural (value : Nat)
  /-- A negative, fractional or larger number. -/
  | other
  /-- A number above all that floating point can hold. -/
  | tooLarge
  deriving DecidableEq, Repr

/-- What is found at one place of a text. An array or object that does not end properly holds the
break in place of its end. -/
inductive Node where
  | null
  | bool (value : Bool)
  | number (numeral : Numeral)
  /-- A string, without its text if that cannot be read. -/
  | string (text : Option String)
  | array (items : List Node) (ending : Option Break)
  | object (members : List (Option String × Node)) (ending : Option Break)
  | broken (place : Break)
  deriving Repr

namespace Node

/-- The fault of a node where another shape is asked for. -/
def mismatch : Node → Fault
  | .number .tooLarge => .malformed
  | .string none => .malformed
  | .broken place => place.reading
  | _ => .mismatch

/-- The verdict of the end of an array or object. -/
def checkEnding (ending : Option Break) (view : Break → Fault) : Except Fault Unit :=
  match ending with
  | none => .ok ()
  | some place => .error (view place)

mutual

/-- Skips a value. -/
def skip : Node → Except Fault Unit
  | .array items ending => do
    skipItems items
    checkEnding ending Break.skipping
  | .object members ending => do
    skipMembers members
    checkEnding ending Break.skipping
  | .broken place => .error place.skipping
  | _ => .ok ()

/-- Skips values one after another. -/
def skipItems : List Node → Except Fault Unit
  | [] => .ok ()
  | item :: rest => do
    item.skip
    skipItems rest

/-- Skips members one after another. -/
def skipMembers : List (Option String × Node) → Except Fault Unit
  | [] => .ok ()
  | (_, value) :: rest => do
    value.skip
    skipMembers rest

end

mutual

/-- Reads a value of any shape, with arrays and objects nested less than `depth` deep. -/
def settle (depth : Nat) : Node → Except Fault Unit
  | .array items ending =>
    if depth ≤ 1 then .error .malformed
    else do
      settleItems (depth - 1) items
      checkEnding ending Break.reading
  | .object members ending =>
    if depth ≤ 1 then .error .malformed
    else do
      settleMembers (depth - 1) members
      checkEnding ending Break.reading
  | .number .tooLarge => .error .malformed
  | .string none => .error .malformed
  | .broken place => .error place.reading
  | _ => .ok ()

/-- Reads values of any shape one after another. -/
def settleItems (depth : Nat) : List Node → Except Fault Unit
  | [] => .ok ()
  | item :: rest => do
    item.settle depth
    settleItems depth rest

/-- Reads members of any shape one after another. -/
def settleMembers (depth : Nat) : List (Option String × Node) → Except Fault Unit
  | [] => .ok ()
  | (none, _) :: _ => .error .malformed
  | (some _, value) :: rest => do
    value.settle depth
    settleMembers depth rest

end

end Node

end JitTrace.Json
