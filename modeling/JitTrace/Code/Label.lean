import JitTrace.Index

/-! # Labels of jump targets

A label names an address that jumps reach. Its name is deduced from how the address is reached,
until the user gives another one. Labels are kept from one rendering to the next and remember the
document they were made for and the output lines they touch there. Identifiers start from zero
again with every rendering, so labels of different renderings may share one.
-/

namespace JitTrace

/-- The symbolic name of a jump target. -/
structure Label where
  id : Nat
  /-- The output line that defines the label, once it is rendered. -/
  line : Option Nat
  jumpCount : UInt32
  /-- The output lines of jumps that show the label. -/
  referencedAt : List Nat
  /-- A name that overrides the deduced one. -/
  userLabel : Option String
  /-- The document the label was made for. -/
  context : String
  /-- Reached by a jump from a higher address. -/
  backward : Bool
  /-- Reached by a jump from a lower address. -/
  forward : Bool
  deriving DecidableEq, Repr

namespace Label

/-- A label that no jump reaches yet. -/
def fresh (id : Nat) (context : String) : Label where
  id := id
  line := none
  jumpCount := 0
  referencedAt := []
  userLabel := none
  context := context
  backward := false
  forward := false

/-- The deduced name: a single jump back makes a loop, several a point of reentry, and jumps
forward a place that is skipped to. -/
def deducedName (label : Label) : String :=
  match label.backward, label.forward with
  | true, false =>
    if label.jumpCount = 1 then s!"loop{label.id}" else s!"reentry{label.id}"
  | false, true => s!"skip{label.id}"
  | _, _ => s!"label{label.id}"

/-- The name shown in rendered code. -/
def displayName (label : Label) : String :=
  label.userLabel.getD label.deducedName

/-- Whether the label is defined or shown on an output line. -/
def touchesLine (label : Label) (line : Nat) : Bool :=
  label.line = some line || label.referencedAt.contains line

/-- Counts a jump from an address to the label's. -/
def countJump (label : Label) (source target : String) : Label :=
  { label with
    jumpCount := label.jumpCount + 1
    backward := label.backward || decide (target < source)
    forward := label.forward || decide (source < target) }

/-- Forgets jumps and positions. Identifier and user's name stay. -/
def resetStatistics (label : Label) : Label :=
  { label with
    line := none, jumpCount := 0, referencedAt := [], backward := false, forward := false }

end Label

/-- Labels by target address, and the identifier of the next new one. -/
structure LabelCache where
  labels : Index Label
  nextId : Nat
  deriving DecidableEq, Repr

namespace LabelCache

/-- The cache without labels. -/
def empty : LabelCache := ⟨∅, 0⟩

instance : EmptyCollection LabelCache := ⟨empty⟩

instance : Inhabited LabelCache := ⟨empty⟩

def size (cache : LabelCache) : Nat :=
  cache.labels.size

def isEmpty (cache : LabelCache) : Bool :=
  cache.labels.isEmpty

/-- The label of an address. -/
def get? (cache : LabelCache) (address : String) : Option Label :=
  cache.labels.get? address

/-- Numbers new labels from zero again. -/
def restartIds (cache : LabelCache) : LabelCache :=
  { cache with nextId := 0 }

/-- The cache with a label at an address, which is made with the next identifier if need be. -/
def ensure (cache : LabelCache) (address context : String) : LabelCache :=
  match cache.get? address with
  | some _ => cache
  | none =>
    ⟨cache.labels.insert address (.fresh cache.nextId context), cache.nextId + 1⟩

/-- The cache with the label of an address changed, if there is one. -/
def modify (cache : LabelCache) (address : String) (change : Label → Label) : LabelCache :=
  { cache with labels := cache.labels.modify address change }

/-- Forgets jumps and positions of the labels of one document, so that rendering it again counts
its jumps afresh. -/
def resetStatistics (cache : LabelCache) (context : String) : LabelCache :=
  { cache with
    labels := cache.labels.mapValues fun label =>
      if label.context = context then label.resetStatistics else label }

/-- Whether one entry stands before another: the smaller identifier first, then the address that
is smaller as text. -/
def precedes (entry other : String × Label) : Bool :=
  entry.2.id < other.2.id || (entry.2.id = other.2.id && entry.1 < other.1)

/-- The entry that stands before all others. -/
def foremost? : List (String × Label) → Option (String × Label)
  | [] => none
  | entry :: rest =>
    match foremost? rest with
    | some best => if precedes best entry then some best else some entry
    | none => some entry

/-- The address of the label of a document that an output line touches. -/
def addressAtLine? (cache : LabelCache) (context : String) (line : Nat) : Option String :=
  (foremost? (cache.labels.entries.filter fun entry =>
    entry.2.context = context && entry.2.touchesLine line)).map Prod.fst

/-- The label of a document that an output line touches. -/
def labelAtLine? (cache : LabelCache) (context : String) (line : Nat) : Option Label := do
  cache.get? (← cache.addressAtLine? context line)

/-- Gives the label that an output line touches a name. The name it showed before is the answer;
without such a label nothing changes. -/
def rename (cache : LabelCache) (context : String) (line : Nat) (name : String) :
    Option String × LabelCache :=
  match cache.addressAtLine? context line with
  | none => (none, cache)
  | some address =>
    ((cache.get? address).map Label.displayName,
      cache.modify address fun label => { label with userLabel := some name })

end LabelCache

end JitTrace
