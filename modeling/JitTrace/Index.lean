/-! # Indexes by text

A finite map from texts to values that keeps its keys in the order in which they came. Each key
occurs once; inserting under a key that is there replaces its value in place.
-/

namespace JitTrace

universe u

/-- A finite map from texts, in insertion order. -/
structure Index (α : Type u) where
  entries : List (String × α)
  deriving Repr, DecidableEq

namespace Index

variable {α : Type u}

/-- The index without keys. -/
def empty : Index α := ⟨[]⟩

instance : EmptyCollection (Index α) := ⟨empty⟩

instance : Inhabited (Index α) := ⟨empty⟩

/-- The value under a key. -/
def get? (index : Index α) (key : String) : Option α :=
  index.entries.lookup key

/-- The number of keys. -/
def size (index : Index α) : Nat :=
  index.entries.length

def isEmpty (index : Index α) : Bool :=
  index.entries.isEmpty

/-- The keys, in insertion order. -/
def keys (index : Index α) : List String :=
  index.entries.map Prod.fst

/-- The entries with a value put under a key. -/
def put (key : String) (value : α) : List (String × α) → List (String × α)
  | [] => [(key, value)]
  | entry :: rest => if entry.1 = key then (key, value) :: rest else entry :: put key value rest

/-- The index with a value under a key. -/
def insert (index : Index α) (key : String) (value : α) : Index α :=
  ⟨put key value index.entries⟩

/-- The index with the value under a key changed, if the key is there. -/
def modify (index : Index α) (key : String) (change : α → α) : Index α :=
  match index.get? key with
  | some value => index.insert key (change value)
  | none => index

/-- The index with every value changed. -/
def mapValues {β : Type u} (index : Index α) (change : α → β) : Index β :=
  ⟨index.entries.map fun entry => (entry.1, change entry.2)⟩

theorem lookup_put (key wanted : String) (value : α) (entries : List (String × α)) :
    (put key value entries).lookup wanted =
      if wanted = key then some value else entries.lookup wanted := by
  induction entries with
  | nil =>
      by_cases hwanted : wanted = key
      · simp [put, hwanted]
      · simp [put, List.lookup_cons, beq_eq_false_iff_ne.2 hwanted, hwanted]
  | cons entry rest ih =>
      obtain ⟨found, held⟩ := entry
      by_cases hkey : found = key
      · by_cases hwanted : wanted = key
        · simp [put, hkey, hwanted]
        · simp [put, hkey, hwanted, List.lookup_cons, beq_eq_false_iff_ne.2 hwanted]
      · by_cases hfound : wanted = found
        · simp [put, hkey, hfound]
        · simp [put, hkey, List.lookup_cons, beq_eq_false_iff_ne.2 hfound, ih]

@[simp]
theorem get?_empty (wanted : String) : (∅ : Index α).get? wanted = none := rfl

/-- Inserting changes what is found under its key and nothing else. -/
theorem get?_insert (index : Index α) (key wanted : String) (value : α) :
    (index.insert key value).get? wanted =
      if wanted = key then some value else index.get? wanted :=
  lookup_put key wanted value index.entries

end Index

end JitTrace
