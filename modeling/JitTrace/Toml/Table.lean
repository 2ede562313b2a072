/-! # Tables of a configuration text

The values of TOML, as far as a configuration needs them, and the rules by which tables are
defined. Texts and integers are kept; values of other types are only known to be there. A table
that comes up on the way to another one may be defined once later, a table made by dotted keys
takes further dotted keys only, and everything else is defined once.
-/

namespace JitTrace.Toml

/-- A value. -/
inductive Value where
  | text (text : String)
  | integer (value : Int)
  /-- A value of another type. -/
  | other
  deriving DecidableEq, Repr

/-- How a table came up. -/
inductive Origin where
  /-- By its own header, or as the whole text. -/
  | header
  /-- On the way to another table. -/
  | passage
  /-- By a dotted key. -/
  | dotted
  deriving DecidableEq, Repr

/-- What stands under a key. -/
inductive Item where
  | value (value : Value)
  | table (origin : Origin) (entries : List (String × Item))
  /-- An array of tables, the latest first. -/
  | tables (latest : List (String × Item)) (earlier : List (List (String × Item)))

/-- The entries of a table. -/
abbrev Entries := List (String × Item)

/-- The entries with an item under a key, in place of one that is there. -/
def Entries.put (entries : Entries) (key : String) (item : Item) : Entries :=
  entries.filter (fun entry => entry.1 ≠ key) ++ [(key, item)]

/-- A change to a table, told how the table came up. -/
abbrev Change := Origin → Entries → Option Entries

/-- Applies a change to the table that keys lead to, and makes tables that are missing. Dotted
keys pass only tables that have no header. -/
def descend (dotted : Bool) (change : Change) (origin : Origin) (entries : Entries) :
    List String → Option Entries
  | [] => change origin entries
  | key :: rest =>
    match entries.lookup key with
    | none => do
      let made := if dotted then Origin.dotted else Origin.passage
      let inner ← descend dotted change made [] rest
      return entries.put key (.table made inner)
    | some (.value _) => none
    | some (.tables latest earlier) => do
      let inner ← descend dotted change .header latest rest
      return entries.put key (.tables inner earlier)
    | some (.table found held) =>
      if dotted && found = .header then none
      else do
        let inner ← descend dotted change found held rest
        return entries.put key (.table found inner)

/-- Puts a value under a key that is free. A plain key belongs to a table that is not made by
dotted keys, and the last part of a dotted key to one that is. -/
def define (plain : Bool) (key : String) (value : Value) : Change := fun origin entries =>
  if (origin = .dotted) = plain then none
  else if (entries.lookup key).isSome then none
  else some (entries.put key (.value value))

/-- Puts a value under dotted keys into the table that a header's keys lead to. -/
def assign (entries : Entries) (header path : List String) (key : String) (value : Value) :
    Option Entries :=
  descend false
    (fun origin entries => descend true (define path.isEmpty key value) origin entries path)
    .header entries header

/-- Defines the table of a header, unless it is defined. -/
def openTable (entries : Entries) (path : List String) (key : String) : Option Entries :=
  descend false
    (fun _ entries =>
      match entries.lookup key with
      | none => some (entries.put key (.table .header []))
      | some (.table .passage held) => some (entries.put key (.table .header held))
      | some _ => none)
    .header entries path

/-- Appends a table to the array of a header. -/
def appendTable (entries : Entries) (path : List String) (key : String) : Option Entries :=
  descend false
    (fun _ entries =>
      match entries.lookup key with
      | none => some (entries.put key (.tables [] []))
      | some (.tables latest earlier) => some (entries.put key (.tables [] (latest :: earlier)))
      | some _ => none)
    .header entries path

end JitTrace.Toml
