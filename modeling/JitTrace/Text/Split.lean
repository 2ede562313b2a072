/-! # Cutting texts at a separator

A text cut once from the left or from the right, or into a bounded number of fields. Cutting into
all fields is core's splitting of lists. The separator itself belongs to no part.
-/

namespace JitTrace.Text

/-- The characters before and after the first separator. -/
def cutFirst (separator : Char) : List Char → Option (List Char × List Char)
  | [] => none
  | char :: rest =>
    if char = separator then some ([], rest)
    else (cutFirst separator rest).map fun parts => (char :: parts.1, parts.2)

/-- The characters before and after the last separator. -/
def cutLast (separator : Char) (chars : List Char) : Option (List Char × List Char) :=
  (cutFirst separator chars.reverse).map fun parts => (parts.2.reverse, parts.1.reverse)

/-- At most `count` fields: the last one keeps the separators that are left. -/
def cutFields (separator : Char) : Nat → List Char → List (List Char)
  | 0, _ => []
  | 1, chars => [chars]
  | count + 2, chars =>
    match cutFirst separator chars with
    | none => [chars]
    | some (field, rest) => field :: cutFields separator (count + 1) rest

/-- The text before and after the first separator. -/
def splitFirst (separator : Char) (text : String) : Option (String × String) :=
  (cutFirst separator text.toList).map fun parts =>
    (String.ofList parts.1, String.ofList parts.2)

/-- The text before and after the last separator. -/
def splitLast (separator : Char) (text : String) : Option (String × String) :=
  (cutLast separator text.toList).map fun parts =>
    (String.ofList parts.1, String.ofList parts.2)

/-- All fields of a text. -/
def fields (separator : Char) (text : String) : List String :=
  (text.toList.splitOn separator).map String.ofList

/-- At most `count` fields of a text. -/
def fieldsUpTo (separator : Char) (count : Nat) (text : String) : List String :=
  (cutFields separator count text.toList).map String.ofList

/-- Whether a text starts with another one. -/
def startsWith (text start : String) : Bool :=
  start.toList.isPrefixOf text.toList

/-- Whether a text ends with another one. -/
def endsWith (text ending : String) : Bool :=
  ending.toList.isSuffixOf text.toList

/-- The text after a given start, if it starts so. -/
def afterStart? (start text : String) : Option String :=
  (start.toList.isPrefixOf? text.toList).map String.ofList

theorem cutFirst_append {separator : Char} {before : List Char} (after : List Char)
    (hbefore : separator ∉ before) :
    cutFirst separator (before ++ separator :: after) = some (before, after) := by
  induction before with
  | nil => simp [cutFirst]
  | cons char rest ih =>
      simp only [List.mem_cons, not_or] at hbefore
      simp [cutFirst, ih hbefore.2, Ne.symm hbefore.1]

theorem cutLast_append {separator : Char} (before : List Char) {after : List Char}
    (hafter : separator ∉ after) :
    cutLast separator (before ++ separator :: after) = some (before, after) := by
  have hreverse : (before ++ separator :: after).reverse =
      after.reverse ++ separator :: before.reverse := by simp
  rw [cutLast, hreverse, cutFirst_append before.reverse (by simpa using hafter)]
  simp

end JitTrace.Text
