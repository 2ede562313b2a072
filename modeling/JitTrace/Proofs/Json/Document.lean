import JitTrace.Proofs.Json.Tokens
import Mathlib.Data.List.DropRight

/-! # Written JSON is found again

What is found in the text of a written value is that value, in both layouts and behind any gap: no
part breaks, items and members keep their order, and what comes behind the text is left for later. A
number may be too large to be read, and it is found all the same.
-/

namespace JitTrace.Json

/-! ## Nodes of values -/

namespace Value

mutual

/-- What is found where a value is written. -/
def node : Value → Node
  | .bool value => .bool value
  | .number value => .number (numeralOfNat value)
  | .string text => .string (some text)
  | .array items => .array (nodes items) none
  | .object members => .object (memberNodes members) none

def nodes : List Value → List Node
  | [] => []
  | item :: rest => item.node :: nodes rest

def memberNodes : List (String × Value) → List (Option String × Node)
  | [] => []
  | (key, value) :: rest => (some key, value.node) :: memberNodes rest

end

end Value

/-! ## Starts of values -/

/-- A written value starts with a character that is no gap and closes nothing. -/
theorem exists_write (layout : Layout) (depth : Nat) (value : Value) :
    ∃ char chars, value.write layout depth = char :: chars ∧ isGap (some char) = false ∧
      char ≠ ']' := by
  cases value with
  | bool value => cases value <;> exact ⟨_, _, rfl, by decide⟩
  | number value =>
      obtain ⟨char, chars, hdigits, hdigit⟩ := exists_toString value
      exact ⟨char, chars, hdigits, isGap_of_isDigit hdigit, ne_of_isDigit hdigit (by decide)⟩
  | string text => exact ⟨_, _, rfl, by decide⟩
  | array items => cases items <;> exact ⟨_, _, rfl, by decide⟩
  | object members => cases members <;> exact ⟨_, _, rfl, by decide⟩

theorem dropGap_write (layout : Layout) (depth : Nat) (value : Value) (rest : Input) :
    dropGap ((value.write layout depth).map some ++ rest) =
      (value.write layout depth).map some ++ rest := by
  obtain ⟨char, chars, hwrite, hchar, -⟩ := exists_write layout depth value
  rw [hwrite, List.map_cons, List.cons_append, dropGap_cons hchar]

theorem dropGap_dropGap (input : Input) : dropGap (dropGap input) = dropGap input :=
  List.dropWhile_idempotent _ input

/-! ## Steps of the search -/

section

-- the equations of the search are derived here, once, or every step below would wait for them
attribute [local simp] findValue findItems findMembers

variable {fuel : Nat} {input rest behind : Input}

theorem findValue_number {char : Char} (hdigit : char.isDigit)
    (hinput : dropGap input = some char :: rest) :
    findValue (fuel + 1) input = readNumber false (some char :: rest) := by
  unfold findValue
  simp only [hinput]
  split
  case h_8 => exact if_pos hdigit
  all_goals
    next hletter => exact absurd (Option.some.inj hletter) (ne_of_isDigit hdigit (by decide))

theorem findValue_string {text : Option String} (hinput : dropGap input = some quote :: rest)
    (hstring : readString (fuel + 1) rest = .ok (text, behind)) :
    findValue (fuel + 1) input = (.string text, some behind) := by
  unfold findValue
  simp only [hinput, quote, hstring]

theorem findValue_bool (value : Bool)
    (hinput : dropGap input =
      (if value then "true".toList else "false".toList).map some ++ rest) :
    findValue (fuel + 1) input = (.bool value, some rest) := by
  unfold findValue
  cases value <;> simp only [hinput] <;> rfl

theorem findValue_emptyArray (hinput : dropGap input = some '[' :: rest)
    (hrest : dropGap rest = some ']' :: behind) :
    findValue (fuel + 1) input = (.array [] none, some behind) := by
  unfold findValue
  simp only [hinput, hrest]

theorem findValue_array (hinput : dropGap input = some '[' :: rest)
    (hopen : ∀ behind, dropGap rest ≠ some ']' :: behind) :
    findValue (fuel + 1) input =
      let sequel := findItems fuel (dropGap rest)
      (.array sequel.parts sequel.ending, sequel.rest) := by
  unfold findValue
  simp only [hinput]

theorem findValue_emptyObject (hinput : dropGap input = some '\x7b' :: rest)
    (hrest : dropGap rest = some '\x7d' :: behind) :
    findValue (fuel + 1) input = (.object [] none, some behind) := by
  unfold findValue
  simp only [hinput, hrest]

theorem findValue_object (hinput : dropGap input = some '\x7b' :: rest)
    (hopen : ∀ behind, dropGap rest ≠ some '\x7d' :: behind) :
    findValue (fuel + 1) input =
      let sequel := findMembers fuel (dropGap rest)
      (.object sequel.parts sequel.ending, sequel.rest) := by
  unfold findValue
  simp only [hinput]

theorem findItems_last {item : Node} (hitem : findValue fuel input = (item, some rest))
    (hrest : dropGap rest = some ']' :: behind) :
    findItems (fuel + 1) input = ⟨[item], none, some behind⟩ := by
  unfold findItems
  simp only [hitem, hrest]

theorem findItems_more {item : Node} (hitem : findValue fuel input = (item, some rest))
    (hrest : dropGap rest = some ',' :: behind) {items : List Node} {ending : Option Break}
    {after : Option Input} (hitems : findItems fuel behind = ⟨items, ending, after⟩) :
    findItems (fuel + 1) input = ⟨item :: items, ending, after⟩ := by
  rw [findItems.eq_def]
  simp only [hitem, hrest, hitems]

variable {key : Option String} {value : Node} {afterKey afterColon : Input}

theorem findMembers_last (hinput : dropGap input = some quote :: rest)
    (hkey : readString (fuel + 1) rest = .ok (key, afterKey))
    (hcolon : dropGap afterKey = some ':' :: afterColon)
    {afterValue : Input} (hvalue : findValue fuel afterColon = (value, some afterValue))
    (hrest : dropGap afterValue = some '\x7d' :: behind) :
    findMembers (fuel + 1) input = ⟨[(key, value)], none, some behind⟩ := by
  rw [findMembers.eq_def]
  simp only [hinput, quote, hkey, hcolon, hvalue, hrest]

theorem findMembers_more (hinput : dropGap input = some quote :: rest)
    (hkey : readString (fuel + 1) rest = .ok (key, afterKey))
    (hcolon : dropGap afterKey = some ':' :: afterColon)
    {afterValue : Input} (hvalue : findValue fuel afterColon = (value, some afterValue))
    (hrest : dropGap afterValue = some ',' :: behind) {members : List (Option String × Node)}
    {ending : Option Break} {after : Option Input}
    (hmembers : findMembers fuel behind = ⟨members, ending, after⟩) :
    findMembers (fuel + 1) input = ⟨(key, value) :: members, ending, after⟩ := by
  rw [findMembers.eq_def]
  simp only [hinput, quote, hkey, hcolon, hvalue, hrest, hmembers]

end

/-! ## Found again -/

/-- Wherever a value is written and what comes behind does not go on with it, it is found. -/
def Finds (value : Value) : Prop :=
  ∀ (layout : Layout) (depth fuel : Nat) (input rest : Input),
    2 * (value.write layout depth).length < fuel → EndsNumber rest →
      dropGap input = (value.write layout depth).map some ++ rest →
        findValue fuel input = (value.node, some rest)

theorem length_writeItems_cons (layout : Layout) (depth : Nat) (item : Value)
    (rest : List Value) :
    (Value.writeItems layout depth (item :: rest)).length =
      1 + (layout.gap depth).length + (item.write layout depth).length +
        (Value.writeItems layout depth rest).length := by
  simp only [Value.writeItems, List.length_cons, List.length_append]
  omega

/-- The first of the items that are left, with the others behind it. -/
theorem dropGap_writeItems (layout : Layout) (depth : Nat) (item : Value) (rest : List Value)
    (behind : Input) :
    dropGap ((Value.writeItems layout depth (item :: rest)).tail.map some ++ behind) =
      (item.write layout depth).map some ++
        ((Value.writeItems layout depth rest).map some ++ behind) := by
  rw [Value.writeItems, List.tail_cons, List.map_append, List.map_append, List.append_assoc,
    List.append_assoc, dropGap_append isGap_of_mem_gap, dropGap_write]

theorem length_writeMembers_cons (layout : Layout) (depth : Nat) (key : String) (value : Value)
    (rest : List (String × Value)) :
    (Value.writeMembers layout depth ((key, value) :: rest)).length =
      1 + (layout.gap depth).length + (quoted key).length + layout.colon.length +
        (value.write layout depth).length + (Value.writeMembers layout depth rest).length := by
  simp only [Value.writeMembers, List.length_cons, List.length_append]
  omega

theorem dropGap_writeMembers (layout : Layout) (depth : Nat) (key : String) (value : Value)
    (rest : List (String × Value)) (behind : Input) :
    dropGap ((Value.writeMembers layout depth ((key, value) :: rest)).tail.map some ++ behind) =
      some quote :: ((key.toList.flatMap escapeChar ++ [quote]).map some ++
        (layout.colon.map some ++ ((value.write layout depth).map some ++
          ((Value.writeMembers layout depth rest).map some ++ behind)))) := by
  rw [Value.writeMembers, List.tail_cons]
  simp only [List.map_append, List.append_assoc]
  rw [dropGap_append isGap_of_mem_gap, quoted, List.map_cons, List.cons_append,
    dropGap_cons (by decide), List.map_append, List.append_assoc]

section

variable {layout : Layout} {depth : Nat} {gap rest : Input}

/-- The items of an array are found from the first one on, given what is written behind its opening
bracket. An item takes two from the bound and at least two characters from the text. -/
theorem findItems_write (hgap : ∀ symbol ∈ gap, isGap symbol) {items : List Value}
    (hfinds : ∀ item ∈ items, Finds item) {item : Value} (hitem : Finds item) {fuel : Nat}
    {input : Input}
    (hfuel : 2 * (Value.writeItems layout depth (item :: items)).length ≤ fuel)
    (hinput : dropGap input =
      dropGap ((Value.writeItems layout depth (item :: items)).tail.map some ++
        (gap ++ some ']' :: rest))) :
    findItems (fuel + 1) input = ⟨Value.nodes (item :: items), none, some rest⟩ := by
  have hlength := length_writeItems_cons layout depth item items
  rw [dropGap_writeItems] at hinput
  induction items generalizing item fuel input with
  | nil =>
      have hends : EndsNumber (gap ++ some ']' :: rest) :=
        endsNumber_append hgap (endsNumber_cons (by decide) rest)
      have hfound := hitem layout depth fuel input _ (by omega) hends hinput
      exact findItems_last hfound (dropGap_append hgap _)
  | cons next others ih =>
      obtain ⟨hnext, hothers⟩ := List.forall_mem_cons.mp hfinds
      have hnextLength := length_writeItems_cons layout depth next others
      have hends : EndsNumber ((Value.writeItems layout depth (next :: others)).map some ++
          (gap ++ some ']' :: rest)) := endsNumber_cons (by decide) _
      have hfound := hitem layout depth fuel input _ (by omega) hends hinput
      cases fuel with
      | zero => omega
      | succ fuel =>
          have hitems := ih hothers hnext (by omega : _ ≤ fuel)
            (dropGap_writeItems layout depth next others _) hnextLength
          exact findItems_more hfound rfl hitems

/-- The key of a member, and its value behind the colon. -/
theorem exists_member (layout : Layout) (depth : Nat) (key : String) {value : Value}
    (hvalue : Finds value) (fuel : Nat)
    (hfuel : (quoted key).length + 2 * (value.write layout depth).length < fuel)
    (hrest : EndsNumber rest) :
    ∃ afterColon,
      readString (fuel + 1) ((key.toList.flatMap escapeChar ++ [quote]).map some ++
        (layout.colon.map some ++ ((value.write layout depth).map some ++ rest))) =
          .ok (some key, some ':' :: afterColon) ∧
      findValue fuel afterColon = (value.node, some rest) := by
  obtain ⟨space, hcolon, hspace⟩ := exists_colon layout
  refine ⟨space.map some ++ ((value.write layout depth).map some ++ rest), ?_, ?_⟩
  · rw [readString_quoted (by omega), hcolon]
    rfl
  · apply hvalue layout depth fuel _ rest (by omega) hrest
    rw [dropGap_append hspace, dropGap_write]

/-- The members of an object are found from the first one on. -/
theorem findMembers_write (hgap : ∀ symbol ∈ gap, isGap symbol)
    {members : List (String × Value)} (hfinds : ∀ member ∈ members, Finds member.2)
    {key : String} {value : Value} (hvalue : Finds value) {fuel : Nat} {input : Input}
    (hfuel : 2 * (Value.writeMembers layout depth ((key, value) :: members)).length ≤ fuel)
    (hinput : dropGap input =
      dropGap ((Value.writeMembers layout depth ((key, value) :: members)).tail.map some ++
        (gap ++ some '\x7d' :: rest))) :
    findMembers (fuel + 1) input =
      ⟨Value.memberNodes ((key, value) :: members), none, some rest⟩ := by
  have hlength := length_writeMembers_cons layout depth key value members
  rw [dropGap_writeMembers] at hinput
  induction members generalizing key value fuel input with
  | nil =>
      have hends : EndsNumber (gap ++ some '\x7d' :: rest) :=
        endsNumber_append hgap (endsNumber_cons (by decide) rest)
      obtain ⟨afterColon, hkey, hfound⟩ :=
        exists_member layout depth key hvalue fuel (by omega) hends
      exact findMembers_last hinput hkey rfl hfound (dropGap_append hgap _)
  | cons next others ih =>
      obtain ⟨nextKey, nextValue⟩ := next
      obtain ⟨hnext, hothers⟩ := List.forall_mem_cons.mp hfinds
      have hnextLength := length_writeMembers_cons layout depth nextKey nextValue others
      have hends : EndsNumber
          ((Value.writeMembers layout depth ((nextKey, nextValue) :: others)).map some ++
            (gap ++ some '\x7d' :: rest)) := endsNumber_cons (by decide) _
      obtain ⟨afterColon, hkey, hfound⟩ :=
        exists_member layout depth key hvalue fuel (by omega) hends
      cases fuel with
      | zero => omega
      | succ fuel =>
          have hbound :
              2 * (Value.writeMembers layout depth ((nextKey, nextValue) :: others)).length ≤
                fuel := by omega
          have hmembers := ih hothers hnext hbound
            (dropGap_writeMembers layout depth nextKey nextValue others _) hnextLength
          exact findMembers_more hinput hkey rfl hfound rfl hmembers

end

theorem finds_bool (value : Bool) : Finds (.bool value) := by
  intro layout depth fuel input rest hfuel hrest hinput
  cases fuel with
  | zero => cases hfuel
  | succ fuel =>
      refine findValue_bool value ?_
      rw [hinput]
      cases value <;> rfl

theorem finds_number (value : Nat) : Finds (.number value) := by
  intro layout depth fuel input rest hfuel hrest hinput
  cases fuel with
  | zero => cases hfuel
  | succ fuel =>
      obtain ⟨char, chars, hdigits, hdigit⟩ := exists_toString value
      have hread := readNumber_append value hrest
      rw [Value.write] at hinput
      rw [hdigits, List.map_cons, List.cons_append] at hinput hread
      rw [findValue_number hdigit hinput, hread]
      rfl

theorem finds_string (text : String) : Finds (.string text) := by
  intro layout depth fuel input rest hfuel hrest hinput
  cases fuel with
  | zero => cases hfuel
  | succ fuel =>
      rw [Value.write] at hinput hfuel
      have hread := readString_quoted (by omega : (quoted text).length < fuel + 1) rest
      exact findValue_string hinput hread

theorem finds_array {items : List Value} (hfinds : ∀ item ∈ items, Finds item) :
    Finds (.array items) := by
  intro layout depth fuel input rest hfuel hrest hinput
  cases items with
  | nil =>
      cases fuel with
      | zero => cases hfuel
      | succ fuel => exact findValue_emptyArray hinput rfl
  | cons item items =>
      obtain ⟨hitem, hitems⟩ := List.forall_mem_cons.mp hfinds
      have hlength := length_writeItems_cons layout (depth + 1) item items
      have hstart : dropGap input =
          some '[' :: ((Value.writeItems layout (depth + 1) (item :: items)).tail.map some ++
            ((layout.gap depth).map some ++ some ']' :: rest)) := by
        rw [hinput]
        simp [Value.write, Value.writeItems]
      simp only [Value.write, List.length_cons, List.length_append] at hfuel
      obtain ⟨inner, rfl⟩ : ∃ inner, fuel = inner + 2 := ⟨fuel - 2, by omega⟩
      have hbound : 2 * (Value.writeItems layout (depth + 1) (item :: items)).length ≤ inner := by
        omega
      have hbody := dropGap_dropGap
        ((Value.writeItems layout (depth + 1) (item :: items)).tail.map some ++
          ((layout.gap depth).map some ++ some ']' :: rest))
      rw [findValue_array hstart, findItems_write isGap_of_mem_gap hitems hitem hbound hbody]
      · rfl
      · intro behind hclose
        obtain ⟨char, chars, hwrite, -, hopen⟩ := exists_write layout (depth + 1) item
        rw [dropGap_writeItems, hwrite] at hclose
        injection hclose with hchar
        exact hopen (Option.some.inj hchar)

theorem finds_object {members : List (String × Value)}
    (hfinds : ∀ member ∈ members, Finds member.2) : Finds (.object members) := by
  intro layout depth fuel input rest hfuel hrest hinput
  cases members with
  | nil =>
      cases fuel with
      | zero => cases hfuel
      | succ fuel => exact findValue_emptyObject hinput rfl
  | cons member members =>
      obtain ⟨key, value⟩ := member
      obtain ⟨hvalue, hmembers⟩ := List.forall_mem_cons.mp hfinds
      have hlength := length_writeMembers_cons layout (depth + 1) key value members
      have hstart : dropGap input =
          some '\x7b' ::
            ((Value.writeMembers layout (depth + 1) ((key, value) :: members)).tail.map some ++
              ((layout.gap depth).map some ++ some '\x7d' :: rest)) := by
        rw [hinput]
        simp [Value.write, Value.writeMembers]
      simp only [Value.write, List.length_cons, List.length_append] at hfuel
      obtain ⟨inner, rfl⟩ : ∃ inner, fuel = inner + 2 := ⟨fuel - 2, by omega⟩
      have hbound :
          2 * (Value.writeMembers layout (depth + 1) ((key, value) :: members)).length ≤ inner := by
        omega
      have hbody := dropGap_dropGap
        ((Value.writeMembers layout (depth + 1) ((key, value) :: members)).tail.map some ++
          ((layout.gap depth).map some ++ some '\x7d' :: rest))
      rw [findValue_object hstart, findMembers_write isGap_of_mem_gap hmembers hvalue hbound hbody]
      · rfl
      · intro behind hclose
        rw [dropGap_writeMembers] at hclose
        injection hclose with hchar
        exact absurd hchar (by decide)

mutual

/-- Every value is found where it is written. -/
theorem finds : ∀ value : Value, Finds value
  | .bool value => finds_bool value
  | .number value => finds_number value
  | .string text => finds_string text
  | .array items => finds_array (finds_items items)
  | .object members => finds_object (finds_members members)

theorem finds_items : ∀ items : List Value, ∀ item ∈ items, Finds item
  | [] => List.forall_mem_nil _
  | item :: rest => List.forall_mem_cons.mpr ⟨finds item, finds_items rest⟩

theorem finds_members : ∀ members : List (String × Value), ∀ member ∈ members, Finds member.2
  | [] => List.forall_mem_nil _
  | (_, value) :: rest => List.forall_mem_cons.mpr ⟨finds value, finds_members rest⟩

end

/-- The text of a value holds its node, and nothing behind it. -/
theorem ofInput_write (layout : Layout) (value : Value) :
    Node.ofInput (Input.ofString (String.ofList (value.write layout 0))) =
      (value.node, some []) := by
  have hgap := dropGap_write layout 0 value []
  rw [List.append_nil] at hgap
  rw [Input.ofString, String.toList_ofList]
  apply finds value layout 0 _ _ [] _ endsNumber_nil
  · rw [hgap, List.append_nil]
  · rw [List.length_map]
    omega

/-- Reading the text of a value is decoding its node. -/
theorem readDocument_write {α : Type} (decode : Node → Except Fault α) (layout : Layout)
    (value : Value) :
    readDocument decode (Input.ofString (String.ofList (value.write layout 0))) =
      decode value.node := by
  rw [readDocument, ofInput_write]
  dsimp only
  cases decode value.node <;> rfl

end JitTrace.Json
