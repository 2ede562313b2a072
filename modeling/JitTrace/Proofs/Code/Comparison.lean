import JitTrace.Proofs.Code.Lookup
import Mathlib.Data.Nat.Digits.Lemmas
import Mathlib.Data.String.Basic

/-! # Comparing addresses by their numbers

Rendering compares addresses as texts: to see whether a jump stays in its block, which way it goes,
and which label an address has. The two passes are written here once more for addresses that are
compared by a key, such as the number that they stand for. If keys order the addresses of a block
as their texts do, this makes no difference. Numbers do so for addresses of one width, but not
across widths: as a text, 0x10 comes in front of 0x9.
-/

namespace JitTrace

/-! ## Rendering by keys

A definition with `By` in its name is the one without it, with addresses compared by keys. -/

section Rendering

variable {κ : Type} [LinearOrder κ] (key : String → κ)

def CodeRange.containsBy (range : CodeRange) (address : String) : Bool :=
  !(key range.last < key address || key address < key range.first)

def Label.countJumpBy (label : Label) (source target : String) : Label :=
  { label with
    jumpCount := label.jumpCount + 1
    backward := label.backward || decide (key target < key source)
    forward := label.forward || decide (key source < key target) }

namespace LabelCache

/-- The address under which the label of an address is held: one that has its key, if there is one,
and else the address itself. -/
def heldAs (cache : LabelCache) (address : String) : String :=
  (cache.labels.keys.find? fun held => key held = key address).getD address

def countLineBy (range : CodeRange) (context : String) (cache : LabelCache) (line : String) :
    LabelCache :=
  let { address, instruction } := InstructionLine.ofLine line
  match Jump.ofInstruction? instruction with
  | some (.direct _ target) =>
    if range.containsBy key target then
      let held := cache.heldAs key target
      (cache.ensure held context).modify held fun label => label.countJumpBy key address target
    else cache
  | _ => cache

def discoverBy (range : Option CodeRange) (context : String) (cache : LabelCache)
    (lines : List String) : LabelCache :=
  match range with
  | none => cache
  | some range => lines.foldl (countLineBy key range context) cache

def shownLabelBy? (cache : LabelCache) (range : Option CodeRange) (target : String) :
    Option Label :=
  if range.any fun range => range.containsBy key target then
    cache.get? (cache.heldAs key target)
  else none

def writeInstructionBy (cache : LabelCache) (range : Option CodeRange) (position : Nat)
    (instruction : String) : String × LabelCache :=
  match Jump.ofInstruction? instruction with
  | none => (s!"  {instruction}", cache)
  | some (.indirect mnemonic operand) => (s!"  {mnemonic} {operand}", cache)
  | some (.direct mnemonic target) =>
    match cache.shownLabelBy? key range target with
    | none => (s!"  {mnemonic} {target} (outside)", cache)
    | some label =>
      (s!"  {mnemonic} {label.displayName}",
        cache.modify (cache.heldAs key target) fun label =>
          { label with referencedAt := label.referencedAt ++ [position] })

def writeLineBy (cache : LabelCache) (range : Option CodeRange) (position : Nat)
    (line : String) : List String × LabelCache :=
  if (Text.trim line).isEmpty then ([], cache)
  else
    let { address, instruction } := InstructionLine.ofLine line
    let (definition, cache) := cache.defineAt position (cache.heldAs key address)
    let (written, cache) :=
      cache.writeInstructionBy key range (position + definition.length) instruction
    (definition ++ [written], cache)

def writeLinesBy (cache : LabelCache) (range : Option CodeRange) (position : Nat) :
    List String → List String × LabelCache
  | [] => ([], cache)
  | line :: rest =>
    let (written, cache) := cache.writeLineBy key range position line
    let (more, cache) := cache.writeLinesBy range (position + written.length) rest
    (written ++ more, cache)

/-- Renders a block with addresses compared by keys. -/
def decompileBy (cache : LabelCache) (lines : List String) (context : String) :
    List String × LabelCache :=
  let range := CodeRange.ofBlock? lines
  (cache.restartIds.discoverBy key range context lines).writeLinesBy key range 0 lines

end LabelCache

end Rendering

/-! ## Keys that order addresses as texts -/

/-- All addresses that a line compares are among some: its own, unless the line is blank, and the
one that it jumps to. -/
structure Block.LineWithin (plain : Set String) (line : String) : Prop where
  address : ¬ (Text.trim line).isEmpty → InstructionLine.addressOf line ∈ plain
  target : ∀ jump ∈ DirectJump.ofLine? line, jump.target ∈ plain

theorem Block.LineWithin.mem_target {plain : Set String} {line mnemonic target : String}
    (hline : LineWithin plain line)
    (hjump : Jump.ofInstruction? (InstructionLine.instructionOf line) =
      some (.direct mnemonic target)) : target ∈ plain :=
  hline.target ⟨InstructionLine.addressOf line, target⟩ (by
    rw [DirectJump.ofLine?, hjump, Option.mem_some_iff])

/-- The ends of a range are among some addresses. -/
def CodeRange.Within (plain : Set String) (range : CodeRange) : Prop :=
  range.first ∈ plain ∧ range.last ∈ plain

section Agreement

variable {κ : Type} [LinearOrder κ] {key : String → κ} {plain : Set String}

theorem CodeRange.containsBy_eq (hkey : StrictMonoOn key plain) {range : CodeRange}
    (hrange : range.Within plain) {address : String} (haddress : address ∈ plain) :
    range.containsBy key address = range.contains address := by
  simp only [containsBy, contains, hkey.lt_iff_lt hrange.2 haddress,
    hkey.lt_iff_lt haddress hrange.1]

theorem Label.countJumpBy_eq (hkey : StrictMonoOn key plain) (label : Label)
    {source target : String} (hsource : source ∈ plain) (htarget : target ∈ plain) :
    label.countJumpBy key source target = label.countJump source target := by
  simp only [countJumpBy, countJump, hkey.lt_iff_lt htarget hsource,
    hkey.lt_iff_lt hsource htarget]

namespace LabelCache

variable {cache : LabelCache} {range : CodeRange} {line : String} (context : String)

/-- A label is held under its own address, if all labels have plain addresses. -/
theorem heldAs_eq (hkey : StrictMonoOn key plain) (hheld : ∀ held ∈ cache.labels.keys, held ∈ plain)
    {address : String} (haddress : address ∈ plain) : cache.heldAs key address = address := by
  unfold heldAs
  cases hfound : cache.labels.keys.find? fun held => key held = key address with
  | none => rfl
  | some held =>
      have hsame : key held = key address := by simpa using List.find?_some hfound
      exact hkey.injOn (hheld held (List.mem_of_find?_eq_some hfound)) haddress hsame

theorem mem_keys_countJump (jump : DirectJump) {held : String}
    (hmem : held ∈ (cache.countJump context jump).labels.keys) :
    held = jump.target ∨ held ∈ cache.labels.keys := by
  by_cases heq : held = jump.target
  · exact Or.inl heq
  · right
    rw [← Index.isSome_get?_iff] at hmem ⊢
    have hfound := (cache.get?_countJump context jump held).trans (if_neg heq)
    exact (congrArg Option.isSome hfound).symm.trans hmem

/-- The first pass makes labels for targets only. -/
theorem held_countLine (hheld : ∀ held ∈ cache.labels.keys, held ∈ plain)
    (hline : Block.LineWithin plain line) :
    ∀ held ∈ (countLine range context cache line).labels.keys, held ∈ plain := by
  unfold countLine InstructionLine.ofLine
  dsimp only
  split
  next mnemonic target hjump =>
    split
    next =>
      intro held hmem
      rcases mem_keys_countJump context ⟨InstructionLine.addressOf line, target⟩ hmem with
        rfl | hold
      · exact hline.mem_target hjump
      · exact hheld held hold
    next => exact hheld
  next => exact hheld

theorem countLineBy_eq (hkey : StrictMonoOn key plain) (hrange : range.Within plain)
    (hheld : ∀ held ∈ cache.labels.keys, held ∈ plain) (hline : Block.LineWithin plain line) :
    countLineBy key range context cache line = countLine range context cache line := by
  simp only [countLineBy, countLine, InstructionLine.ofLine]
  cases hjump : Jump.ofInstruction? (InstructionLine.instructionOf line) with
  | none => rfl
  | some jump =>
      cases jump with
      | indirect mnemonic operand => rfl
      | direct mnemonic target =>
          have htarget := hline.mem_target hjump
          have hsource := hline.address (InstructionLine.not_isEmpty_trim_of_jump hjump)
          simp only [CodeRange.containsBy_eq hkey hrange htarget, heldAs_eq hkey hheld htarget,
            Label.countJumpBy_eq hkey _ hsource htarget]

/-- The first passes agree, and make labels for plain addresses only. -/
theorem discoverBy_eq (hkey : StrictMonoOn key plain) {range : Option CodeRange}
    (hrange : ∀ ends ∈ range, ends.Within plain)
    (hheld : ∀ held ∈ cache.labels.keys, held ∈ plain) {lines : List String}
    (hlines : ∀ line ∈ lines, Block.LineWithin plain line) :
    cache.discoverBy key range context lines = cache.discover range context lines ∧
      ∀ held ∈ (cache.discover range context lines).labels.keys, held ∈ plain := by
  unfold discoverBy discover
  cases range with
  | none => exact ⟨rfl, hheld⟩
  | some ends =>
      dsimp only
      induction lines generalizing cache with
      | nil => exact ⟨rfl, hheld⟩
      | cons line rest ih =>
          have hline := hlines line List.mem_cons_self
          rw [List.foldl_cons, List.foldl_cons,
            countLineBy_eq context hkey (hrange ends rfl) hheld hline]
          exact ih (held_countLine context hheld hline) fun other hother =>
            hlines other (List.mem_cons_of_mem line hother)

theorem shownLabelBy?_eq (hkey : StrictMonoOn key plain) {range : Option CodeRange}
    (hrange : ∀ ends ∈ range, ends.Within plain)
    (hheld : ∀ held ∈ cache.labels.keys, held ∈ plain) {target : String}
    (htarget : target ∈ plain) :
    cache.shownLabelBy? key range target = cache.shownLabel? range target := by
  have hany : (range.any fun ends => ends.containsBy key target) =
      range.any fun ends => ends.contains target := by
    cases range with
    | none => rfl
    | some ends => exact CodeRange.containsBy_eq hkey (hrange ends rfl) htarget
  rw [shownLabelBy?, shownLabel?, hany, heldAs_eq hkey hheld htarget]

variable {position : Nat}

theorem writeInstructionBy_eq (hkey : StrictMonoOn key plain) {range : Option CodeRange}
    (hrange : ∀ ends ∈ range, ends.Within plain)
    (hheld : ∀ held ∈ cache.labels.keys, held ∈ plain) (hline : Block.LineWithin plain line) :
    cache.writeInstructionBy key range position (InstructionLine.instructionOf line) =
      cache.writeInstruction range position (InstructionLine.instructionOf line) := by
  unfold writeInstructionBy writeInstruction
  cases hjump : Jump.ofInstruction? (InstructionLine.instructionOf line) with
  | none => rfl
  | some jump =>
      cases jump with
      | indirect mnemonic operand => rfl
      | direct mnemonic target =>
          have htarget := hline.mem_target hjump
          have hheldAs := heldAs_eq hkey hheld htarget
          have hshown := shownLabelBy?_eq hkey hrange hheld htarget
          cases hlabel : cache.shownLabel? range target with
          | none => simp only [hshown, hlabel]
          | some label => simp only [hshown, hlabel, hheldAs]

theorem writeLineBy_eq (hkey : StrictMonoOn key plain) {range : Option CodeRange}
    (hrange : ∀ ends ∈ range, ends.Within plain)
    (hheld : ∀ held ∈ cache.labels.keys, held ∈ plain) (hline : Block.LineWithin plain line) :
    cache.writeLineBy key range position line = cache.writeLine range position line := by
  unfold writeLineBy writeLine
  split
  next => rfl
  next hsolid =>
    have haddress := heldAs_eq hkey hheld (hline.address hsolid)
    -- a definition in front of the instruction makes no label
    have hdefined : ∀ held ∈ (cache.defineAt position
        (InstructionLine.addressOf line)).2.labels.keys, held ∈ plain := by
      rw [keys_defineAt]
      exact hheld
    simp only [InstructionLine.ofLine, haddress, writeInstructionBy_eq hkey hrange hdefined hline]

theorem writeLinesBy_eq (hkey : StrictMonoOn key plain) {range : Option CodeRange}
    (hrange : ∀ ends ∈ range, ends.Within plain)
    (hheld : ∀ held ∈ cache.labels.keys, held ∈ plain) {lines : List String}
    (hlines : ∀ line ∈ lines, Block.LineWithin plain line) :
    cache.writeLinesBy key range position lines = cache.writeLines range position lines := by
  induction lines generalizing cache position with
  | nil => rfl
  | cons line rest ih =>
      have hwritten : ∀ held ∈ (cache.writeLine range position line).2.labels.keys,
          held ∈ plain := by
        rw [keys_writeLine]
        exact hheld
      have hrest (next : Nat) :
          (cache.writeLine range position line).2.writeLinesBy key range next rest =
            (cache.writeLine range position line).2.writeLines range next rest :=
        ih hwritten fun other hother => hlines other (List.mem_cons_of_mem line hother)
      simp only [writeLinesBy, writeLines,
        writeLineBy_eq hkey hrange hheld (hlines line List.mem_cons_self), hrest]

/-- Comparing addresses by keys makes no difference, if the keys order them as their texts do. -/
theorem decompileBy_eq (hkey : StrictMonoOn key plain)
    (hheld : ∀ held ∈ cache.labels.keys, held ∈ plain) {lines : List String}
    (hrange : ∀ range ∈ CodeRange.ofBlock? lines, range.Within plain)
    (hlines : ∀ line ∈ lines, Block.LineWithin plain line) :
    cache.decompileBy key lines context = cache.decompile lines context := by
  have hrestart : ∀ held ∈ cache.restartIds.labels.keys, held ∈ plain := hheld
  obtain ⟨hdiscover, hfound⟩ := discoverBy_eq context hkey hrange hrestart hlines
  unfold decompileBy decompile
  dsimp only
  rw [hdiscover]
  exact writeLinesBy_eq hkey hrange hfound hlines

/-- With texts for keys, this is rendering itself. -/
theorem decompileBy_id (cache : LabelCache) (lines : List String) (context : String) :
    cache.decompileBy id lines context = cache.decompile lines context :=
  decompileBy_eq context (strictMono_id.strictMonoOn Set.univ) (fun _ _ => Set.mem_univ _)
    (fun _ _ => ⟨Set.mem_univ _, Set.mem_univ _⟩)
    fun _ _ => ⟨fun _ => Set.mem_univ _, fun _ _ => Set.mem_univ _⟩

end LabelCache

end Agreement

/-! ## Hexadecimal addresses -/

namespace Address

/-- The lower-case hexadecimal digits. -/
def IsDigit (char : Char) : Prop :=
  char.isDigit ∨ 'a' ≤ char ∧ char ≤ 'f'

instance : DecidablePred IsDigit :=
  fun _ => inferInstanceAs (Decidable (_ ∨ _))

/-- The number that a digit stands for. -/
def digitNumber (digit : Char) : Nat :=
  if digit.isDigit then digit.toNat - '0'.toNat else digit.toNat - 'a'.toNat + 10

/-- The number that digits stand for, the last one for units. -/
def numberOf (digits : List Char) : Nat :=
  Nat.ofDigits 16 (digits.reverse.map digitNumber)

/-- The digits of an address. -/
def digits (address : String) : List Char :=
  address.toList.drop Jump.addressStart.length

/-- The number that an address stands for. -/
def number (address : String) : Nat :=
  numberOf (digits address)

/-- The addresses that are written with so many digits. -/
def ofWidth (width : Nat) : Set String :=
  { address | address.toList = Jump.addressStart.toList ++ digits address ∧
    (digits address).length = width ∧ ∀ digit ∈ digits address, IsDigit digit }

-- There are finitely many characters, but it is the digits that are to be gone through.
instance (width : Nat) : DecidablePred (· ∈ ofWidth width) :=
  fun address =>
    have : Decidable (∀ digit ∈ digits address, IsDigit digit) := List.decidableBAll _ _
    inferInstanceAs (Decidable (_ ∧ _ ∧ _))

/-- A digit lies in one of two ranges of characters, the first one before the second. -/
theorem digitNumber_cases {digit : Char} (hdigit : IsDigit digit) :
    (48 ≤ digit.toNat ∧ digit.toNat ≤ 57 ∧ digitNumber digit = digit.toNat - 48) ∨
      (97 ≤ digit.toNat ∧ digit.toNat ≤ 102 ∧ digitNumber digit = digit.toNat - 97 + 10) := by
  have hle (low high : Char) : low ≤ high ↔ low.toNat ≤ high.toNat := by
    rw [Char.le_def, UInt32.le_iff_toNat_le]; rfl
  unfold digitNumber
  by_cases hdecimal : digit.isDigit
  · rw [if_pos hdecimal]
    have hbounds : '0' ≤ digit ∧ digit ≤ '9' := by
      simpa [Char.isDigit, Char.le_def] using hdecimal
    rw [hle, hle] at hbounds
    exact Or.inl ⟨hbounds.1, hbounds.2, rfl⟩
  · rw [if_neg hdecimal]
    have hbounds : 'a' ≤ digit ∧ digit ≤ 'f' := hdigit.resolve_left hdecimal
    rw [hle, hle] at hbounds
    exact Or.inr ⟨hbounds.1, hbounds.2, rfl⟩

theorem digitNumber_lt_sixteen {digit : Char} (hdigit : IsDigit digit) :
    digitNumber digit < 16 := by
  rcases digitNumber_cases hdigit with hcase | hcase <;> omega

/-- Digits are ordered as the numbers that they stand for. -/
theorem digitNumber_lt_iff {digit other : Char} (hdigit : IsDigit digit) (hother : IsDigit other) :
    digitNumber digit < digitNumber other ↔ digit < other := by
  rw [Char.lt_def, UInt32.lt_iff_toNat_lt]
  change _ ↔ digit.toNat < other.toNat
  rcases digitNumber_cases hdigit with hcase | hcase <;>
    rcases digitNumber_cases hother with hcase' | hcase' <;> omega

theorem digitNumber_inj {digit other : Char} (hdigit : IsDigit digit) (hother : IsDigit other) :
    digitNumber digit = digitNumber other ↔ digit = other := by
  refine ⟨fun hsame => ?_, congrArg digitNumber⟩
  refine le_antisymm (not_lt.mp fun hlt => ?_) (not_lt.mp fun hlt => ?_)
  · exact hsame.not_gt ((digitNumber_lt_iff hother hdigit).mpr hlt)
  · exact hsame.not_lt ((digitNumber_lt_iff hdigit hother).mpr hlt)

theorem numberOf_cons (digit : Char) (digits : List Char) :
    numberOf (digit :: digits) = numberOf digits + 16 ^ digits.length * digitNumber digit := by
  simp [numberOf, Nat.ofDigits_append]

theorem numberOf_lt {digits : List Char} (hdigits : ∀ digit ∈ digits, IsDigit digit) :
    numberOf digits < 16 ^ digits.length := by
  have hlt := Nat.ofDigits_lt_base_pow_length (b := 16) (l := digits.reverse.map digitNumber)
    (by decide) fun number hnumber => by
      obtain ⟨digit, hdigit, rfl⟩ := List.mem_map.mp hnumber
      exact digitNumber_lt_sixteen (hdigits digit (List.mem_reverse.mp hdigit))
  simpa [numberOf] using hlt

/-- A number below the base only counts if what stands before it is the same. -/
theorem add_mul_lt_add_mul_iff {base low high low' high' : Nat} (hlow : low < base)
    (hlow' : low' < base) :
    low + base * high < low' + base * high' ↔ high < high' ∨ high = high' ∧ low < low' := by
  rcases lt_trichotomy high high' with hlt | rfl | hlt
  · have hstep : base * high + base ≤ base * high' := Nat.mul_le_mul_left base hlt
    simp only [hlt, true_or, iff_true]
    omega
  · simp
  · have hstep : base * high' + base ≤ base * high := Nat.mul_le_mul_left base hlt
    simp only [hlt.not_gt, hlt.ne', false_and, or_false, iff_false]
    omega

/-- Numerals of one length are ordered as the numbers that they stand for. -/
theorem numberOf_lt_iff {digits others : List Char} (hlength : digits.length = others.length)
    (hdigits : ∀ digit ∈ digits, IsDigit digit) (hothers : ∀ other ∈ others, IsDigit other) :
    numberOf digits < numberOf others ↔ digits < others := by
  induction digits generalizing others with
  | nil =>
      obtain rfl : others = [] := List.length_eq_zero_iff.mp hlength.symm
      simp
  | cons digit digits ih =>
      obtain ⟨other, others, rfl⟩ := List.exists_cons_of_length_eq_add_one hlength.symm
      obtain ⟨hdigit, hdigits⟩ := List.forall_mem_cons.mp hdigits
      obtain ⟨hother, hothers⟩ := List.forall_mem_cons.mp hothers
      have hlength : digits.length = others.length := Nat.succ.inj hlength
      have hrest := hlength ▸ numberOf_lt hdigits
      rw [numberOf_cons, numberOf_cons, hlength,
        add_mul_lt_add_mul_iff hrest (numberOf_lt hothers), digitNumber_lt_iff hdigit hother,
        digitNumber_inj hdigit hother, ih hlength hdigits hothers, List.cons_lt_cons_iff]

/-- Addresses of one width are ordered as the numbers that they stand for. -/
theorem strictMonoOn_number (width : Nat) : StrictMonoOn number (ofWidth width) := by
  rintro address ⟨haddress, hlength, hdigits⟩ other ⟨hother, hlength', hothers⟩ hlt
  rw [String.lt_iff_toList_lt, haddress, hother] at hlt
  rw [number, number, numberOf_lt_iff (hlength.trans hlength'.symm) hdigits hothers]
  simpa [Jump.addressStart, List.cons_lt_cons_iff] using hlt

end Address

namespace LabelCache

/-- The ends of the range of a block are addresses of lines in front of the terminator. -/
theorem within_of_ofBlock? {plain : Set String} {lines : List String} (terminator : String)
    (haddress : ∀ line ∈ lines, InstructionLine.addressOf line ∈ plain) :
    ∀ range ∈ CodeRange.ofBlock? (lines ++ [terminator]), range.Within plain := by
  intro range hrange
  unfold CodeRange.ofBlock? at hrange
  rw [List.dropLast_concat] at hrange
  cases lines with
  | nil => simp at hrange
  | cons first rest =>
      obtain rfl : range = ⟨InstructionLine.addressOf first,
          InstructionLine.addressOf ((first :: rest).getLast (List.cons_ne_nil first rest))⟩ := by
        simpa [List.getLast?_eq_some_getLast (List.cons_ne_nil first rest)] using hrange.symm
      exact ⟨haddress first List.mem_cons_self, haddress _ (List.getLast_mem _)⟩

/-- Comparing addresses as texts is sound for addresses of one width: rendering is the same, text
and labels, as with addresses compared by the numbers that they stand for. -/
theorem decompile_by_number {width : Nat} {lines : List String} (context : String)
    (hsolid : ∀ line ∈ lines, ¬ (Text.trim line).isEmpty)
    (hplain : ∀ line ∈ lines, Block.LineWithin (Address.ofWidth width) line) :
    (∅ : LabelCache).decompileBy Address.number (lines ++ [""]) context =
      (∅ : LabelCache).decompile (lines ++ [""]) context := by
  have hterminator : Block.LineWithin (Address.ofWidth width) "" :=
    ⟨fun hsolid => absurd (by decide) hsolid, fun _ hjump => nomatch hjump⟩
  have hempty : ∀ held ∈ (∅ : LabelCache).labels.keys, held ∈ Address.ofWidth width :=
    fun _ hheld => absurd hheld List.not_mem_nil
  have hrange := within_of_ofBlock? "" fun line hline =>
    (hplain line hline).address (hsolid line hline)
  refine decompileBy_eq context (Address.strictMonoOn_number width) hempty hrange ?_
  intro line hline
  rcases List.mem_append.mp hline with hline | hline
  · exact hplain line hline
  · exact List.mem_singleton.mp hline ▸ hterminator

/-- A block with jumps both ways, whose addresses have a letter among their digits. -/
theorem decompile_by_number_loop :
    let lines := [
      "0x0f                          00 jz 0x11",
      "0x10                          00 jnz 0x0f",
      "0x11                          00 ret"]
    (∀ line ∈ lines, ¬ (Text.trim line).isEmpty) ∧
      (∀ line ∈ lines, Block.LineWithin (Address.ofWidth 2) line) ∧
      (∅ : LabelCache).decompileBy Address.number (lines ++ [""]) "a.asm" =
        (∅ : LabelCache).decompile (lines ++ [""]) "a.asm" ∧
      ((∅ : LabelCache).decompileBy Address.number (lines ++ [""]) "a.asm").1 =
        ["loop1:", "  jz skip0", "  jnz loop1", "skip0:", "  ret"] := by
  intro lines
  have hsolid : ∀ line ∈ lines, ¬ (Text.trim line).isEmpty := by decide +kernel
  have hplain : ∀ line ∈ lines, Block.LineWithin (Address.ofWidth 2) line := by
    have haddress : ∀ line ∈ lines, InstructionLine.addressOf line ∈ Address.ofWidth 2 := by
      decide +kernel
    have htarget : ∀ line ∈ lines, ∀ jump ∈ DirectJump.ofLine? line,
        jump.target ∈ Address.ofWidth 2 := by
      decide +kernel
    exact fun line hline => ⟨fun _ => haddress line hline, htarget line hline⟩
  have hsame := decompile_by_number "a.asm" hsolid hplain
  exact ⟨hsolid, hplain, hsame, (congrArg Prod.fst hsame).trans (by decide +kernel)⟩

end LabelCache

end JitTrace
