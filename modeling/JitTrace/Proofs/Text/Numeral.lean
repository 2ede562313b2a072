import JitTrace.Proofs.Text.Blank
import JitTrace.Text.Decimal

/-! # Printed numerals

A number is printed by its decimal digits. Reading them gives the number back wherever it fits, and
trimming leaves them alone.
-/

namespace JitTrace.Text

/-! ## Digits -/

theorem toList_toString (value : Nat) : (toString value).toList = Nat.toDigits 10 value := by
  rw [Nat.toString_eq_ofList_toDigits, String.toList_ofList]

theorem isDigit_of_mem_toDigits {value : Nat} {char : Char}
    (hmem : char ∈ Nat.toDigits 10 value) : char.isDigit :=
  Nat.isDigit_of_mem_toDigits (by decide) (Nat.le_refl 10) hmem

theorem isDigit_of_mem_toString {value : Nat} {char : Char}
    (hmem : char ∈ (toString value).toList) : char.isDigit := by
  rw [toList_toString] at hmem
  exact isDigit_of_mem_toDigits hmem

/-- A printed number holds nothing but digits. -/
theorem not_mem_toString {char : Char} (hchar : char.isDigit = false) (value : Nat) :
    char ∉ (toString value).toList := by
  intro hmem
  rw [isDigit_of_mem_toString hmem] at hchar
  cases hchar

theorem isBlank_eq_false_of_isDigit {char : Char} (hdigit : char.isDigit) :
    isBlank char = false := by
  have hbounds : 48 ≤ char.toNat ∧ char.toNat ≤ 57 := by
    simpa [Char.isDigit, UInt32.le_iff_toNat_le] using hdigit
  exact isBlank_eq_false_of_lt (by omega) (by omega)

theorem trim_toString (value : Nat) : trim (toString value) = toString value :=
  trim_eq_self fun _ hmem => isBlank_eq_false_of_isDigit (isDigit_of_mem_toString hmem)

/-! ## Reading -/

theorem le_ofDigitChars (digits : List Char) (value : Nat) :
    value ≤ Nat.ofDigitChars 10 digits value := by
  rw [Nat.ofDigitChars_eq_ofDigitChars_zero]
  have hpower : 0 < 10 ^ digits.length := Nat.pow_pos (by decide)
  exact Nat.le_add_right_of_le (Nat.le_mul_of_pos_left value hpower)

theorem readDigits_of_lt {bound value : Nat} {digits : List Char}
    (hdigits : ∀ char ∈ digits, char.isDigit)
    (hlt : Nat.ofDigitChars 10 digits value < bound) :
    readDigits bound value digits = .ok (Nat.ofDigitChars 10 digits value) := by
  induction digits generalizing value with
  | nil => rfl
  | cons char rest ih =>
      have hchar : digitValue? char = some (char.toNat - '0'.toNat) :=
        if_pos (hdigits char List.mem_cons_self)
      have hvalue : value * 10 + (char.toNat - '0'.toNat) =
          10 * value + (char.toNat - '0'.toNat) := by rw [Nat.mul_comm]
      rw [Nat.ofDigitChars_cons] at hlt ⊢
      -- a prefix is never above the whole, so no digit in between breaks the bound
      have hfits := Nat.lt_of_le_of_lt (le_ofDigitChars rest _) hlt
      simp only [readDigits, hchar, hvalue, hfits, if_true]
      exact ih (fun other hmem => hdigits other (List.mem_cons_of_mem _ hmem)) hlt

theorem readNumeral_of_isDigit {bound : Nat} {digits : List Char} (hsome : digits ≠ [])
    (hdigits : ∀ char ∈ digits, char.isDigit) :
    readNumeral bound digits = readDigits bound 0 digits := by
  unfold readNumeral
  split
  next => exact absurd rfl hsome
  next => exact absurd (hdigits '+' List.mem_cons_self) (by decide)
  next => exact absurd (hdigits '+' List.mem_cons_self) (by decide)
  next => rfl

/-- A printed number below the bound is read back. -/
theorem readDecimal_toString {bound value : Nat} (hlt : value < bound) :
    readDecimal bound (toString value) = .ok value := by
  have hdigits : ∀ char ∈ Nat.toDigits 10 value, char.isDigit :=
    fun char => isDigit_of_mem_toDigits
  have hvalue : Nat.ofDigitChars 10 (Nat.toDigits 10 value) 0 = value :=
    Nat.ofDigitChars_ten_toDigits
  rw [readDecimal, toList_toString, readNumeral_of_isDigit Nat.toDigits_ne_nil hdigits,
    readDigits_of_lt hdigits (hvalue.symm ▸ hlt), hvalue]

theorem readUInt64?_toString (value : UInt64) :
    readUInt64? (toString value.toNat) = some value := by
  rw [readUInt64?, readDecimal_toString value.toNat_lt_size]
  exact congrArg some UInt64.ofNat_toNat

theorem readUInt32?_toString (value : UInt32) :
    readUInt32? (toString value.toNat) = some value := by
  rw [readUInt32?, readDecimal_toString value.toNat_lt_size]
  exact congrArg some UInt32.ofNat_toNat

/-- No two numbers are printed alike. -/
theorem eq_of_toString_toNat {value other : UInt32}
    (hsame : toString value.toNat = toString other.toNat) : value = other := by
  have hread := readUInt32?_toString value
  rw [hsame, readUInt32?_toString] at hread
  exact (Option.some.inj hread).symm

/-! ## What can be read -/

theorem isDigit_of_readDigits {bound value result : Nat} {digits : List Char}
    (hread : readDigits bound value digits = .ok result) : ∀ char ∈ digits, char.isDigit := by
  induction digits generalizing value with
  | nil => simp
  | cons char rest ih =>
      simp only [readDigits, digitValue?] at hread
      by_cases hdigit : char.isDigit
      · simp only [hdigit, if_true] at hread
        split at hread
        next => simpa using ⟨hdigit, ih hread⟩
        next => cases hread
      · simp [hdigit] at hread

/-- A numeral is made of digits, of which there is at least one, with or without a plus sign in
front. -/
theorem digits_of_readNumeral {bound result : Nat} {chars : List Char}
    (hread : readNumeral bound chars = .ok result) :
    ∃ digits, digits ≠ [] ∧ (∀ char ∈ digits, char.isDigit) ∧
      (chars = digits ∨ chars = '+' :: digits) := by
  unfold readNumeral at hread
  split at hread
  next => cases hread
  next => cases hread
  next digits hsome =>
    exact ⟨digits, fun hnone => hsome (hnone ▸ rfl), isDigit_of_readDigits hread, Or.inr rfl⟩
  next hsome _ _ => exact ⟨chars, hsome, isDigit_of_readDigits hread, Or.inl rfl⟩

theorem digits_of_readUInt32? {text : String} {value : UInt32}
    (hread : readUInt32? text = some value) :
    ∃ digits, digits ≠ [] ∧ (∀ char ∈ digits, char.isDigit) ∧
      (text.toList = digits ∨ text.toList = '+' :: digits) := by
  obtain ⟨result, hresult, -⟩ := Option.map_eq_some_iff.mp hread
  rw [readDecimal] at hresult
  cases hnumeral : readNumeral UInt32.size text.toList with
  | error fault => simp [hnumeral, Except.toOption] at hresult
  | ok found => exact digits_of_readNumeral hnumeral

/-- No character but digits and the plus sign stands in a numeral. -/
theorem not_mem_of_readUInt32? {text : String} {value : UInt32}
    (hread : readUInt32? text = some value) {char : Char} (hdigit : ¬ char.isDigit)
    (hplus : char ≠ '+') : char ∉ text.toList := by
  obtain ⟨digits, -, hdigits, htext⟩ := digits_of_readUInt32? hread
  have hrest : char ∉ digits := fun hmem => hdigit (hdigits char hmem)
  rcases htext with htext | htext
  · rwa [htext]
  · simpa [htext] using ⟨hplus, hrest⟩

theorem exists_getLast?_of_readUInt32? {text : String} {value : UInt32}
    (hread : readUInt32? text = some value) :
    ∃ last, text.toList.getLast? = some last ∧ last.isDigit := by
  obtain ⟨digits, hsome, hdigits, htext⟩ := digits_of_readUInt32? hread
  refine ⟨digits.getLast hsome, ?_, hdigits _ (List.getLast_mem hsome)⟩
  rcases htext with htext | htext
  · rw [htext, List.getLast?_eq_some_getLast hsome]
  · rw [htext, List.getLast?_cons, List.getLast?_eq_some_getLast hsome, Option.getD_some]

end JitTrace.Text
