import JitTrace.Json.Read
import JitTrace.Json.Value
import JitTrace.Proofs.Text.Numeral

/-! # Tokens of written JSON

The parts that written JSON is made of are read back one by one: gaps are passed over, the digits of
a number are taken as a whole if what comes behind does not go on with it, and every character of a
string is one step of a reader, however it is escaped. A number is natural to a reader if it fits 64
bits.
-/

namespace JitTrace.Json

/-! ## Gaps -/

theorem dropGap_append {gap : Input} (hgap : ∀ symbol ∈ gap, isGap symbol) (rest : Input) :
    dropGap (gap ++ rest) = dropGap rest :=
  List.dropWhile_append_of_pos hgap

theorem dropGap_cons {symbol : Option Char} (hsymbol : isGap symbol = false) (rest : Input) :
    dropGap (symbol :: rest) = symbol :: rest :=
  List.dropWhile_cons_of_neg (Bool.eq_false_iff.mp hsymbol)

theorem isGap_of_mem_gap {layout : Layout} {depth : Nat} :
    ∀ symbol ∈ (layout.gap depth).map some, isGap symbol := by
  intro symbol hmem
  cases layout with
  | compact => cases hmem
  | pretty =>
      rw [Layout.gap, List.map_cons, List.map_replicate, List.mem_cons, List.mem_replicate] at hmem
      rcases hmem with rfl | ⟨-, rfl⟩ <;> rfl

/-- Behind the colon there may be a gap. -/
theorem exists_colon (layout : Layout) :
    ∃ gap : List Char, layout.colon = ':' :: gap ∧ ∀ symbol ∈ gap.map some, isGap symbol := by
  cases layout with
  | compact => exact ⟨[], rfl, List.forall_mem_nil _⟩
  | pretty => exact ⟨[' '], rfl, by decide⟩

/-! ## Numbers -/

/-- A symbol that would belong to the number in front of it. -/
def extendsNumber (symbol : Option Char) : Bool :=
  isDigitSymbol symbol || symbol = some '.' || symbol = some 'e' || symbol = some 'E'

/-- A text that does not go on with the number in front of it. -/
def EndsNumber (rest : Input) : Prop :=
  ∀ symbol ∈ rest.head?, extendsNumber symbol = false

theorem endsNumber_nil : EndsNumber [] := by
  intro symbol hmem
  cases hmem

theorem endsNumber_cons {symbol : Option Char} (hsymbol : extendsNumber symbol = false)
    (rest : Input) : EndsNumber (symbol :: rest) := by
  rintro _ ⟨⟩
  exact hsymbol

theorem endsNumber_append {gap : Input} (hgap : ∀ symbol ∈ gap, isGap symbol) {rest : Input}
    (hrest : EndsNumber rest) : EndsNumber (gap ++ rest) := by
  cases gap with
  | nil => exact hrest
  | cons symbol gap =>
      have hsymbol := hgap symbol List.mem_cons_self
      simp only [isGap, Bool.or_eq_true, decide_eq_true_eq] at hsymbol
      apply endsNumber_cons
      rcases hsymbol with ((rfl | rfl) | rfl) | rfl <;> rfl

theorem ne_of_isDigit {char other : Char} (hdigit : char.isDigit)
    (hother : other.isDigit = false) : char ≠ other := by
  rintro rfl
  rw [hother] at hdigit
  cases hdigit

theorem isGap_of_isDigit {char : Char} (hdigit : char.isDigit) : isGap (some char) = false := by
  simp only [isGap, Bool.or_eq_false_iff, decide_eq_false_iff_not, Option.some.injEq]
  exact ⟨⟨⟨ne_of_isDigit hdigit (by decide), ne_of_isDigit hdigit (by decide)⟩,
    ne_of_isDigit hdigit (by decide)⟩, ne_of_isDigit hdigit (by decide)⟩

/-- A written number starts with a digit. -/
theorem exists_toString (value : Nat) :
    ∃ char chars, (toString value).toList = char :: chars ∧ char.isDigit := by
  obtain ⟨char, chars, hdigits⟩ := List.exists_cons_of_ne_nil
    (Nat.toDigits_ne_nil : Nat.toDigits 10 value ≠ [])
  exact ⟨char, chars, (Text.toList_toString value).trans hdigits,
    Text.isDigit_of_mem_toDigits (hdigits.symm ▸ List.mem_cons_self)⟩

/-- The numeral of a written number. -/
def numeralOfNat (value : Nat) : Numeral :=
  numeralOf false ((toString value).toList.map some) none none

theorem readDigits_append {digits : List Char} (hsome : digits ≠ [])
    (hdigits : ∀ char ∈ digits, char.isDigit) {rest : Input} (hrest : EndsNumber rest) :
    readDigits (digits.map some ++ rest) = .ok (digits.map some, rest) := by
  have hsymbols : ∀ symbol ∈ digits.map some, isDigitSymbol symbol := by
    intro symbol hmem
    obtain ⟨char, hchar, rfl⟩ := List.mem_map.mp hmem
    exact hdigits char hchar
  have htake : rest.takeWhile isDigitSymbol = [] ∧ rest.dropWhile isDigitSymbol = rest := by
    cases rest with
    | nil => exact ⟨rfl, rfl⟩
    | cons symbol rest =>
        have hsymbol := hrest symbol rfl
        simp only [extendsNumber, Bool.or_eq_false_iff] at hsymbol
        simp [hsymbol.1.1.1]
  have hempty : (digits.map some).isEmpty = false := by simpa using hsome
  rw [readDigits, List.takeWhile_append_of_pos hsymbols, List.dropWhile_append_of_pos hsymbols,
    htake.1, htake.2, List.append_nil]
  simp [hempty]

/-- Only zero is written with a zero in front. -/
theorem head?_toDigits {value : Nat} (hpos : 0 < value) :
    (Nat.toDigits 10 value).head? ≠ some '0' := by
  induction value using Nat.strong_induction_on with
  | _ value ih =>
      rcases Nat.lt_or_ge value 10 with hlt | hge
      · rw [Nat.toDigits_of_lt_base hlt, List.head?_singleton, ne_eq, Option.some.injEq,
          Nat.digitChar_eq_zero]
        exact Nat.ne_of_gt hpos
      · rw [Nat.toDigits_of_base_le (by decide) hge,
          List.head?_append, Option.or_of_isSome (by simp [Nat.toDigits_ne_nil])]
        exact ih (value / 10) (by omega) (by omega)

theorem readWhole_append (value : Nat) {rest : Input} (hrest : EndsNumber rest) :
    readWhole ((toString value).toList.map some ++ rest) =
      .ok ((toString value).toList.map some, rest) := by
  rw [Text.toList_toString, readWhole, readDigits_append Nat.toDigits_ne_nil
    (fun char => Text.isDigit_of_mem_toDigits) hrest]
  have hzero : ¬ (((Nat.toDigits 10 value).map some).head? = some (some '0') ∧
      1 < ((Nat.toDigits 10 value).map some).length) := by
    rintro ⟨hhead, hlength⟩
    rcases Nat.eq_zero_or_pos value with rfl | hpos
    · cases hlength with
      | step h => cases h
    · rw [List.head?_map, Option.map_eq_some_iff] at hhead
      obtain ⟨char, hchar, hsome⟩ := hhead
      rw [Option.some.inj hsome] at hchar
      exact head?_toDigits hpos hchar
  simp only [bind, Except.bind, Bool.and_eq_true, decide_eq_true_eq, if_neg hzero]
  rfl

theorem readFraction_of_ends {rest : Input} (hrest : EndsNumber rest) :
    readFraction rest = .ok (none, rest) := by
  unfold readFraction
  split
  next => exact absurd (hrest _ rfl) (by decide)
  next => rfl

theorem readExponent_of_ends {rest : Input} (hrest : EndsNumber rest) :
    readExponent rest = .ok (none, rest) := by
  unfold readExponent
  split
  next => exact absurd (hrest _ rfl) (by decide)
  next => exact absurd (hrest _ rfl) (by decide)
  next => rfl

theorem readNumber_append (value : Nat) {rest : Input} (hrest : EndsNumber rest) :
    readNumber false ((toString value).toList.map some ++ rest) =
      (.number (numeralOfNat value), some rest) := by
  have hnumeral : readNumeral false ((toString value).toList.map some ++ rest) =
      .ok (numeralOfNat value, rest) := by
    rw [readNumeral, readWhole_append value hrest]
    simp only [bind, Except.bind, readFraction_of_ends hrest, readExponent_of_ends hrest]
    rfl
  rw [readNumber, hnumeral]

theorem appendDigit_some (significand : Nat) (char : Char) :
    appendDigit significand (some char) = 10 * significand + (char.toNat - '0'.toNat) := by
  rw [appendDigit, Nat.mul_comm]
  rfl

theorem fitDigits_of_lt {digits : List Char} {significand : Nat}
    (hlt : Nat.ofDigitChars 10 digits significand < UInt64.size) :
    fitDigits significand (digits.map some) = (Nat.ofDigitChars 10 digits significand, []) := by
  induction digits generalizing significand with
  | nil => rfl
  | cons char rest ih =>
      rw [Nat.ofDigitChars_cons] at hlt ⊢
      have hfits := Nat.lt_of_le_of_lt (Text.le_ofDigitChars rest _) hlt
      rw [List.map_cons, fitDigits, appendDigit_some, if_pos hfits, ih hlt]

/-- Digits that fit as a whole come to their value. -/
theorem eq_of_fitDigits {digits : List Char} {significand value : Nat}
    (hfit : fitDigits significand (digits.map some) = (value, [])) :
    value = Nat.ofDigitChars 10 digits significand := by
  induction digits generalizing significand with
  | nil => exact (congrArg Prod.fst hfit).symm
  | cons char rest ih =>
      rw [List.map_cons, fitDigits, appendDigit_some] at hfit
      split at hfit
      next => exact ih hfit
      next => cases hfit

theorem numeralOfNat_of_lt {value : Nat} (hlt : value < UInt64.size) :
    numeralOfNat value = .natural value := by
  have hvalue : Nat.ofDigitChars 10 (Nat.toDigits 10 value) 0 = value :=
    Nat.ofDigitChars_ten_toDigits
  have hfit := fitDigits_of_lt (hvalue.symm ▸ hlt)
  rw [hvalue, ← Text.toList_toString] at hfit
  simp only [numeralOfNat, numeralOf, hfit]
  rfl

theorem eq_of_numeralOfNat {value found : Nat} (hfound : numeralOfNat value = .natural found) :
    found = value := by
  unfold numeralOfNat numeralOf at hfound
  split at hfound
  next hfit _ _ =>
    rw [Text.toList_toString] at hfit
    have hvalue := eq_of_fitDigits hfit
    rw [Nat.ofDigitChars_ten_toDigits] at hvalue
    rw [← hvalue]
    exact (Numeral.natural.inj hfound).symm
  next =>
    dsimp only at hfound
    split at hfound <;> cases hfound

/-! ## Strings -/

theorem hexValue?_digitChar : ∀ digit < 16, Text.hexValue? (Nat.digitChar digit) = some digit := by
  decide

theorem readCode_escapeCode {char : Char} (hcontrol : char.toNat < 0x20) (rest : Input) :
    readCode (some '0' :: some '0' :: some (Nat.digitChar (char.toNat / 16)) ::
      some (Nat.digitChar (char.toNat % 16)) :: rest) = .ok (char.toNat, rest) := by
  have hzero : Text.hexValue? '0' = some 0 := by decide
  have hcode : ((0 * 16 + 0) * 16 + char.toNat / 16) * 16 + char.toNat % 16 = char.toNat := by
    omega
  have hhigh := hexValue?_digitChar (char.toNat / 16) (by omega)
  have hlow := hexValue?_digitChar (char.toNat % 16) (by omega)
  simp only [readCode, Option.bind_some, hzero, hhigh, hlow, hcode]

theorem takeCode_of_control (state : StringState) {char : Char} (hcontrol : char.toNat < 0x20)
    (rest : Input) : takeCode state char.toNat rest = (state.push char, rest) := by
  have hlow : isLowSurrogate char.toNat = false := by
    rw [isLowSurrogate, Bool.and_eq_false_iff, decide_eq_false_iff_not]
    omega
  have hhigh : isHighSurrogate char.toNat = false := by
    rw [isHighSurrogate, Bool.and_eq_false_iff, decide_eq_false_iff_not]
    omega
  rw [takeCode, hlow, hhigh, Char.ofNat_toNat]
  rfl

/-- A character is written with a letter that stands for it, by its code, or as it is. -/
theorem escapeChar_cases (char : Char) :
    (∃ letter, escapeChar char = ['\\', letter] ∧ letter ≠ 'u' ∧
      escapedChar? (some letter) = some char) ∨
    (escapeChar char = escapeCode char ∧ char.toNat < 0x20) ∨
    (escapeChar char = [char] ∧ char ≠ quote ∧ char ≠ '\\' ∧ ¬ char.toNat < 0x20) := by
  unfold escapeChar
  split_ifs with hquote hslash hback hfeed hnewline hreturn htab hcontrol
  · exact Or.inl ⟨quote, rfl, by decide, hquote.symm ▸ rfl⟩
  · exact Or.inl ⟨'\\', rfl, by decide, hslash.symm ▸ rfl⟩
  · exact Or.inl ⟨'b', rfl, by decide, hback.symm ▸ rfl⟩
  · exact Or.inl ⟨'f', rfl, by decide, hfeed.symm ▸ rfl⟩
  · exact Or.inl ⟨'n', rfl, by decide, hnewline.symm ▸ rfl⟩
  · exact Or.inl ⟨'r', rfl, by decide, hreturn.symm ▸ rfl⟩
  · exact Or.inl ⟨'t', rfl, by decide, htab.symm ▸ rfl⟩
  · exact Or.inr (Or.inl ⟨rfl, hcontrol⟩)
  · exact Or.inr (Or.inr ⟨rfl, hquote, hslash, hcontrol⟩)

theorem readStringFrom_letter {letter char : Char} (hletter : letter ≠ 'u')
    (hstands : escapedChar? (some letter) = some char) (fuel : Nat) (state : StringState)
    (rest : Input) :
    readStringFrom (fuel + 1) state (some '\\' :: some letter :: rest) =
      readStringFrom fuel (state.push char) rest := by
  rw [readStringFrom.eq_def]
  simp only [if_neg (by decide : ¬ '\\' = '\x22'), if_neg (by decide : ¬ '\\'.toNat < 0x20),
    if_true]
  split
  next hnil => cases hnil
  next hcode =>
    injection hcode with hsymbol
    exact absurd (Option.some.inj hsymbol) hletter
  next hcons =>
    injection hcons with hsymbol hbehind
    rw [← hsymbol, ← hbehind, hstands]

/-- One step of a reader takes one character, however it is written. -/
theorem readStringFrom_escapeChar (fuel : Nat) (state : StringState) (char : Char)
    (rest : Input) :
    readStringFrom (fuel + 1) state ((escapeChar char).map some ++ rest) =
      readStringFrom fuel (state.push char) rest := by
  rcases escapeChar_cases char with ⟨letter, hwritten, hletter, hstands⟩ | ⟨hwritten, hcontrol⟩ |
      ⟨hwritten, hquote, hslash, hprinted⟩
  · rw [hwritten]
    exact readStringFrom_letter hletter hstands fuel state rest
  · have hread := readCode_escapeCode hcontrol rest
    rw [hwritten, escapeCode]
    simp only [List.map_cons, List.map_nil, List.cons_append, List.nil_append]
    rw [readStringFrom.eq_def]
    simp only [if_neg (by decide : ¬ '\\' = '\x22'), if_neg (by decide : ¬ '\\'.toNat < 0x20),
      if_true, hread, takeCode_of_control state hcontrol]
  · rw [hwritten, List.map_singleton, List.singleton_append, readStringFrom.eq_def]
    exact (if_neg hquote).trans ((if_neg hprinted).trans (if_neg hslash))

theorem readStringFrom_flatMap {chars : List Char} {fuel : Nat} (hfuel : chars.length < fuel)
    (state : StringState) (rest : Input) :
    readStringFrom fuel state
        ((chars.flatMap escapeChar).map some ++ some quote :: rest) =
      .ok (StringState.text? { state with found := chars.reverse ++ state.found }, rest) := by
  induction chars generalizing fuel state with
  | nil =>
      cases fuel with
      | zero => cases hfuel
      | succ fuel => rfl
  | cons char chars ih =>
      cases fuel with
      | zero => cases hfuel
      | succ fuel =>
          rw [List.flatMap_cons, List.map_append, List.append_assoc, readStringFrom_escapeChar,
            ih (Nat.lt_of_succ_lt_succ hfuel), List.reverse_cons, List.append_assoc]
          rfl

theorem length_le_length_quoted (text : String) :
    text.toList.length < (quoted text).length := by
  have hescaped : ∀ chars : List Char, chars.length ≤ (chars.flatMap escapeChar).length := by
    intro chars
    induction chars with
    | nil => exact Nat.le_refl 0
    | cons char chars ih =>
        have hpos : 1 ≤ (escapeChar char).length := by
          rcases escapeChar_cases char with ⟨_, hwritten, -⟩ | ⟨hwritten, -⟩ | ⟨hwritten, -⟩ <;>
            simp [hwritten, escapeCode]
        rw [List.flatMap_cons, List.length_append, List.length_cons]
        omega
  have hbody := hescaped text.toList
  rw [quoted, List.length_cons, List.length_append]
  omega

/-- A written string is read back behind its opening quote. -/
theorem readString_quoted {text : String} {fuel : Nat} (hfuel : (quoted text).length < fuel)
    (rest : Input) :
    readString fuel ((text.toList.flatMap escapeChar ++ [quote]).map some ++ rest) =
      .ok (some text, rest) := by
  have hlength := length_le_length_quoted text
  have htext : StringState.text? ⟨text.toList.reverse ++ [], false, false⟩ = some text := by
    rw [List.append_nil, StringState.text?, List.reverse_reverse, String.ofList_toList]
    rfl
  rw [readString, List.map_append, List.append_assoc, List.map_singleton, List.singleton_append,
    readStringFrom_flatMap (by omega), htext]

end JitTrace.Json
