import JitTrace.Insight.Summary
import JitTrace.Proofs.Store.Run
import JitTrace.Proofs.Text.Numeral
import JitTrace.Proofs.Text.Words

/-! # Printed durations

A duration is printed in parts, each a count of a unit, and so it can be read back part by part. The
counts are the digits of the duration in base 1000, with all that is above a second in the first of
them. A part is printed if the duration is above one of its unit, not if it is one: one millisecond
and one second are the only durations that lose a digit which is not zero. One second still has two
parts, but one millisecond is printed like no time at all.
-/

namespace JitTrace

/-! ## Parts -/

/-- The units of a printed duration. -/
inductive DurationUnit where
  | second
  | millisecond
  | microsecond
  deriving DecidableEq, Repr

namespace DurationUnit

/-- How a unit is written behind its count. -/
def symbol : DurationUnit → String
  | .second => "s"
  | .millisecond => "ms"
  | .microsecond => "μs"

/-- The number of microseconds in a unit. -/
def micros : DurationUnit → Nat
  | .second => 1000000
  | .millisecond => 1000
  | .microsecond => 1

/-- The unit that is written so. -/
def ofSymbol? (text : String) : Option DurationUnit :=
  [second, millisecond, microsecond].find? fun unit => unit.symbol = text

theorem ofSymbol?_symbol (unit : DurationUnit) : ofSymbol? unit.symbol = some unit := by
  cases unit <;> decide

theorem exists_symbol_eq_cons (unit : DurationUnit) :
    ∃ char rest, unit.symbol.toList = char :: rest ∧ char.isDigit = false := by
  cases unit <;> exact ⟨_, _, rfl, by decide⟩

theorem words_symbol (unit : DurationUnit) : Text.words unit.symbol = [unit.symbol] := by
  cases unit <;> decide

end DurationUnit

/-- A count of a unit. -/
structure DurationPart where
  count : UInt64
  unit : DurationUnit
  deriving DecidableEq, Repr

namespace DurationPart

/-- The word that a part is printed as. -/
def text (part : DurationPart) : String :=
  toString part.count.toNat ++ part.unit.symbol

/-- The microseconds in a part. -/
def micros (part : DurationPart) : Nat :=
  part.count.toNat * part.unit.micros

/-- Reads a word as a numeral with the symbol of a unit behind it. -/
def read? (word : String) : Option DurationPart := do
  let count ← Text.readUInt64? (String.ofList (word.toList.takeWhile Char.isDigit))
  let unit ← DurationUnit.ofSymbol? (String.ofList (word.toList.dropWhile Char.isDigit))
  return ⟨count, unit⟩

/-- The digits of a word are its count, and what stands behind them is its unit. -/
theorem digits_of_text (part : DurationPart) :
    part.text.toList.takeWhile Char.isDigit = (toString part.count.toNat).toList ∧
      part.text.toList.dropWhile Char.isDigit = part.unit.symbol.toList := by
  have hdigits : ∀ char ∈ (toString part.count.toNat).toList, char.isDigit :=
    fun char hmem => Text.isDigit_of_mem_toString hmem
  obtain ⟨char, rest, hsymbol, hchar⟩ := part.unit.exists_symbol_eq_cons
  rw [text, String.toList_append, List.takeWhile_append_of_pos hdigits,
    List.dropWhile_append_of_pos hdigits, hsymbol]
  simp [hchar]

/-- A part is read off its word. -/
theorem read?_text (part : DurationPart) : read? part.text = some part := by
  obtain ⟨hcount, hunit⟩ := part.digits_of_text
  rw [read?, hcount, hunit, String.ofList_toList, String.ofList_toList,
    Text.readUInt64?_toString, DurationUnit.ofSymbol?_symbol]
  rfl

theorem words_text (part : DurationPart) : Text.words part.text = [part.text] := by
  obtain ⟨hsome, hsolid⟩ := Text.words_eq_singleton_iff.mp part.unit.words_symbol
  refine Text.words_of_solid ?_ ?_
  · simp [text, hsome]
  · rw [text, String.toList_append, List.forall_mem_append]
    exact ⟨fun char hmem => Text.isBlank_eq_false_of_isDigit (Text.isDigit_of_mem_toString hmem),
      hsolid⟩

end DurationPart

namespace Duration

/-- The text of a duration with given parts. -/
def print (parts : List DurationPart) : String :=
  " ".intercalate (parts.map DurationPart.text)

/-- Reads the words of a text as parts of a duration. -/
def read? (text : String) : Option (List DurationPart) :=
  (Text.words text).mapM DurationPart.read?

/-- The microseconds in all parts. -/
def total (parts : List DurationPart) : Nat :=
  (parts.map DurationPart.micros).sum

@[simp] theorem total_nil : total [] = 0 := rfl

@[simp] theorem total_cons (part : DurationPart) (parts : List DurationPart) :
    total (part :: parts) = part.micros + total parts := rfl

theorem words_print (parts : List DurationPart) :
    Text.words (print parts) = parts.map DurationPart.text := by
  rw [print, Text.words_intercalate]
  apply Text.flatMap_words_eq_self
  intro text htext
  obtain ⟨part, -, rfl⟩ := List.mem_map.mp htext
  exact part.words_text

/-- Whatever parts are printed are read back. -/
theorem read?_print (parts : List DurationPart) : read? (print parts) = some parts := by
  rw [read?, words_print]
  induction parts with
  | nil => rfl
  | cons part parts ih =>
      rw [List.map_cons, List.mapM_cons, part.read?_text, ih]
      rfl

theorem print_injective : Function.Injective print := by
  intro parts others hsame
  have hread := read?_print parts
  rw [hsame, read?_print] at hread
  exact (Option.some.inj hread).symm

/-! ## The parts of a duration -/

/-- The parts that a duration is printed in. -/
inductive PrintedIn (micros : UInt64) : List DurationPart → Prop where
  | microseconds (hle : micros.toNat ≤ 1000) : PrintedIn micros [⟨micros % 1000, .microsecond⟩]
  | milliseconds (hlt : 1000 < micros.toNat) (hle : micros.toNat ≤ 1000000) :
      PrintedIn micros [⟨micros / 1000 % 1000, .millisecond⟩, ⟨micros % 1000, .microsecond⟩]
  | seconds (hlt : 1000000 < micros.toNat) :
      PrintedIn micros [⟨micros / 1000000, .second⟩, ⟨micros / 1000 % 1000, .millisecond⟩,
        ⟨micros % 1000, .microsecond⟩]

theorem exists_printedIn (micros : UInt64) : ∃ parts, PrintedIn micros parts := by
  rcases Nat.lt_or_ge 1000000 micros.toNat with hlt | hle
  · exact ⟨_, .seconds hlt⟩
  · rcases Nat.lt_or_ge 1000 micros.toNat with hlt | hle'
    · exact ⟨_, .milliseconds hlt hle⟩
    · exact ⟨_, .microseconds hle'⟩

namespace PrintedIn

variable {micros : UInt64} {parts : List DurationPart}

theorem formatDuration_eq (hparts : PrintedIn micros parts) :
    formatDuration (some micros) = print parts := by
  rw [formatDuration, formatMicroseconds, ← String.toList_inj]
  cases hparts with
  | microseconds hle =>
      rw [if_neg (by omega), if_neg (by omega)]
      simp [print, DurationPart.text, DurationUnit.symbol, toString]
  | milliseconds hlt hle =>
      rw [if_neg (by omega), if_pos hlt]
      simp [print, DurationPart.text, DurationUnit.symbol, toString]
  | seconds hlt =>
      rw [if_pos hlt, if_pos (by omega)]
      simp [print, DurationPart.text, DurationUnit.symbol, toString]

theorem read?_formatDuration (hparts : PrintedIn micros parts) :
    read? (formatDuration (some micros)) = some parts := by
  rw [hparts.formatDuration_eq, read?_print]

/-- Microseconds are always printed, and a larger unit is if the duration is above it. -/
theorem units_eq (hparts : PrintedIn micros parts) :
    parts.map DurationPart.unit =
      (if 1000000 < micros.toNat then [.second] else []) ++
      (if 1000 < micros.toNat then [.millisecond] else []) ++ [.microsecond] := by
  cases hparts with
  | microseconds hle =>
      rw [if_neg (by omega), if_neg (by omega)]
      rfl
  | milliseconds hlt hle =>
      rw [if_neg (by omega), if_pos hlt]
      rfl
  | seconds hlt =>
      rw [if_pos hlt, if_pos (by omega)]
      rfl

/-- Only seconds are counted to a thousand and more. -/
theorem count_lt (hparts : PrintedIn micros parts) {part : DurationPart} (hpart : part ∈ parts)
    (hunit : part.unit ≠ .second) : part.count < 1000 := by
  have hdigit (value : UInt64) : value % 1000 < 1000 := UInt64.mod_lt value (by decide)
  cases hparts with
  | microseconds hle =>
      obtain rfl := List.mem_singleton.mp hpart
      exact hdigit micros
  | milliseconds hlt hle =>
      simp only [List.mem_cons, List.not_mem_nil, or_false] at hpart
      rcases hpart with rfl | rfl <;> exact hdigit _
  | seconds hlt =>
      simp only [List.mem_cons, List.not_mem_nil, or_false] at hpart
      rcases hpart with rfl | rfl | rfl
      · exact absurd rfl hunit
      · exact hdigit _
      · exact hdigit _

theorem mem_units_iff (hparts : PrintedIn micros parts) (unit : DurationUnit) :
    unit ∈ parts.map DurationPart.unit ↔ unit = .microsecond ∨ unit.micros < micros.toNat := by
  rw [hparts.units_eq]
  cases unit <;> simp [DurationUnit.micros]

/-- The parts of a duration add up to it, unless it is just the unit of a part that is left out. -/
theorem total_eq (hparts : PrintedIn micros parts) :
    total parts =
      if micros.toNat = 1000 ∨ micros.toNat = 1000000 then 0 else micros.toNat := by
  have hseconds : (micros / 1000000).toNat = micros.toNat / 1000000 := by simp
  have hmilliseconds : (micros / 1000 % 1000).toNat = micros.toNat / 1000 % 1000 := by simp
  have hmicroseconds : (micros % 1000).toNat = micros.toNat % 1000 := by simp
  cases hparts with
  | microseconds hle =>
      simp only [total_cons, total_nil, DurationPart.micros, DurationUnit.micros, hmicroseconds]
      split <;> omega
  | milliseconds hlt hle =>
      simp only [total_cons, total_nil, DurationPart.micros, DurationUnit.micros, hmicroseconds,
        hmilliseconds]
      split <;> omega
  | seconds hlt =>
      rw [if_neg (by omega)]
      simp only [total_cons, total_nil, DurationPart.micros, DurationUnit.micros, hmicroseconds,
        hmilliseconds, hseconds]
      omega

end PrintedIn

/-- Two durations are printed alike only if they are the same, or if one of them is no time and the
other one is just a millisecond. -/
theorem formatDuration_eq_iff {time other : UInt64} :
    formatDuration (some time) = formatDuration (some other) ↔
      time = other ∨ (time = 0 ∧ other = 1000) ∨ (time = 1000 ∧ other = 0) := by
  constructor
  · intro hsame
    obtain ⟨parts, hparts⟩ := exists_printedIn time
    obtain ⟨others, hothers⟩ := exists_printedIn other
    rw [hparts.formatDuration_eq, hothers.formatDuration_eq] at hsame
    obtain rfl := print_injective hsame
    -- no time, a millisecond and a second have the same total; the second has units of its own
    have hunits (unit : DurationUnit) (hunit : unit ≠ .microsecond) :
        unit.micros < time.toNat ↔ unit.micros < other.toNat := by
      have hmem := (hparts.mem_units_iff unit).symm.trans (hothers.mem_units_iff unit)
      simpa only [hunit, false_or] using hmem
    have hsecond : 1000000 < time.toNat ↔ 1000000 < other.toNat := hunits .second (by decide)
    have hmillisecond : 1000 < time.toNat ↔ 1000 < other.toNat := hunits .millisecond (by decide)
    have htotal := hparts.total_eq.symm.trans hothers.total_eq
    simp only [← UInt64.toNat_inj, UInt64.reduceToNat]
    split at htotal <;> split at htotal <;> omega
  · rintro (rfl | ⟨rfl, rfl⟩ | ⟨rfl, rfl⟩) <;> rfl

/-- The words of a duration make up its text, and none of them is a dash. -/
theorem words_formatDuration (time : Option UInt64) :
    " ".intercalate (Text.words (formatDuration time)) = formatDuration time ∧
      ∀ word ∈ Text.words (formatDuration time), word ≠ "-" := by
  cases time with
  | none => decide
  | some micros =>
      obtain ⟨parts, hparts⟩ := exists_printedIn micros
      rw [hparts.formatDuration_eq, words_print]
      refine ⟨rfl, ?_⟩
      rintro word hword rfl
      obtain ⟨part, -, htext⟩ := List.mem_map.mp hword
      have hread := part.read?_text
      rw [htext] at hread
      cases hread

/-! ## Durations in the status of a function -/

/-- The duration in the status of a function: what stands behind its first two words, up to the
dash. -/
def shownIn? (lens : String) : Option String :=
  match Text.words lens with
  | "compiled" :: "in" :: rest => some (" ".intercalate (rest.takeWhile (· ≠ "-")))
  | _ => none

end Duration

namespace FunctionInsight

theorem lens_eq (function : FunctionInsight) :
    function.lens = " ".intercalate
      ((if function.isCompiled then ["compiled", "in", formatDuration function.compileTime]
        else ["interpreted"]) ++
      if function.wasDeoptimized then ["-", "was", "deoptimized"] else []) := by
  rw [lens, ← String.toList_inj]
  cases function.isCompiled <;> cases function.wasDeoptimized <;> simp [toString]

theorem words_lens (function : FunctionInsight) :
    Text.words function.lens =
      (if function.isCompiled then
        "compiled" :: "in" :: Text.words (formatDuration function.compileTime)
        else ["interpreted"]) ++
      if function.wasDeoptimized then ["-", "was", "deoptimized"] else [] := by
  have hcompiled : Text.words "compiled" = ["compiled"] := by decide
  have hin : Text.words "in" = ["in"] := by decide
  rw [lens_eq, Text.words_intercalate, List.flatMap_append]
  congr 1
  · split
    next =>
      rw [List.flatMap_cons, List.flatMap_cons, List.flatMap_singleton, hcompiled, hin,
        List.singleton_append, List.singleton_append]
    next => decide
  · split <;> decide

/-- The duration that is shown for a function is its compile time, if its code is live. -/
theorem shownIn?_lens (function : FunctionInsight) :
    Duration.shownIn? function.lens =
      if function.isCompiled then some (formatDuration function.compileTime) else none := by
  obtain ⟨hwhole, hdash⟩ := Duration.words_formatDuration function.compileTime
  rw [Duration.shownIn?, words_lens]
  cases function.isCompiled with
  | false => rfl
  | true =>
      have hbefore : ∀ word ∈ Text.words (formatDuration function.compileTime),
          decide (word ≠ "-") := fun word hword => decide_eq_true (hdash word hword)
      have hbehind : (if function.wasDeoptimized then ["-", "was", "deoptimized"]
          else []).takeWhile (· ≠ "-") = [] := by
        split <;> rfl
      simp only [if_true, List.cons_append]
      rw [List.takeWhile_append_of_pos hbefore, hbehind, List.append_nil, hwhole]

end FunctionInsight

namespace Duration

/-- A duration is printed as microseconds, with milliseconds in front if it is above a millisecond,
and seconds in front of both if it is above a second. All counts but that of the seconds are below
1000. The parts are read back from the text, and they add up to the duration, unless this is just a
millisecond or a second: then they add up to nothing. So functions with live code and known compile
times show the same duration only if their times are the same, or no time and a millisecond. -/
theorem durations_read_back :
    (∀ micros : UInt64, ∃ parts : List DurationPart,
      formatDuration (some micros) = print parts ∧
      read? (formatDuration (some micros)) = some parts ∧
      parts.map DurationPart.unit =
        (if 1000000 < micros.toNat then [.second] else []) ++
        (if 1000 < micros.toNat then [.millisecond] else []) ++ [.microsecond] ∧
      (∀ part ∈ parts, part.unit ≠ .second → part.count < 1000) ∧
      total parts =
        if micros.toNat = 1000 ∨ micros.toNat = 1000000 then 0 else micros.toNat) ∧
    ∀ (function other : FunctionInsight) (time otherTime : UInt64),
      function.isCompiled → other.isCompiled →
      function.compileTime = some time → other.compileTime = some otherTime →
      shownIn? function.lens = some (formatDuration (some time)) ∧
      (shownIn? function.lens = shownIn? other.lens ↔
        time = otherTime ∨ (time = 0 ∧ otherTime = 1000) ∨ (time = 1000 ∧ otherTime = 0)) := by
  constructor
  · intro micros
    obtain ⟨parts, hparts⟩ := exists_printedIn micros
    exact ⟨parts, hparts.formatDuration_eq, hparts.read?_formatDuration, hparts.units_eq,
      fun part hpart hunit => hparts.count_lt hpart hunit, hparts.total_eq⟩
  · intro function other time otherTime hcompiled hother htime hotherTime
    have hshown := function.shownIn?_lens
    have hotherShown := other.shownIn?_lens
    rw [if_pos hcompiled, htime] at hshown
    rw [if_pos hother, hotherTime] at hotherShown
    refine ⟨hshown, ?_⟩
    rw [hshown, hotherShown, Option.some_inj, formatDuration_eq_iff]

/-- Two functions of one store with live code, of which one was compiled in no time and the other
one, behind a deoptimization, in a millisecond. -/
theorem durations_shown_alike :
    let operations : List Store.Operation := [
      .apply (.creation .compileStart 5 ⟨"0x1", 8⟩ "f file:///a.js:1:1"),
      .apply (.creation .compileEnd 5 ⟨"0xA", 8⟩ "f file:///a.js:1:1"),
      .apply (.creation .compileEnd 9 ⟨"0xB", 8⟩ "g file:///a.js:2:1"),
      .apply (.deoptimization 12 "0xB" "file:///a.js:2:1" "wrong map"),
      .apply (.creation .compileStart 1000 ⟨"0x2", 8⟩ "g file:///a.js:2:1"),
      .apply (.creation .compileEnd 2000 ⟨"0xC", 8⟩ "g file:///a.js:2:1")]
    let first : FunctionInsight := {
      name := "f"
      declaration := ⟨0, 1, 1⟩
      events := [⟨5, .compileStart⟩, ⟨5, .compileEnd ⟨"0xA", 8⟩⟩]
      isCompiled := true
      wasDeoptimized := false
      compileTime := some 0 }
    let second : FunctionInsight := {
      name := "g"
      declaration := ⟨1, 1, 1⟩
      events := [⟨9, .compileEnd ⟨"0xB", 8⟩⟩, ⟨12, .deoptimize "wrong map" "file:///a.js:2:1"⟩,
        ⟨1000, .compileStart⟩, ⟨2000, .compileEnd ⟨"0xC", 8⟩⟩]
      isCompiled := true
      wasDeoptimized := true
      compileTime := some 1000 }
    (Store.after operations).files = [⟨"/a.js", [first, second]⟩] ∧
      first.lens = "compiled in 0μs" ∧ second.lens = "compiled in 0μs - was deoptimized" ∧
      shownIn? first.lens = shownIn? second.lens ∧
      ∃ parts, read? "2s 500ms 0μs" = some parts ∧ ⟨500, .millisecond⟩ ∈ parts ∧
        (500 : UInt64) < 1000 ∧ total parts = 2500000 := by
  intro operations first second
  obtain ⟨hparts, hshown⟩ := durations_read_back
  obtain ⟨parts, -, hread, -, hcount, htotal⟩ := hparts 2500000
  have htext : formatDuration (some 2500000) = "2s 500ms 0μs" := by decide
  have hfound : read? "2s 500ms 0μs" =
      some [⟨2, .second⟩, ⟨500, .millisecond⟩, ⟨0, .microsecond⟩] := by decide
  rw [htext] at hread
  obtain rfl := Option.some.inj (hread.symm.trans hfound)
  obtain ⟨-, hsame⟩ := hshown first second 0 1000 rfl rfl rfl rfl
  exact ⟨by decide +kernel, by decide, by decide, hsame.mpr (Or.inr (Or.inl ⟨rfl, rfl⟩)),
    _, hread, by decide, hcount ⟨500, .millisecond⟩ (by decide) (by decide), htotal⟩

end Duration

end JitTrace
