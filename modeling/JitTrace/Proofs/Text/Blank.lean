import JitTrace.Text.Blank
import Mathlib.Data.List.TakeWhile

/-! # Trimming

Only the blanks at the two ends of a text are trimmed. So the ends decide whether a text is trimmed
already, and blanks put around a text are trimmed off with those that it has itself.
-/

namespace JitTrace.Text

/-- The characters of ASCII behind the space are not blank. -/
theorem isBlank_eq_false_of_lt {char : Char} (hlow : 32 < char.toNat) (hhigh : char.toNat < 133) :
    isBlank char = false := by
  simp only [isBlank, blankRanges, List.any_cons, List.any_nil, Bool.or_false,
    Bool.or_eq_false_iff, Bool.and_eq_false_iff, decide_eq_false_iff_not]
  omega

theorem dropWhile_isBlank_eq_self {chars : List Char}
    (hfirst : ∀ char, chars.head? = some char → isBlank char = false) :
    chars.dropWhile isBlank = chars := by
  cases chars with
  | nil => rfl
  | cons char rest => simp [hfirst char rfl]

theorem trimStart_subset (text : String) : (trimStart text).toList ⊆ text.toList := by
  rw [trimStart, String.toList_ofList]
  exact (List.dropWhile_sublist _).subset

/-- A text with a letter at either end is trimmed already, whatever stands between them. -/
theorem trim_eq_self_of_ends {text : String}
    (hfirst : ∀ char, text.toList.head? = some char → isBlank char = false)
    (hlast : ∀ char, text.toList.getLast? = some char → isBlank char = false) :
    trim text = text := by
  have hend : text.toList.reverse.dropWhile isBlank = text.toList.reverse := by
    refine dropWhile_isBlank_eq_self fun char hchar => hlast char ?_
    rwa [List.head?_reverse] at hchar
  rw [trim, dropWhile_isBlank_eq_self hfirst, dropBlankEnd, hend, List.reverse_reverse,
    String.ofList_toList]

/-- A text without blanks is trimmed already. -/
theorem trim_eq_self {text : String} (hsolid : ∀ char ∈ text.toList, isBlank char = false) :
    trim text = text :=
  trim_eq_self_of_ends (fun char hchar => hsolid char (List.mem_of_mem_head? hchar))
    fun char hchar => hsolid char (List.mem_of_mem_getLast? hchar)

theorem dropBlankEnd_append {chars after : List Char} (hafter : ∀ char ∈ after, isBlank char) :
    dropBlankEnd (chars ++ after) = dropBlankEnd chars := by
  have hreverse : ∀ char ∈ after.reverse, isBlank char := by simpa using hafter
  rw [dropBlankEnd, dropBlankEnd, List.reverse_append, List.dropWhile_append_of_pos hreverse]

/-- Blanks around a text make no difference when it is trimmed. -/
theorem trim_surrounded {before after : String} (hbefore : ∀ char ∈ before.toList, isBlank char)
    (hafter : ∀ char ∈ after.toList, isBlank char) (text : String) :
    trim (before ++ text ++ after) = trim text := by
  have hstart : ((before ++ text ++ after).toList).dropWhile isBlank =
      (text.toList ++ after.toList).dropWhile isBlank := by
    rw [String.toList_append, String.toList_append, List.append_assoc,
      List.dropWhile_append_of_pos hbefore]
  rw [trim, trim, hstart, List.dropWhile_append]
  split
  next hempty =>
    -- the text is blank as a whole, and so is what stands behind it
    rw [List.isEmpty_iff.mp hempty, List.dropWhile_eq_nil_iff.mpr hafter]
  next => rw [dropBlankEnd_append hafter]

end JitTrace.Text
