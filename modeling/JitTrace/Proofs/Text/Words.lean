import JitTrace.Text.Blank
import Mathlib.Data.List.Basic

/-! # Words

A text is cut into words at its blanks, so a blank between two texts keeps their words apart, and a
text without blanks is one word. Texts that are joined with spaces are cut into the words of each of
them, which are the texts themselves only as far as these have no blanks.
-/

namespace JitTrace.Text

/-- Characters that are not blank are collected into one word. -/
theorem wordsFrom_append_of_solid {chars : List Char}
    (hsolid : ∀ char ∈ chars, isBlank char = false) (word rest : List Char) :
    wordsFrom word (chars ++ rest) = wordsFrom (chars.reverse ++ word) rest := by
  induction chars generalizing word with
  | nil => rfl
  | cons char chars ih =>
      obtain ⟨hchar, hchars⟩ := List.forall_mem_cons.mp hsolid
      rw [List.cons_append, wordsFrom, if_neg (by simp [hchar]), ih hchars, List.reverse_cons,
        List.append_assoc, List.singleton_append]

/-- A blank ends the word that is being collected. -/
theorem wordsFrom_append_blank {blank : Char} (hblank : isBlank blank = true)
    (word chars rest : List Char) :
    wordsFrom word (chars ++ blank :: rest) = wordsFrom word chars ++ wordsFrom [] rest := by
  induction chars generalizing word with
  | nil =>
      simp only [List.nil_append, wordsFrom, hblank, if_true]
      split <;> rfl
  | cons char chars ih =>
      rw [List.cons_append, wordsFrom, wordsFrom]
      split
      next =>
        split
        next => exact ih []
        next => rw [ih [], List.cons_append]
      next => exact ih (char :: word)

theorem words_append_space (front back : String) :
    words (front ++ " " ++ back) = words front ++ words back := by
  have hchars : (front ++ " " ++ back).toList = front.toList ++ ' ' :: back.toList := by simp
  rw [words, hchars, wordsFrom_append_blank (by decide), words, words]

/-- Joining texts with spaces joins their words. -/
theorem words_intercalate (texts : List String) :
    words (" ".intercalate texts) = texts.flatMap words := by
  induction texts with
  | nil => rfl
  | cons text texts ih =>
      cases texts with
      | nil => simp
      | cons next texts =>
          rw [String.intercalate_cons_cons, words_append_space, ih, ← List.flatMap_cons]

/-- A text without blanks is a word. -/
theorem words_of_solid {text : String} (hsome : text ≠ "")
    (hsolid : ∀ char ∈ text.toList, isBlank char = false) : words text = [text] := by
  have hword := wordsFrom_append_of_solid hsolid [] []
  rw [List.append_nil, List.append_nil] at hword
  have hchars : text.toList.reverse.isEmpty = false := by
    simpa using hsome
  rw [words, hword, wordsFrom, hchars, List.reverse_reverse, String.ofList_toList]
  rfl

theorem ne_empty_of_mem_wordsFrom {found : String} {word chars : List Char}
    (hfound : found ∈ wordsFrom word chars) : found ≠ "" := by
  induction chars generalizing word with
  | nil =>
      rw [wordsFrom] at hfound
      split at hfound
      next => cases hfound
      next hword =>
        obtain rfl := List.mem_singleton.mp hfound
        simpa using hword
  | cons char chars ih =>
      rw [wordsFrom] at hfound
      split at hfound
      next =>
        split at hfound
        next => exact ih hfound
        next hword =>
          rcases List.mem_cons.mp hfound with rfl | hrest
          · simpa using hword
          · exact ih hrest
      next => exact ih hfound

theorem ne_empty_of_mem_words {text word : String} (hword : word ∈ words text) : word ≠ "" :=
  ne_empty_of_mem_wordsFrom hword

theorem newline_notMem_of_mem_words {text word : String} (hword : word ∈ words text) :
    '\n' ∉ word.toList := by
  intro hmem
  exact absurd (not_isBlank_of_mem_words hword '\n' hmem) (by decide)

/-- A word is cut into itself. -/
theorem words_of_mem_words {text word : String} (hword : word ∈ words text) :
    words word = [word] :=
  words_of_solid (ne_empty_of_mem_words hword) (not_isBlank_of_mem_words hword)

theorem words_eq_singleton_iff {text : String} :
    words text = [text] ↔ text ≠ "" ∧ ∀ char ∈ text.toList, isBlank char = false := by
  constructor
  · intro hwords
    have hmem : text ∈ words text := hwords ▸ List.mem_singleton_self text
    exact ⟨ne_empty_of_mem_words hmem, not_isBlank_of_mem_words hmem⟩
  · rintro ⟨hsome, hsolid⟩
    exact words_of_solid hsome hsolid

/-- Texts that are words of themselves stay whole when they are joined. -/
theorem flatMap_words_eq_self {texts : List String}
    (htexts : ∀ text ∈ texts, words text = [text]) : texts.flatMap words = texts := by
  rw [List.flatMap_congr htexts, List.flatMap_singleton']

end JitTrace.Text
