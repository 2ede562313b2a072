/-! # Blank characters

The characters of the Unicode property White_Space, trimming at both ends of a text, and the
words of a text. Nothing here looks at line ends in particular: a newline is one of the blanks.
-/

namespace JitTrace.Text

/-- The ranges of the Unicode property White_Space, first and last code point of each. -/
def blankRanges : List (Nat × Nat) :=
  [(0x09, 0x0D), (0x20, 0x20), (0x85, 0x85), (0xA0, 0xA0), (0x1680, 0x1680), (0x2000, 0x200A),
   (0x2028, 0x2029), (0x202F, 0x202F), (0x205F, 0x205F), (0x3000, 0x3000)]

/-- A character is blank when it has the property White_Space. -/
def isBlank (char : Char) : Bool :=
  blankRanges.any fun range => range.1 ≤ char.toNat && char.toNat ≤ range.2

/-- The text without the blanks it starts with. -/
def trimStart (text : String) : String :=
  String.ofList (text.toList.dropWhile isBlank)

/-- The characters without the blanks they end with. -/
def dropBlankEnd (chars : List Char) : List Char :=
  (chars.reverse.dropWhile isBlank).reverse

/-- The text without the blanks at either end. -/
def trim (text : String) : String :=
  String.ofList (dropBlankEnd (text.toList.dropWhile isBlank))

/-- Cuts a text at its blanks: `word` is the word being collected, in reverse. -/
def wordsFrom (word : List Char) : List Char → List String
  | [] => if word.isEmpty then [] else [String.ofList word.reverse]
  | char :: rest =>
    if isBlank char then
      if word.isEmpty then wordsFrom [] rest
      else String.ofList word.reverse :: wordsFrom [] rest
    else wordsFrom (char :: word) rest

/-- The maximal runs of characters that are not blank, in order. -/
def words (text : String) : List String :=
  wordsFrom [] text.toList

/-- When the word being collected holds no blank, every word found from there on holds none. -/
theorem not_isBlank_of_mem_wordsFrom {word chars : List Char}
    (hword : ∀ char ∈ word, isBlank char = false) {found : String}
    (hfound : found ∈ wordsFrom word chars) : ∀ char ∈ found.toList, isBlank char = false := by
  induction chars generalizing word with
  | nil =>
      simp only [wordsFrom] at hfound
      split at hfound
      next _ => simp at hfound
      next _ =>
        simp only [List.mem_singleton] at hfound
        subst hfound
        simpa using hword
  | cons char rest ih =>
      simp only [wordsFrom] at hfound
      split at hfound
      next _ =>
        split at hfound
        next _ => exact ih (by simp) hfound
        next _ =>
          rcases List.mem_cons.1 hfound with rfl | hrest
          · simpa using hword
          · exact ih (by simp) hrest
      next hsolid =>
        exact ih (by simpa using ⟨by simpa using hsolid, hword⟩) hfound

/-- Every word is a text without blanks. -/
theorem not_isBlank_of_mem_words {text found : String} (hfound : found ∈ words text) :
    ∀ char ∈ found.toList, isBlank char = false :=
  not_isBlank_of_mem_wordsFrom (by simp) hfound

end JitTrace.Text
