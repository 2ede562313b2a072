import JitTrace.Text.Layout
import JitTrace.Text.Split
import Mathlib.Data.List.Basic

/-! # Lines that are joined

Lines that are joined come apart as they were if they hold no newlines and there is one at least.
Read as the lines of a text, an empty line at the end is lost, and a carriage return at the end of
a line is taken for a part of its end, unless it is the last one.
-/

namespace JitTrace.Text

/-- The lines of a text in front of the last one, and the last one if it is not empty. -/
theorem linesOfPieces_eq_mapIdx {pieces : List (List Char)}
    (hlast : pieces.getLast? ≠ some []) :
    linesOfPieces pieces = pieces.mapIdx fun index piece =>
      if index + 1 < pieces.length then dropReturn piece else piece := by
  induction pieces with
  | nil => rfl
  | cons piece rest ih =>
      cases rest with
      | nil =>
          have hsome : piece ≠ [] := by simpa using hlast
          simp [linesOfPieces, hsome]
      | cons next rest =>
          rw [List.getLast?_cons_cons] at hlast
          have hpieces : linesOfPieces (piece :: next :: rest) =
              dropReturn piece :: linesOfPieces (next :: rest) := rfl
          rw [hpieces, ih hlast, List.mapIdx_cons]
          simp

variable {texts : List String}

theorem splitOn_joinLines (hsome : texts ≠ []) (hwhole : ∀ text ∈ texts, '\n' ∉ text.toList) :
    (joinLines texts).toList.splitOn '\n' = texts.map String.toList := by
  rw [joinLines, String.toList_intercalate]
  refine List.splitOn_intercalate '\n' ?_ (by simpa using hsome)
  simpa using hwhole

/-- Cut at its newlines, a text of joined lines gives these lines. -/
theorem fields_joinLines (hsome : texts ≠ []) (hwhole : ∀ text ∈ texts, '\n' ∉ text.toList) :
    fields '\n' (joinLines texts) = texts := by
  rw [fields, splitOn_joinLines hsome hwhole, List.map_map]
  simp

/-- A line that does not end its text, as it is read. -/
def withoutReturn (text : String) : String :=
  String.ofList (dropReturn text.toList)

/-- One carriage return is lost, if there is one at the end. -/
theorem eq_withoutReturn_or (text : String) :
    text = withoutReturn text ∨ text = withoutReturn text ++ "\r" := by
  rw [← String.toList_inj, ← String.toList_inj, withoutReturn, String.toList_append,
    String.toList_ofList, dropReturn]
  split
  next hlast =>
    obtain ⟨front, hfront⟩ := List.getLast?_eq_some_iff.mp hlast
    right
    rw [hfront, List.dropLast_concat]
    rfl
  next => exact Or.inl rfl

theorem withoutReturn_subset (text : String) : (withoutReturn text).toList ⊆ text.toList := by
  rw [withoutReturn, String.toList_ofList, dropReturn]
  split
  next => exact List.dropLast_subset _
  next => exact List.Subset.refl _

/-- Read as lines, joined lines that are not empty are as many, and all but the last lose a carriage
return at their end. -/
theorem lines_joinLines (hfull : ∀ text ∈ texts, text ≠ "")
    (hwhole : ∀ text ∈ texts, '\n' ∉ text.toList) :
    lines (joinLines texts) = texts.mapIdx fun index text =>
      if index + 1 < texts.length then withoutReturn text else text := by
  by_cases hsome : texts = []
  · subst hsome
    rfl
  · have hlast : (texts.map String.toList).getLast? ≠ some [] := by
      rw [List.getLast?_map]
      intro hnone
      obtain ⟨text, htext, hempty⟩ := Option.map_eq_some_iff.mp hnone
      exact hfull text (List.mem_of_getLast? htext) (String.toList_eq_nil_iff.mp hempty)
    rw [lines, splitOn_joinLines hsome hwhole, linesOfPieces_eq_mapIdx hlast, List.length_map]
    apply List.ext_getElem?
    intro index
    simp only [List.getElem?_map, List.getElem?_mapIdx, Option.map_map]
    congr 1
    funext text
    simp only [Function.comp_apply, apply_ite String.ofList, String.ofList_toList, withoutReturn]

end JitTrace.Text
