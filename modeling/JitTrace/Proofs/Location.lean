import JitTrace.Location
import JitTrace.Proofs.Text.Numeral
import Mathlib.Data.List.Basic

/-! # Printed declaration sites

What reads as a declaration site: some text with a line and a column behind it, each after a colon.
Both numbers are free of colons, so the last two colons of a site are the ones in front of them,
whatever the path holds. The scheme is taken off only at the very start, and brackets only at the
very ends.
-/

namespace JitTrace

/-! ## Cutting texts -/

namespace Text

section Split

variable {separator : Char} {text before after : String}

/-- A text is cut at the separator that stands behind none. -/
theorem splitFirst_eq_some (htext : text.toList = before.toList ++ separator :: after.toList)
    (hbefore : separator ∉ before.toList) : splitFirst separator text = some (before, after) := by
  rw [splitFirst, htext, cutFirst_append after.toList hbefore]
  simp

/-- A text is cut at the separator that stands in front of none. -/
theorem splitLast_eq_some (htext : text.toList = before.toList ++ separator :: after.toList)
    (hafter : separator ∉ after.toList) : splitLast separator text = some (before, after) := by
  rw [splitLast, htext, cutLast_append before.toList hafter]
  simp

theorem eq_of_cutFirst {chars front back : List Char}
    (hcut : cutFirst separator chars = some (front, back)) :
    chars = front ++ separator :: back := by
  induction chars generalizing front with
  | nil => cases hcut
  | cons char rest ih =>
      simp only [cutFirst] at hcut
      split at hcut
      next heq =>
        cases hcut
        rw [heq, List.nil_append]
      next =>
        obtain ⟨parts, hparts, hcut⟩ := Option.map_eq_some_iff.mp hcut
        cases hcut
        rw [ih hparts, List.cons_append]

theorem eq_of_splitLast (hsplit : splitLast separator text = some (before, after)) :
    text.toList = before.toList ++ separator :: after.toList := by
  obtain ⟨⟨front, back⟩, hcut, hparts⟩ := Option.map_eq_some_iff.mp hsplit
  obtain ⟨⟨back', front'⟩, hfirst, hreverse⟩ := Option.map_eq_some_iff.mp hcut
  cases hparts
  cases hreverse
  have hchars := congrArg List.reverse (eq_of_cutFirst hfirst)
  simpa using hchars

end Split

theorem afterStart?_eq_some_iff {start text rest : String} :
    afterStart? start text = some rest ↔ start ++ rest = text := by
  rw [afterStart?, Option.map_eq_some_iff]
  constructor
  · rintro ⟨chars, hprefix, rfl⟩
    rw [← String.toList_inj, String.toList_append, String.toList_ofList]
    exact List.isPrefixOf?_eq_some_iff_append_eq.mp hprefix
  · rintro rfl
    refine ⟨rest.toList, ?_, String.ofList_toList⟩
    rw [List.isPrefixOf?_eq_some_iff_append_eq, String.toList_append]

/-- A start does not reach into what is appended, if its last character does not stand there. -/
theorem afterStart?_append {start : String} {last : Char}
    (hlast : start.toList.getLast? = some last) {back : String} (hback : last ∉ back.toList)
    (front : String) :
    afterStart? start (front ++ back) = (afterStart? start front).map (· ++ back) := by
  ext rest
  rw [Option.map_eq_some_iff]
  simp only [afterStart?_eq_some_iff]
  constructor
  · intro happend
    have hchars := congrArg String.toList happend
    rw [String.toList_append, String.toList_append, List.append_eq_append_iff] at hchars
    rcases hchars with ⟨middle, hfront, hrest⟩ | ⟨middle, hstart, hbehind⟩
    · refine ⟨String.ofList middle, ?_, ?_⟩
      · rw [← String.toList_inj, hfront, String.toList_append, String.toList_ofList]
      · rw [← String.toList_inj, hrest, String.toList_append, String.toList_ofList]
    · -- the start ends behind the front, so all that is left of it is empty
      have hempty : middle = [] := by
        rcases List.eq_nil_or_concat' middle with hnil | ⟨others, final, rfl⟩
        · exact hnil
        · rw [hstart, ← List.append_assoc, List.getLast?_concat] at hlast
          obtain rfl := Option.some.inj hlast
          exact absurd (by simp [hbehind]) hback
      subst hempty
      refine ⟨"", ?_, ?_⟩
      · rw [← String.toList_inj, String.toList_append, hstart]
        simp
      · rw [← String.toList_inj, String.toList_append, hbehind]
        simp
  · rintro ⟨middle, rfl, rfl⟩
    exact String.append_assoc.symm

end Text

namespace Location

/-! ## Brackets -/

/-- The text without one opening bracket in front. -/
def withoutOpening (text : String) : String :=
  String.ofList (dropOpening text.toList)

/-- Whether a text starts with an opening bracket. -/
def StartsOpened (text : String) : Prop :=
  ∃ bracket ∈ openingBrackets, text.toList.head? = some bracket

theorem withoutOpening_eq_self_iff {text : String} :
    withoutOpening text = text ↔ ¬ StartsOpened text := by
  rw [withoutOpening, ← String.toList_inj, String.toList_ofList, StartsOpened]
  cases text.toList with
  | nil => simp [dropOpening]
  | cons char rest =>
      by_cases hopening : char ∈ openingBrackets
      · simp [dropOpening, hopening]
      · simp [dropOpening, hopening]

/-- One bracket on each side is taken off again, whatever stands between them. -/
theorem stripBrackets_wrapped {opening closing : Char} (hopening : opening ∈ openingBrackets)
    (hclosing : closing ∈ closingBrackets) (text : String) :
    stripBrackets (String.singleton opening ++ text ++ String.singleton closing) = text := by
  have hwrapped : (String.singleton opening ++ text ++ String.singleton closing).toList =
      opening :: (text.toList ++ [closing]) := by simp
  have hopened : dropOpening (opening :: (text.toList ++ [closing])) = text.toList ++ [closing] :=
    if_pos hopening
  have hclosed : dropClosing (text.toList ++ [closing]) = text.toList := by
    rw [dropClosing, List.getLast?_concat]
    simp [hclosing]
  rw [stripBrackets, hwrapped, hopened, hclosed, String.ofList_toList]

/-- A text that ends with a digit has no bracket to lose there. -/
theorem stripBrackets_of_isDigit {text : String} {last : Char}
    (hlast : text.toList.getLast? = some last) (hdigit : last.isDigit) :
    stripBrackets text = withoutOpening text := by
  have hend : ∀ char, (dropOpening text.toList).getLast? = some char → char = last := by
    intro char hchar
    cases hchars : text.toList with
    | nil => simp [hchars] at hlast
    | cons first rest =>
        rw [hchars] at hlast hchar
        simp only [dropOpening] at hchar
        split at hchar
        next =>
          rw [List.getLast?_cons, hchar, Option.getD_some] at hlast
          exact Option.some.inj hlast
        next => exact Option.some.inj (hchar.symm.trans hlast)
  have hkept : dropClosing (dropOpening text.toList) = dropOpening text.toList := by
    unfold dropClosing
    split
    next char hchar =>
      obtain rfl := hend char hchar
      refine if_neg fun hclosing => ?_
      simp only [closingBrackets, List.mem_cons, List.not_mem_nil, or_false] at hclosing
      rcases hclosing with rfl | rfl | rfl <;> cases hdigit
    next => rfl
  rw [stripBrackets, hkept, withoutOpening]

/-! ## Sites -/

/-- A path without the scheme in front. -/
def withoutScheme (path : String) : String :=
  (Text.afterStart? fileScheme path).getD path

/-- A site made of a path, with or without scheme, and the texts of a line and a column. -/
def site (path line column : String) : String :=
  path ++ ":" ++ line ++ ":" ++ column

theorem toList_site (path line column : String) :
    (site path line column).toList =
      (path ++ ":" ++ line).toList ++ ':' :: column.toList := by
  simp [site]

theorem withoutScheme_append {back : String} (hback : '/' ∉ back.toList) (front : String) :
    withoutScheme (front ++ back) = withoutScheme front ++ back := by
  have hlast : fileScheme.toList.getLast? = some '/' := by decide +kernel
  rw [withoutScheme, withoutScheme, Text.afterStart?_append hlast hback]
  cases Text.afterStart? fileScheme front <;> rfl

theorem withoutScheme_fileScheme (path : String) : withoutScheme (fileScheme ++ path) = path := by
  rw [withoutScheme, Text.afterStart?_eq_some_iff.mpr rfl, Option.getD_some]

section Read

variable {name text lineText columnText : String} {line column : UInt32}

theorem splitLast_site (path : String) (hcolumn : Text.readUInt32? columnText = some column) :
    Text.splitLast ':' (site path lineText columnText) =
      some (path ++ ":" ++ lineText, columnText) :=
  Text.splitLast_eq_some (toList_site path lineText columnText)
    (Text.not_mem_of_readUInt32? hcolumn (by decide) (by decide))

theorem splitLast_line (path : String) (hline : Text.readUInt32? lineText = some line) :
    Text.splitLast ':' (path ++ ":" ++ lineText) = some (path, lineText) := by
  refine Text.splitLast_eq_some ?_ (Text.not_mem_of_readUInt32? hline (by decide) (by decide))
  simp

/-- A path with a line and a column behind it is read, with any name. -/
theorem parse?_site (name path : String) (hline : Text.readUInt32? lineText = some line)
    (hcolumn : Text.readUInt32? columnText = some column) :
    parse? name (site path lineText columnText) =
      some ⟨name, withoutScheme path, zeroBased line, column,
        site path lineText columnText⟩ := by
  have hback : '/' ∉ (":" ++ lineText ++ ":" ++ columnText).toList := by
    have hinLine : '/' ∉ lineText.toList :=
      Text.not_mem_of_readUInt32? hline (by decide) (by decide)
    have hinColumn : '/' ∉ columnText.toList :=
      Text.not_mem_of_readUInt32? hcolumn (by decide) (by decide)
    simp [hinLine, hinColumn]
  have hpath : (Text.afterStart? fileScheme (site path lineText columnText)).getD
      (site path lineText columnText) = site (withoutScheme path) lineText columnText := by
    have happend := withoutScheme_append hback path
    simpa only [withoutScheme, site, String.append_assoc] using happend
  simp only [parse?, hpath, splitLast_site _ hcolumn, splitLast_line _ hline, hline, hcolumn,
    Option.bind_eq_bind, Option.bind_some, Option.pure_def]

/-- Nothing else is read. -/
theorem exists_site_of_parse? {location : Location} (hparse : parse? name text = some location) :
    ∃ path lineText columnText line column, text = site path lineText columnText ∧
      Text.readUInt32? lineText = some line ∧ Text.readUInt32? columnText = some column := by
  simp only [parse?, Option.bind_eq_bind, Option.bind_eq_some_iff, Option.pure_def,
    Option.some.injEq] at hparse
  obtain ⟨⟨front, columnText⟩, hfront, column, hcolumn, ⟨path, lineText⟩, hpath, line, hline,
    rfl⟩ := hparse
  have hsite : (Text.afterStart? fileScheme text).getD text = site path lineText columnText := by
    rw [← String.toList_inj, Text.eq_of_splitLast hfront, Text.eq_of_splitLast hpath]
    simp [site]
  cases hscheme : Text.afterStart? fileScheme text with
  | none =>
      rw [hscheme, Option.getD_none] at hsite
      exact ⟨path, lineText, columnText, line, column, hsite, hline, hcolumn⟩
  | some rest =>
      rw [hscheme, Option.getD_some] at hsite
      refine ⟨fileScheme ++ path, lineText, columnText, line, column, ?_, hline, hcolumn⟩
      rw [← Text.afterStart?_eq_some_iff.mp hscheme, hsite]
      simp only [site, String.append_assoc]

/-- What reads as a site ends with a digit. -/
theorem exists_getLast?_of_parse? {location : Location}
    (hparse : parse? name text = some location) :
    ∃ last, text.toList.getLast? = some last ∧ last.isDigit := by
  obtain ⟨path, lineText, columnText, line, column, rfl, -, hcolumn⟩ :=
    exists_site_of_parse? hparse
  obtain ⟨last, hlast, hdigit⟩ := Text.exists_getLast?_of_readUInt32? hcolumn
  refine ⟨last, ?_, hdigit⟩
  rw [toList_site, List.getLast?_append, List.getLast?_cons, hlast]
  rfl

end Read

/-! ## Sites in sources -/

/-- A name ends at the first space, so a site behind it may hold spaces. -/
theorem ofNamed?_append {name : String} (hname : name ≠ "") (hspace : ' ' ∉ name.toList)
    (text : String) : ofNamed? (name ++ " " ++ text) = parse? name text := by
  have hsplit : Text.splitFirst ' ' (name ++ " " ++ text) = some (name, text) :=
    Text.splitFirst_eq_some (by simp) hspace
  have hsome : name.isEmpty = false := by
    rwa [Bool.eq_false_iff, ne_eq, String.isEmpty_iff]
  simp only [ofNamed?, hsplit, Option.bind_eq_bind, Option.bind_some, hsome, Bool.false_eq_true,
    if_false]

theorem isBlank_eq_false_of_bracket {bracket : Char}
    (hbracket : bracket ∈ openingBrackets ∨ bracket ∈ closingBrackets) :
    Text.isBlank bracket = false := by
  have hsolid : (openingBrackets ++ closingBrackets).all fun char => !Text.isBlank char := by
    decide
  simpa using List.all_eq_true.mp hsolid bracket (List.mem_append.mpr hbracket)

/-- A site is read between brackets and blanks. -/
theorem ofUnnamed?_wrapped {opening closing : Char} (hopening : opening ∈ openingBrackets)
    (hclosing : closing ∈ closingBrackets) {before after : String}
    (hbefore : ∀ char ∈ before.toList, Text.isBlank char)
    (hafter : ∀ char ∈ after.toList, Text.isBlank char) (text : String) :
    ofUnnamed? (before ++ (String.singleton opening ++ text ++ String.singleton closing) ++ after) =
      parse? unknownName text := by
  have htrim : Text.trim (String.singleton opening ++ text ++ String.singleton closing) =
      String.singleton opening ++ text ++ String.singleton closing := by
    refine Text.trim_eq_self_of_ends (fun char hchar => ?_) (fun char hchar => ?_)
    · obtain rfl : opening = char := by simpa using hchar
      exact isBlank_eq_false_of_bracket (Or.inl hopening)
    · rw [String.toList_append, String.toList_singleton, List.getLast?_concat] at hchar
      obtain rfl := Option.some.inj hchar
      exact isBlank_eq_false_of_bracket (Or.inr hclosing)
  rw [ofUnnamed?, Text.trim_surrounded hbefore hafter, htrim,
    stripBrackets_wrapped hopening hclosing]

/-- Lines are counted from zero, and line 0 is taken for the first. -/
theorem zeroBased_eq (line : UInt32) : zeroBased line = max line 1 - 1 := by
  rw [zeroBased, UInt32.max_def]
  by_cases hzero : line = 0
  · subst hzero
    rfl
  · rw [if_neg hzero]
    split
    next hle =>
      have hone : line = 1 := by
        rw [← UInt32.toNat_inj] at hzero ⊢
        rw [UInt32.le_iff_toNat_le] at hle
        simp only [UInt32.toNat_zero, UInt32.toNat_one] at hzero hle ⊢
        omega
      rw [hone]
    next => rfl

/-! ## Printed sites -/

/-- A declaration site as the engine prints it. -/
def printed (path : String) (line column : UInt32) : String :=
  "file://" ++ path ++ ":" ++ toString line.toNat ++ ":" ++ toString column.toNat

theorem parse?_printed (name path : String) (line column : UInt32) :
    parse? name (printed path line column) =
      some ⟨name, path, max line 1 - 1, column, printed path line column⟩ := by
  have hparse := parse?_site name (fileScheme ++ path) (Text.readUInt32?_toString line)
    (Text.readUInt32?_toString column)
  rwa [withoutScheme_fileScheme, zeroBased_eq] at hparse

/-- A printed site has only one path, line and column. -/
theorem printed_inj {path otherPath : String} {line otherLine column otherColumn : UInt32}
    (hsame : printed path line column = printed otherPath otherLine otherColumn) :
    path = otherPath ∧ line = otherLine ∧ column = otherColumn := by
  have hread := parse?_printed unknownName path line column
  rw [hsame, parse?_printed, Option.some.injEq] at hread
  obtain ⟨-, rfl, -, rfl, -⟩ := Location.mk.inj hread
  -- lines 0 and 1 are read alike, so they are told apart by their digits
  have hline : toString line.toNat = toString otherLine.toNat := by
    simpa [printed, ← String.toList_inj] using hsame
  exact ⟨rfl, Text.eq_of_toString_toNat hline, rfl⟩

/-- A printed declaration site is read back, whatever its path holds: behind a name and a space
with this name, and without a name between any two brackets with any blanks around them. Only the
line is changed, to the zero-based one, and the site itself is the key. So a site is printed for
one path, line and column only. -/
theorem printed_site_decodes (path : String) (line column : UInt32) :
    let site := printed path line column
    (∀ name : String, name ≠ "" → ' ' ∉ name.toList →
      ofNamed? (name ++ " " ++ site) = some ⟨name, path, max line 1 - 1, column, site⟩) ∧
    (∀ opening ∈ ['<', '(', '['], ∀ closing ∈ ['>', ')', ']'], ∀ before after : String,
      (∀ char ∈ before.toList, Text.isBlank char) → (∀ char ∈ after.toList, Text.isBlank char) →
        ofUnnamed?
            (before ++ (String.singleton opening ++ site ++ String.singleton closing) ++ after) =
          some ⟨"unknown", path, max line 1 - 1, column, site⟩) ∧
    ∀ otherPath otherLine otherColumn, printed otherPath otherLine otherColumn = site →
      otherPath = path ∧ otherLine = line ∧ otherColumn = column := by
  intro site
  refine ⟨?_, ?_, ?_⟩
  · intro name hname hspace
    rw [ofNamed?_append hname hspace]
    exact parse?_printed name path line column
  · intro opening hopening closing hclosing before after hbefore hafter
    rw [ofUnnamed?_wrapped hopening hclosing hbefore hafter]
    exact parse?_printed unknownName path line column
  · intro otherPath otherLine otherColumn hsame
    exact printed_inj hsame

/-- A path with brackets, a space, another scheme and another line and column in it, at line 0 and
in the last column there is. -/
theorem printed_site_decodes_of_odd_path :
    let path := "<a b:7:7>/file://[x"
    let site := printed path 0 4294967295
    site = "file://<a b:7:7>/file://[x:0:4294967295" ∧
      "(f)" ≠ "" ∧ ' ' ∉ "(f)".toList ∧
      ofNamed? ("(f)" ++ " " ++ site) = some ⟨"(f)", path, 0, 4294967295, site⟩ ∧
      (∀ char ∈ "\u3000 ".toList, Text.isBlank char) ∧ (∀ char ∈ "\t\n".toList, Text.isBlank char) ∧
      ofUnnamed? ("\u3000 " ++ (String.singleton '[' ++ site ++ String.singleton '>') ++ "\t\n") =
        some ⟨"unknown", path, 0, 4294967295, site⟩ ∧
      printed path 1 4294967295 ≠ site := by
  intro path site
  have hname : "(f)" ≠ "" := by decide
  have hspace : ' ' ∉ "(f)".toList := by decide
  have hbefore : ∀ char ∈ "\u3000 ".toList, Text.isBlank char :=
    List.all_eq_true.mp (by decide)
  have hafter : ∀ char ∈ "\t\n".toList, Text.isBlank char :=
    List.all_eq_true.mp (by decide)
  obtain ⟨hnamed, hunnamed, hunique⟩ := printed_site_decodes path 0 4294967295
  refine ⟨by decide +kernel, hname, hspace, hnamed "(f)" hname hspace, hbefore, hafter,
    hunnamed '[' (by decide) '>' (by decide) "\u3000 " "\t\n" hbefore hafter, ?_⟩
  intro hsame
  exact absurd (hunique path 1 4294967295 hsame).2.1 (by decide)

end Location

end JitTrace
