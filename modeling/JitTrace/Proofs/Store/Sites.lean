import JitTrace.Proofs.Location
import JitTrace.Proofs.Store.Log

/-! # Sources with and without a name

A function is logged with its name in front of the site, and before it has one with the bare site. A
bare site is read between brackets, one of which is taken off at either end even if the other is not
there. A site ends with a digit, so only an opening bracket of its own can be lost. Without one,
both kinds of sources have the same key, and their records meet in one function; with one, they do
not.
-/

namespace JitTrace

namespace Location

/-- Taking off a bracket leaves the line and the column alone. -/
theorem withoutOpening_site (path line column : String) :
    withoutOpening (site path line column) = site (withoutOpening path) line column := by
  have hcolon : ':' ∉ openingBrackets := by decide
  rw [← String.toList_inj, withoutOpening, withoutOpening, String.toList_ofList]
  cases hpath : path.toList with
  | nil => simp [site, dropOpening, hpath, hcolon]
  | cons char rest =>
      by_cases hopening : char ∈ openingBrackets
      · simp [site, dropOpening, hpath, hopening]
      · simp [site, dropOpening, hpath, hopening]

/-- A site is a site without its bracket too, with the same line and column. -/
theorem exists_parse?_withoutOpening {name text : String} {location : Location}
    (hparse : parse? name text = some location) (other : String) :
    ∃ found, parse? other (withoutOpening text) = some found ∧
      found.line = location.line ∧ found.column = location.column := by
  obtain ⟨path, lineText, columnText, line, column, rfl, hline, hcolumn⟩ :=
    exists_site_of_parse? hparse
  rw [parse?_site name path hline hcolumn, Option.some.injEq] at hparse
  obtain rfl := hparse
  rw [withoutOpening_site]
  exact ⟨_, parse?_site other (withoutOpening path) hline hcolumn, rfl, rfl⟩

/-- Without a name, a site behind a space is read without its bracket. -/
theorem ofUnnamed?_space {name text : String} {location : Location}
    (htrim : Text.trim text = text) (hparse : parse? name text = some location) :
    ofUnnamed? (" " ++ text) = parse? unknownName (withoutOpening text) := by
  obtain ⟨last, hlast, hdigit⟩ := exists_getLast?_of_parse? hparse
  have hspace : ∀ char ∈ " ".toList, Text.isBlank char := List.all_eq_true.mp (by decide)
  have hnothing : ∀ char ∈ "".toList, Text.isBlank char := by simp
  have hsurrounded := Text.trim_surrounded hspace hnothing text
  rw [String.append_empty, htrim] at hsurrounded
  rw [ofUnnamed?, hsurrounded, stripBrackets_of_isDigit hlast hdigit]

/-- Both readings differ in nothing but the name, unless there is a bracket to lose. -/
theorem eq_withUnknownName_iff {name text : String} {location unnamed : Location}
    (hparse : parse? name text = some location)
    (hunnamed : parse? unknownName (withoutOpening text) = some unnamed) :
    unnamed = { location with name := unknownName } ↔ ¬ StartsOpened text := by
  have hkey := (key_of_parse? hparse).1
  rw [← withoutOpening_eq_self_iff]
  constructor
  · rintro rfl
    rw [← (key_of_parse? hunnamed).1, hkey]
  · intro hsame
    have hdeclares := declares_of_parse? hparse 0 unknownName
    rw [hsame, hdeclares, Option.some.injEq] at hunnamed
    rw [← hunnamed, hkey]

end Location

namespace Store

/-- The history of the function at a site. Nothing has happened where there is none. -/
def history (store : Store) (site : String) : List Event :=
  (store.functionAtSite? site).elim [] FunctionInsight.events

/-- The history at a site is the events of the records that belong to it. -/
theorem history_ofLog (log : List Record) (site : String) :
    (ofLog log).history site = (Log.routed site log).map Record.event := by
  have hfollows := follows_ofLog log
  rw [history]
  cases hfunction : (ofLog log).functionAtSite? site with
  | none =>
      rw [hfollows.routed_eq_nil hfunction]
      rfl
  | some function =>
      rw [hfollows.function_eq] at hfunction
      exact events_of_replay hfunction

theorem history_concat (log : List Record) (record : Record) (site : String) :
    (ofLog (log ++ [record])).history site = (ofLog log).history site ++
      if Log.route? log record = some site then [record.event] else [] := by
  rw [history_ofLog, history_ofLog, Log.routed_concat, List.map_append]
  split <;> rfl

/-- Two records of new code objects lengthen the histories of their sites, one after the other. -/
theorem history_two {first second : Record} {site other : String}
    (hfirst : ∀ log, Log.route? log first = some site)
    (hsecond : ∀ log, Log.route? log second = some other) (operations : List Operation)
    (wanted : String) :
    ((after operations).applyAll [first, second]).history wanted =
      (after operations).history wanted ++
        ((if site = wanted then [first.event] else []) ++
          if other = wanted then [second.event] else []) := by
  obtain ⟨log, hlog⟩ := exists_ofLog_eq_after operations
  have happly : (ofLog log).applyAll [first, second] = ofLog (log ++ [first] ++ [second]) := by
    rw [List.append_assoc]
    exact (applyAll_append ∅ log _).symm
  rw [hlog, happly, history_concat, history_concat, hfirst, hsecond, List.append_assoc]
  simp only [Option.some.injEq]

/-- At different sites, each record lengthens a history of its own. -/
theorem history_two_of_ne {first second : Record} {site other : String}
    (hfirst : ∀ log, Log.route? log first = some site)
    (hsecond : ∀ log, Log.route? log second = some other) (operations : List Operation)
    (hne : site ≠ other) :
    let next := (after operations).applyAll [first, second]
    next.history site = (after operations).history site ++ [first.event] ∧
      next.history other = (after operations).history other ++ [second.event] := by
  constructor
  · simp [history_two hfirst hsecond operations, hne.symm]
  · simp [history_two hfirst hsecond operations, hne]

/-- Both events go to one site exactly if the sites are the same. -/
theorem exists_history_two_iff {first second : Record} {site other : String}
    (hfirst : ∀ log, Log.route? log first = some site)
    (hsecond : ∀ log, Log.route? log second = some other) (operations : List Operation) :
    (∃ wanted, ((after operations).applyAll [first, second]).history wanted =
        (after operations).history wanted ++ [first.event, second.event]) ↔ site = other := by
  simp only [history_two hfirst hsecond operations, List.append_cancel_left_eq]
  constructor
  · rintro ⟨wanted, hboth⟩
    by_cases hsite : site = wanted
    · by_cases hother : other = wanted
      · rw [hsite, hother]
      · simp [hsite, hother] at hboth
    · by_cases hother : other = wanted
      · simp [hsite, hother] at hboth
      · simp [hsite, hother] at hboth
  · rintro rfl
    exact ⟨site, by simp⟩

/-- A site that reads behind a name reads behind a mere space too, with the same line and column,
and nothing but the name differs unless the site starts with an opening bracket. A record with the
site alone and a record of a compilation with the name in front, in either order, go into one
history under the same condition. Otherwise each of them lengthens a history of its own: that of the
whole site the one with the name, and that of the site without its bracket the other one. -/
theorem sources_meet_iff (operations : List Operation) {name text : String} {location : Location}
    (hname : name ≠ "") (hspace : ' ' ∉ name.toList) (htrim : Text.trim text = text)
    (hnamed : Location.ofNamed? (name ++ " " ++ text) = some location) :
    ∃ unnamed, Location.ofUnnamed? (" " ++ text) = some unnamed ∧
      unnamed.line = location.line ∧ unnamed.column = location.column ∧
      (unnamed = { location with name := "unknown" } ↔ ¬ Location.StartsOpened text) ∧
      ∀ (creation : Creation) (time later : UInt64) (memory code : MemoryArea),
        creation.isNamed →
        let bare := Record.creation .script time memory (" " ++ text)
        let compiled := Record.creation creation later code (name ++ " " ++ text)
        ∀ records ∈ [[bare, compiled], [compiled, bare]],
          let next := (after operations).applyAll records
          ((∃ site, next.history site =
              (after operations).history site ++ records.map Record.event) ↔
            ¬ Location.StartsOpened text) ∧
          (Location.StartsOpened text →
            next.history text = (after operations).history text ++ [compiled.event] ∧
            next.history (Location.withoutOpening text) =
              (after operations).history (Location.withoutOpening text) ++ [bare.event]) := by
  have hparse := hnamed
  rw [Location.ofNamed?_append hname hspace] at hparse
  have hunnamed := Location.ofUnnamed?_space htrim hparse
  obtain ⟨unnamed, hfound, hline, hcolumn⟩ :=
    Location.exists_parse?_withoutOpening hparse Location.unknownName
  rw [hfound] at hunnamed
  refine ⟨unnamed, hunnamed, hline, hcolumn, Location.eq_withUnknownName_iff hparse hfound, ?_⟩
  intro creation time later memory code hcreation bare compiled records hrecords next
  have hbare : ∀ log, Log.route? log bare = some (Location.withoutOpening text) := by
    intro log
    simp [bare, Log.route?, Record.site?, Creation.locate?, Creation.isNamed, hunnamed,
      (Location.key_of_parse? hfound).1]
  have hcompiled : ∀ log, Log.route? log compiled = some text := by
    intro log
    simp [compiled, Log.route?, Record.site?, Creation.locate?, hcreation, hnamed,
      (Location.key_of_parse? hparse).1]
  have hsame : Location.withoutOpening text = text ↔ ¬ Location.StartsOpened text :=
    Location.withoutOpening_eq_self_iff
  have hne : Location.StartsOpened text → Location.withoutOpening text ≠ text :=
    fun hopened heq => hsame.mp heq hopened
  simp only [List.mem_cons, List.not_mem_nil, or_false] at hrecords
  rcases hrecords with rfl | rfl
  · exact ⟨(exists_history_two_iff hbare hcompiled operations).trans hsame,
      fun hopened => (history_two_of_ne hbare hcompiled operations (hne hopened)).symm⟩
  · exact ⟨(exists_history_two_iff hcompiled hbare operations).trans (eq_comm.trans hsame),
      fun hopened => history_two_of_ne hcompiled hbare operations (hne hopened).symm⟩

/-- A site with colons of its own and without a scheme, in a store that knows it already. -/
theorem sources_meet_of_internal_site :
    let text := "node:internal/x:1:1"
    let operations : List Operation :=
      [.apply (.creation .compileEnd 3 ⟨"0xA", 8⟩ "g node:internal/x:1:1")]
    let bare := Record.creation .script 5 ⟨"0x1", 8⟩ (" " ++ text)
    let compiled := Record.creation .compileStart 9 ⟨"0x2", 8⟩ ("f" ++ " " ++ text)
    "f" ≠ "" ∧ ' ' ∉ "f".toList ∧ Text.trim text = text ∧
      Location.ofNamed? ("f" ++ " " ++ text) = some ⟨"f", "node:internal/x", 0, 1, text⟩ ∧
      Location.ofUnnamed? (" " ++ text) = some ⟨"unknown", "node:internal/x", 0, 1, text⟩ ∧
      ∃ site, ((after operations).applyAll [compiled, bare]).history site =
        (after operations).history site ++ [⟨9, .compileStart⟩, ⟨5, .parse ⟨"0x1", 8⟩⟩] := by
  intro text operations bare compiled
  have hname : "f" ≠ "" := by decide
  have hspace : ' ' ∉ "f".toList := by decide
  have htrim : Text.trim text = text := by decide +kernel
  have hnamed : Location.ofNamed? ("f" ++ " " ++ text) =
      some ⟨"f", "node:internal/x", 0, 1, text⟩ := by decide +kernel
  have hclosed : ¬ Location.StartsOpened text := by
    rw [← Location.withoutOpening_eq_self_iff]
    decide +kernel
  obtain ⟨unnamed, hunnamed, -, -, hsame, hrecords⟩ :=
    sources_meet_iff operations hname hspace htrim hnamed
  obtain rfl := hsame.mpr hclosed
  have hmeet := hrecords .compileStart 5 9 ⟨"0x1", 8⟩ ⟨"0x2", 8⟩ rfl [compiled, bare]
    (List.mem_cons_of_mem _ List.mem_cons_self)
  exact ⟨hname, hspace, htrim, hnamed, hunnamed, hmeet.1.mpr hclosed⟩

/-- The site of a script that is evaluated from the command line loses the bracket of its path. -/
theorem sources_apart_in_evaluated_script :
    ¬ ∀ (name text : String) (location : Location), name ≠ "" → ' ' ∉ name.toList →
      ',' ∉ text.toList → Text.trim text = text →
      Location.ofNamed? (name ++ " " ++ text) = some location →
        ∃ unnamed, Location.ofUnnamed? (" " ++ text) = some unnamed ∧
          unnamed.key = location.key ∧ unnamed.filename = location.filename ∧
          unnamed.line = location.line ∧ unnamed.column = location.column := by
  intro hall
  obtain ⟨unnamed, hunnamed, hkey, -⟩ :=
    hall "f" "[eval]:1:1" ⟨"f", "[eval]", 0, 1, "[eval]:1:1"⟩ (by decide) (by decide) (by decide)
      (by decide +kernel) (by decide +kernel)
  have hread : Location.ofUnnamed? (" " ++ "[eval]:1:1") =
      some ⟨"unknown", "eval]", 0, 1, "eval]:1:1"⟩ := by decide +kernel
  rw [hread, Option.some.injEq] at hunnamed
  subst hunnamed
  exact absurd hkey (by decide)

end Store

end JitTrace
