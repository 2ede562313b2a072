import JitTrace.Proofs.Store.Log

/-! # Names of functions

A function is named by the first record of a compilation of its site that has a name for it. Records
in front of it leave the function unknown and those behind it are not asked, whatever they carry.
The length in the declaration is kept up with the name, and the place of the declaration is that of
the site.
-/

namespace JitTrace

/-! ## Names in records -/

namespace Record

/-- The name that a record of a compilation has in front of its site. The empty name and the unknown
one are no names. -/
def carriedName? : Record → Option String
  | .creation .script _ _ _ => none
  | .creation _ _ _ source =>
    ((Text.splitFirst ' ' source).map Prod.fst).filter fun name => name ≠ "" ∧ name ≠ "unknown"
  | .deoptimization _ _ _ _ => none

theorem name_of_ofNamed? {source : String} {location : Location}
    (hsource : Location.ofNamed? source = some location) :
    location.name =
      (((Text.splitFirst ' ' source).map Prod.fst).filter fun name =>
        name ≠ "" ∧ name ≠ "unknown").getD Location.unknownName := by
  simp only [Location.ofNamed?, Option.bind_eq_bind, Option.bind_eq_some_iff] at hsource
  obtain ⟨⟨name, text⟩, hsplit, hparse⟩ := hsource
  rw [hsplit, (Location.key_of_parse? hparse).2]
  by_cases hempty : name = ""
  · simp [hempty, Option.filter]
  · by_cases hunknown : name = "unknown"
    · simp [hunknown, Option.filter, Location.unknownName]
    · simp [hempty, hunknown, Option.filter]

/-- What a record reads as is named by the record. -/
theorem name_of_locate? {creation : Creation} {source : String} {location : Location}
    (hsource : creation.locate? source = some location) (time : UInt64) (memory : MemoryArea) :
    location.name =
      ((Record.creation creation time memory source).carriedName?).getD Location.unknownName := by
  cases creation with
  | script => exact (Location.key_of_parse? hsource).2
  | compileStart => exact name_of_ofNamed? hsource
  | compileEnd => exact name_of_ofNamed? hsource

theorem ne_unknown_of_carriedName? {record : Record} {name : String}
    (hname : record.carriedName? = some name) : name ≠ "unknown" := by
  unfold carriedName? at hname
  split at hname
  next => cases hname
  next =>
    have hcarried := (Option.filter_eq_some_iff.mp hname).2
    exact (of_decide_eq_true hcarried).2
  next => cases hname

end Record

namespace Log

/-- The first name that a record of a site carries. -/
def firstName? (site : String) (log : List Record) : Option String :=
  log.findSome? fun record => if record.site? = some site then record.carriedName? else none

theorem firstName?_append (site : String) (log more : List Record) :
    firstName? site (log ++ more) = (firstName? site log).or (firstName? site more) :=
  List.findSome?_append

theorem firstName?_singleton (site : String) (record : Record) :
    firstName? site [record] =
      if record.site? = some site then record.carriedName? else none := by
  rw [firstName?, List.findSome?_singleton]

theorem ne_unknown_of_firstName? {site : String} {log : List Record} {name : String}
    (hname : firstName? site log = some name) : name ≠ "unknown" := by
  obtain ⟨record, -, hrecord⟩ := List.exists_of_findSome?_eq_some hname
  split at hrecord
  next => exact Record.ne_unknown_of_carriedName? hrecord
  next => cases hrecord

theorem firstName?_eq_none {site : String} {log : List Record}
    (hnone : ¬ ∃ record ∈ log, record.site? = some site) : firstName? site log = none := by
  rw [firstName?, List.findSome?_eq_none_iff]
  intro record hrecord
  exact if_neg fun hsite => hnone ⟨record, hrecord, hsite⟩

theorem route?_of_site? {record : Record} {site : String} (hsite : record.site? = some site)
    (log : List Record) : route? log record = some site := by
  cases record with
  | creation creation time memory source => exact hsite
  | deoptimization time address position reason => cases hsite

end Log

/-! ## Names of functions -/

namespace FunctionInsight

/-- Only an unknown function takes a name. -/
theorem name_learnName (function : FunctionInsight) (location : Location) :
    (function.learnName location).name =
      if function.name = Location.unknownName then location.name else function.name := by
  unfold learnName nameIsKnown Location.isNamed
  by_cases hknown : function.name = Location.unknownName
  · by_cases hnamed : location.name = Location.unknownName
    · simp [hknown, hnamed]
    · simp [hknown, hnamed]
  · simp [hknown]

theorem name_noteCreation (function : FunctionInsight) (creation : Creation) (time : UInt64)
    (memory : MemoryArea) : (function.noteCreation creation time memory).name = function.name := by
  cases creation <;> rfl

/-- The declaration holds the length of the name. -/
def LengthFits (function : FunctionInsight) : Prop :=
  function.declaration.length = nameLength function.name

theorem lengthFits_invariant : Invariant LengthFits where
  ofLocation location := rfl
  learnName location hfits := by
    unfold FunctionInsight.learnName
    split
    next => rfl
    next => exact hfits
  noteCreation creation time memory hfits := by
    rw [LengthFits, noteCreation_declaration, name_noteCreation]
    exact hfits
  deoptimize time reason position hfits := hfits

end FunctionInsight

namespace Store

/-- The records of a site name its function by the first name that one of them carries. -/
theorem name_of_replay {log : List Record} {site : String} {function : FunctionInsight}
    (hreplay : Log.replay (Log.routed site log) = some function) :
    function.name = (Log.firstName? site log).getD Location.unknownName := by
  induction log using List.reverseRecOn generalizing function with
  | nil => cases hreplay
  | append_singleton log record ih =>
      rw [Log.routed_concat] at hreplay
      rw [Log.firstName?_append, Log.firstName?_singleton]
      by_cases hroute : Log.route? log record = some site
      · rw [if_pos hroute, Log.replay_concat] at hreplay
        cases record with
        | deoptimization time address position reason =>
            obtain ⟨known, hprior, rfl⟩ := Option.map_eq_some_iff.mp hreplay
            rw [if_neg (by simp [Record.site?]), Option.or_none, ← ih hprior]
            rfl
        | creation creation time memory source =>
            obtain ⟨location, hsource, -⟩ := Option.map_eq_some_iff.mp hroute
            simp only [Record.attach, hsource, Option.some.injEq] at hreplay
            subst hreplay
            have hsite : (Record.creation creation time memory source).site? = some site := hroute
            rw [if_pos hsite, FunctionInsight.name_noteCreation]
            have hname := Record.name_of_locate? hsource time memory
            have hfollows := follows_ofLog log
            cases hprior : Log.replay (Log.routed site log) with
            | none =>
                -- no record has named the site before, so there was no name for it either
                have hnone : Log.firstName? site log = none := by
                  refine Log.firstName?_eq_none fun hnamed => ?_
                  rw [← hfollows.known_iff, hfollows.function_eq, hprior] at hnamed
                  cases hnamed
                rw [hnone, Option.none_or]
                exact hname
            | some known =>
                rw [FunctionInsight.meet, Option.map_some, Option.getD_some,
                  FunctionInsight.name_learnName, ih hprior]
                cases hfirst : Log.firstName? site log with
                | none => simpa using hname
                | some name =>
                    rw [Option.getD_some, Option.some_or, Option.getD_some]
                    exact if_neg (Log.ne_unknown_of_firstName? hfirst)
      · have hsite : ¬ Record.site? record = some site :=
          fun hsite => hroute (Log.route?_of_site? hsite log)
        rw [if_neg hroute, List.append_nil] at hreplay
        rw [if_neg hsite, Option.or_none]
        exact ih hreplay

theorem lengthFits_of_functionAtSite? {log : List Record} {site : String}
    {function : FunctionInsight} (hfunction : (ofLog log).functionAtSite? site = some function) :
    function.LengthFits := by
  rw [functionAtSite?_eq, Option.bind_eq_some_iff] at hfunction
  obtain ⟨handle, -, hheld⟩ := hfunction
  exact invariant_ofLog FunctionInsight.lengthFits_invariant log hheld

/-- A site tells where its function is declared. -/
theorem Indexed.exists_declares {store : Store} (hstore : store.Indexed) {site : String}
    {function : FunctionInsight} (hfunction : store.functionAtSite? site = some function) :
    ∃ filename, Location.Declares site filename function.declaration := by
  rw [functionAtSite?_eq, Option.bind_eq_some_iff] at hfunction
  obtain ⟨handle, hsite, hheld⟩ := hfunction
  obtain ⟨filename, found, -, hfound, hdeclares⟩ := hstore.function_of_site hsite
  obtain rfl := Option.some.inj (hheld.symm.trans hfound)
  exact ⟨filename, hdeclares⟩

/-- A function that is known at a site stays known there, and so does its place. -/
theorem exists_functionAtSite?_append {log : List Record} {site : String}
    {function : FunctionInsight} (hfunction : (ofLog log).functionAtSite? site = some function)
    (more : List Record) :
    ∃ later, (ofLog (log ++ more)).functionAtSite? site = some later ∧
      later.declaration.line = function.declaration.line ∧
      later.declaration.column = function.declaration.column := by
  have hbefore := follows_ofLog log
  have hafter := follows_ofLog (log ++ more)
  obtain ⟨record, hrecord, hsite⟩ :=
    (hbefore.known_iff site).mp (Option.isSome_of_eq_some hfunction)
  obtain ⟨later, hlater⟩ := Option.isSome_iff_exists.mp
    ((hafter.known_iff site).mpr ⟨record, List.mem_append_left more hrecord, hsite⟩)
  obtain ⟨filename, hdeclares⟩ := hbefore.exists_declares hfunction
  obtain ⟨laterFilename, hdeclaresLater⟩ := hafter.exists_declares hlater
  -- both places are what the site itself reads as
  have hsame := (hdeclaresLater "").symm.trans (hdeclares "")
  obtain ⟨-, -, hline, hcolumn, -⟩ := Location.mk.inj (Option.some.inj hsame)
  exact ⟨later, hlater, hline, hcolumn⟩

/-- The function of a site is named by the first record of a compilation of the site that carries a
name, and is unknown if there is none. The length of its declaration is that of the name. Behind
more records it still has its name, if it had one, and its declaration is still at the same line and
column. -/
theorem names_of_log (log : List Record) {site : String} {function : FunctionInsight}
    (hfunction : (ofLog log).functionAtSite? site = some function) :
    function.name = (Log.firstName? site log).getD "unknown" ∧
    (function.declaration.length.toNat = function.name.length % 2 ^ 32 ∧
      (function.name.length < 2 ^ 32 →
        function.declaration.length.toNat = function.name.length)) ∧
    ∀ more, ∃ later, (ofLog (log ++ more)).functionAtSite? site = some later ∧
      (function.name ≠ "unknown" → later.name = function.name) ∧
      later.declaration.line = function.declaration.line ∧
      later.declaration.column = function.declaration.column := by
  have hname : function.name = (Log.firstName? site log).getD "unknown" := by
    have hfound := hfunction
    rw [(follows_ofLog log).function_eq] at hfound
    exact name_of_replay hfound
  have hlength : function.declaration.length.toNat = function.name.length % 2 ^ 32 := by
    rw [lengthFits_of_functionAtSite? hfunction, FunctionInsight.nameLength, UInt32.toNat_ofNat']
  refine ⟨hname, ⟨hlength, fun hlt => hlength.trans (Nat.mod_eq_of_lt hlt)⟩, fun more => ?_⟩
  obtain ⟨later, hlater, hline, hcolumn⟩ := exists_functionAtSite?_append hfunction more
  refine ⟨later, hlater, fun hknown => ?_, hline, hcolumn⟩
  have hlaterName := hlater
  rw [(follows_ofLog (log ++ more)).function_eq] at hlaterName
  rw [name_of_replay hlaterName, Log.firstName?_append, hname]
  cases hfirst : Log.firstName? site log with
  | some name => rfl
  | none =>
      rw [hname, hfirst] at hknown
      exact absurd rfl hknown

/-- A function that is parsed first, compiled without a name and under the name of the unknown, and
then under two names. -/
theorem names_of_late_naming :
    let site := "file:///a.js:3:9"
    let log : List Record := [
      .creation .script 1 ⟨"0x1", 8⟩ " file:///a.js:3:9",
      .creation .compileStart 2 ⟨"0x2", 8⟩ " file:///a.js:3:9",
      .creation .compileEnd 3 ⟨"0xA", 8⟩ "unknown file:///a.js:3:9",
      .creation .compileStart 4 ⟨"0x2", 8⟩ "größe file:///a.js:3:9"]
    let more : List Record := [
      .creation .compileEnd 5 ⟨"0xA", 8⟩ "g file:///a.js:3:9",
      .deoptimization 6 "0xa" "file:///a.js:4:1" "wrong map"]
    let function : FunctionInsight := {
      name := "größe"
      declaration := ⟨2, 9, 5⟩
      events := [⟨1, .parse ⟨"0x1", 8⟩⟩, ⟨2, .compileStart⟩, ⟨3, .compileEnd ⟨"0xA", 8⟩⟩,
        ⟨4, .compileStart⟩]
      isCompiled := true
      wasDeoptimized := false
      compileTime := some 1 }
    (ofLog log).functionAtSite? site = some function ∧
      Log.firstName? site log = some "größe" ∧ function.name.length < 2 ^ 32 ∧
      ∃ later, (ofLog (log ++ more)).functionAtSite? site = some later ∧ later.name = "größe" ∧
        later.declaration.line = 2 ∧ later.declaration.column = 9 := by
  intro site log more function
  have hfunction : (ofLog log).functionAtSite? site = some function := by
    decide +kernel
  obtain ⟨-, -, hmore⟩ := names_of_log log hfunction
  obtain ⟨later, hlater, hname, hline, hcolumn⟩ := hmore more
  refine ⟨hfunction, by decide +kernel, by decide +kernel, later, hlater, hname (by decide), hline,
    hcolumn⟩

end Store

end JitTrace
