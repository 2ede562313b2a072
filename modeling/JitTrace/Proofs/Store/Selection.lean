import JitTrace.Proofs.Location
import JitTrace.Proofs.Store.Frame
import JitTrace.Proofs.Text.Numeral
import JitTrace.Store.Selection
import JitTrace.Terminal.Render

/-! # Functions that a summary shows

A summary shows the functions of a file by their lines, counted from one, and a selector asks for a
function by its file and such a line. Several functions may be declared on one line: the one that is
picked is the first of its file there, and this is the one whose site the log names first.
-/

namespace JitTrace

/-! ## Lines -/

namespace Location

/-- A zero-based line is not the last number there is, so that it can be counted from one. -/
theorem zeroBased_lt (line : UInt32) : (zeroBased line).toNat + 1 < UInt32.size := by
  have hline := line.toNat_lt
  rw [zeroBased]
  split
  next => decide
  next hzero =>
    have hpos : 1 ≤ line := by
      rw [UInt32.le_iff_toNat_le, UInt32.toNat_one]
      rw [← UInt32.toNat_inj, UInt32.toNat_zero] at hzero
      omega
    rw [UInt32.toNat_sub_of_le _ _ hpos, UInt32.toNat_one]
    rw [UInt32.le_iff_toNat_le, UInt32.toNat_one] at hpos
    simp only [UInt32.size]
    omega

theorem line_lt_of_parse? {name site : String} {location : Location}
    (hparse : parse? name site = some location) : location.line.toNat + 1 < UInt32.size := by
  simp only [parse?, Option.bind_eq_bind, Option.bind_eq_some_iff, Option.pure_def,
    Option.some.injEq] at hparse
  obtain ⟨_, _, _, _, _, _, line, _, rfl⟩ := hparse
  exact zeroBased_lt line

end Location

namespace Declaration

variable {declaration : Declaration}

theorem toNat_shownLine (hline : declaration.line.toNat + 1 < UInt32.size) :
    declaration.shownLine.toNat = declaration.line.toNat + 1 := by
  rw [shownLine, UInt32.toNat_add, UInt32.toNat_one]
  exact Nat.mod_eq_of_lt hline

theorem shownLine_ne_zero (hline : declaration.line.toNat + 1 < UInt32.size) :
    declaration.shownLine ≠ 0 := by
  rw [ne_eq, ← UInt32.toNat_inj, toNat_shownLine hline, UInt32.toNat_zero]
  exact Nat.succ_ne_zero _

/-- The line that is shown is taken for the line of the declaration. -/
theorem zeroBased_shownLine (hline : declaration.line.toNat + 1 < UInt32.size) :
    Location.zeroBased declaration.shownLine = declaration.line := by
  rw [Location.zeroBased, if_neg (shownLine_ne_zero hline), shownLine, UInt32.add_sub_cancel]

theorem validate_shownLine (hline : declaration.line.toNat + 1 < UInt32.size) {filename : String}
    (hfilename : filename ≠ "") :
    Selector.validate ⟨filename, declaration.shownLine⟩ = .ok () := by
  rw [Selector.validate, if_neg (by simpa using hfilename), if_neg (shownLine_ne_zero hline)]

end Declaration

/-- The row of a function starts with the line that is shown. -/
theorem FunctionInsight.exists_renderRow_eq (function : FunctionInsight) (palette : Palette) :
    ∃ rest, function.renderRow palette =
      "  " ++ Text.padLeft 5 (toString function.declaration.shownLine.toNat) ++ ":" ++ rest := by
  refine ⟨Text.padRight 4 (toString function.declaration.column) ++ " " ++
    Text.padRight 24 function.name ++ " " ++ function.paintedLens palette ++ "\n", ?_⟩
  simp only [renderRow, ← String.append_assoc]
  rfl

/-! ## Locations in a log -/

/-- The location that a record names. -/
def Record.location? : Record → Option Location
  | .creation kind _ _ source => kind.locate? source
  | .deoptimization _ _ _ _ => none

theorem Record.site?_eq (record : Record) : record.site? = record.location?.map Location.key := by
  cases record <;> rfl

theorem Record.parse?_of_location? {record : Record} {location : Location}
    (hlocation : record.location? = some location) :
    Location.parse? location.name location.key = some location := by
  cases record with
  | creation kind time memory source => exact Creation.exists_parse?_of_locate? hlocation
  | deoptimization time address position reason => cases hlocation

namespace Log

theorem parse?_of_mem {log : List Record} {location : Location}
    (hlocation : location ∈ log.filterMap Record.location?) :
    Location.parse? location.name location.key = some location := by
  obtain ⟨record, -, hnamed⟩ := List.mem_filterMap.mp hlocation
  exact Record.parse?_of_location? hnamed

/-- The first location that a log names on a line of a file. -/
def firstOn? (filename : String) (line : UInt32) (log : List Record) : Option Location :=
  (log.filterMap Record.location?).find? fun location =>
    location.filename = filename ∧ location.line = line

theorem spec_of_firstOn? {filename : String} {line : UInt32} {log : List Record}
    {location : Location} (hfirst : firstOn? filename line log = some location) :
    location ∈ log.filterMap Record.location? ∧
      location.filename = filename ∧ location.line = line := by
  rw [firstOn?] at hfirst
  exact ⟨List.mem_of_find?_eq_some hfirst, of_decide_eq_true (List.find?_some hfirst :)⟩

theorem exists_firstOn? {log : List Record} {location : Location}
    (hlocation : location ∈ log.filterMap Record.location?) :
    ∃ first, firstOn? location.filename location.line log = some first := by
  rw [← Option.isSome_iff_exists, firstOn?, List.find?_isSome]
  exact ⟨location, hlocation, decide_eq_true ⟨rfl, rfl⟩⟩

theorem firstOn?_concat (filename : String) (line : UInt32) (log : List Record) (record : Record) :
    firstOn? filename line (log ++ [record]) =
      (firstOn? filename line log).or
        (record.location?.filter fun location =>
          location.filename = filename ∧ location.line = line) := by
  rw [firstOn?, List.filterMap_append, List.find?_append, ← firstOn?]
  congr 1
  cases hlocation : record.location? with
  | none =>
      rw [List.filterMap_cons_none hlocation]
      rfl
  | some location =>
      rw [List.filterMap_cons_some hlocation, List.filterMap_nil, List.find?_singleton,
        Option.filter_some]

end Log

namespace Store

/-! ## The first function on a line -/

/-- The site of a location leads to a position, and no function in front of it in its file is
declared on the same line. -/
structure FirstOn (store : Store) (location : Location) (handle : Handle) : Prop where
  site_eq : store.bySite.get? location.key = some handle
  first : ∀ index < handle.function, ∀ function,
    store.function? ⟨handle.file, index⟩ = some function →
      function.declaration.line ≠ location.line

/-- What a site leads to is declared where the site reads. -/
theorem Indexed.reads_of_site {store : Store} (hstore : store.Indexed) {location : Location}
    {name : String} {handle : Handle} (hsite : store.bySite.get? location.key = some handle)
    (hparse : Location.parse? name location.key = some location) :
    store.filename? handle.file = some location.filename ∧
      ∃ function, store.function? handle = some function ∧
        function.declaration.line = location.line := by
  obtain ⟨filename, function, hfilename, hfunction, hdeclares⟩ := hstore.function_of_site hsite
  rw [hdeclares name, Option.some.injEq] at hparse
  rw [← hparse]
  exact ⟨hfilename, function, hfunction, rfl⟩

/-- A position in front of a function holds a function too. -/
theorem isSome_function?_of_lt {store : Store} {handle : Handle}
    (hfunction : (store.function? handle).isSome) {index : Nat} (hlt : index < handle.function) :
    (store.function? ⟨handle.file, index⟩).isSome := by
  obtain ⟨function, hfunction⟩ := Option.isSome_iff_exists.mp hfunction
  obtain ⟨file, hfile, hheld⟩ := function?_eq_some_iff.mp hfunction
  obtain ⟨hlength, -⟩ := List.getElem?_eq_some_iff.mp hheld
  rw [function?_eq, hfile, Option.bind_some, List.getElem?_eq_getElem (Nat.lt_trans hlt hlength)]
  rfl

section Attached

variable {store next : Store} {site : String} {handle : Handle} {function : FunctionInsight}

/-- A function stays on its line when its site is attached to. -/
theorem Attached.line_eq (hstore : store.Indexed)
    (hattached : Attached store next site handle function) {known : FunctionInsight}
    (hknown : store.function? handle = some known) :
    function.declaration.line = known.declaration.line := by
  have hbefore := hattached.functionAtSite?_of_function? hstore hknown
  rw [functionAtSite?_eq, Option.bind_eq_some_iff] at hbefore
  obtain ⟨position, hposition, hheld⟩ := hbefore
  obtain ⟨_, _, _, hfound, hdeclared⟩ := hstore.function_of_site hposition
  rw [hheld, Option.some.injEq] at hfound
  subst hfound
  have hsite : next.bySite.get? site = some handle := by
    rw [hattached.handle_at, if_pos rfl]
  obtain ⟨_, _, _, hafter, hdeclares⟩ := hattached.indexed.function_of_site hsite
  rw [hattached.function_at, if_pos rfl, Option.some.injEq] at hafter
  subst hafter
  have hsame := (hdeclares "").symm.trans (hdeclared "")
  simp only [Option.some.injEq, Location.mk.injEq] at hsame
  exact hsame.2.2.1

/-- The first function on a line stays the first one. -/
theorem Attached.firstOn (hstore : store.Indexed)
    (hattached : Attached store next site handle function) {location : Location}
    {position : Handle} (hfirst : store.FirstOn location position) :
    next.FirstOn location position := by
  refine ⟨?_, ?_⟩
  · rw [hattached.handle_at]
    split
    next heq =>
      have hsite := hfirst.site_eq
      rw [heq] at hsite
      rw [hattached.handle_eq hstore hsite]
    next => exact hfirst.site_eq
  · intro index hlt held hheld
    rw [hattached.function_at] at hheld
    split at hheld
    next hhere =>
      -- a function was there before, since one was behind it
      obtain ⟨_, last, _, hlast, _⟩ := hstore.function_of_site hfirst.site_eq
      obtain ⟨known, hknown⟩ := Option.isSome_iff_exists.mp
        (isSome_function?_of_lt (Option.isSome_of_eq_some hlast) hlt)
      cases hheld
      rw [hattached.line_eq hstore (hhere ▸ hknown)]
      exact hfirst.first index hlt known hknown
    next => exact hfirst.first index hlt held hheld

/-- The function of a site comes first on its line if no site before was on this line of its
file. -/
theorem Attached.firstOn_new {location : Location} {name : String}
    (hattached : Attached store next location.key handle function)
    (hparse : Location.parse? name location.key = some location)
    (hnew : ∀ other found, (store.bySite.get? other).isSome →
      Location.parse? "" other = some found →
        ¬ (found.filename = location.filename ∧ found.line = location.line)) :
    next.FirstOn location handle := by
  have hsite : next.bySite.get? location.key = some handle := by
    rw [hattached.handle_at, if_pos rfl]
  refine ⟨hsite, ?_⟩
  intro index hlt held hheld hline
  obtain ⟨hfilename, -⟩ := hattached.indexed.reads_of_site hsite hparse
  obtain ⟨other, hother⟩ := hattached.indexed.site_of_function (Option.isSome_of_eq_some hheld)
  obtain ⟨filename, function, hname, hfunction, hdeclares⟩ :=
    hattached.indexed.function_of_site hother
  rw [hheld, Option.some.injEq] at hfunction
  subst hfunction
  have hsame : filename = location.filename := Option.some.inj (hname.symm.trans hfilename)
  -- the position is not that of the site, so its own site was known before
  have hknown : (store.bySite.get? other).isSome := by
    rw [hattached.handle_at] at hother
    split at hother
    next =>
      have hindex := congrArg Handle.function (Option.some.inj hother)
      exact absurd hindex (Nat.ne_of_gt hlt)
    next => exact Option.isSome_of_eq_some hother
  exact hnew other _ hknown (hdeclares "") ⟨hsame, hline⟩

end Attached

theorem Applies.firstOn {store : Store} (hstore : store.Indexed) {record : Record}
    {result : Outcome × Store} (happlies : Applies store record result) {location : Location}
    {handle : Handle} (hfirst : store.FirstOn location handle) :
    result.2.FirstOn location handle := by
  cases happlies with
  | ignored => exact hfirst
  | unresolved => exact hfirst
  | created hsource hattached => exact hattached.firstOn hstore hfirst
  | deoptimized haddress hsite hfunction hattached => exact hattached.firstOn hstore hfirst

theorem Applies.exists_attached {store : Store} {record : Record} {result : Outcome × Store}
    (happlies : Applies store record result) {location : Location}
    (hlocation : record.location? = some location) :
    ∃ handle function, Attached store result.2 location.key handle function := by
  cases happlies with
  | ignored hsource => cases hsource.symm.trans hlocation
  | created hsource hattached =>
      obtain rfl := Option.some.inj (hsource.symm.trans hlocation)
      exact ⟨_, _, hattached⟩
  | unresolved => cases hlocation
  | deoptimized => cases hlocation

/-- A site that is known reads as a location that the log names. -/
theorem Follows.exists_location {store : Store} {log : List Record} (hfollows : store.Follows log)
    {site : String} (hsite : (store.bySite.get? site).isSome) :
    ∃ location ∈ log.filterMap Record.location?,
      Location.parse? location.name site = some location := by
  obtain ⟨record, hrecord, hnamed⟩ := (hfollows.site_iff site).mp hsite
  rw [Record.site?_eq, Option.map_eq_some_iff] at hnamed
  obtain ⟨location, hlocation, rfl⟩ := hnamed
  exact ⟨location, List.mem_filterMap.mpr ⟨record, hrecord, hlocation⟩,
    Record.parse?_of_location? hlocation⟩

/-- The log names the place of every function that a store knows. -/
theorem Follows.exists_location_of_mem {store : Store} {log : List Record}
    (hfollows : store.Follows log) {file : FileInsight} (hfile : file ∈ store.files)
    {function : FunctionInsight} (hfunction : function ∈ file.functions) :
    ∃ location ∈ log.filterMap Record.location?,
      location.filename = file.filename ∧ location.line = function.declaration.line := by
  obtain ⟨position, hposition⟩ := List.getElem?_of_mem hfile
  obtain ⟨index, hindex⟩ := List.getElem?_of_mem hfunction
  have hheld : store.function? ⟨position, index⟩ = some function :=
    function?_eq_some_iff.mpr ⟨file, hposition, hindex⟩
  obtain ⟨site, hsite⟩ := hfollows.site_of_function (Option.isSome_of_eq_some hheld)
  obtain ⟨location, hlocation, hparse⟩ :=
    hfollows.exists_location (Option.isSome_of_eq_some hsite)
  have hkey := (Location.key_of_parse? hparse).1
  subst hkey
  obtain ⟨hname, found, hfound, hline⟩ := hfollows.reads_of_site hsite hparse
  obtain rfl : function = found := Option.some.inj (hheld.symm.trans hfound)
  obtain ⟨insight, hinsight, hfilename⟩ := filename?_eq_some_iff.mp hname
  obtain rfl : file = insight := Option.some.inj (hposition.symm.trans hinsight)
  exact ⟨location, hlocation, hfilename.symm, hline.symm⟩

/-- The first location that a log names on a line of a file is that of the first function there. -/
theorem exists_firstOn {log : List Record} {filename : String} {line : UInt32}
    {location : Location} (hfirst : Log.firstOn? filename line log = some location) :
    ∃ handle, (ofLog log).FirstOn location handle := by
  induction log using List.reverseRecOn generalizing location with
  | nil => cases hfirst
  | append_singleton log record ih =>
      have hfollows := follows_ofLog log
      have happlies := hfollows.toConsistent.applies record
      rw [Log.firstOn?_concat] at hfirst
      rw [ofLog_concat]
      cases hearlier : Log.firstOn? filename line log with
      | some earlier =>
          rw [hearlier, Option.some_or, Option.some.injEq] at hfirst
          subst hfirst
          obtain ⟨handle, hhandle⟩ := ih hearlier
          exact ⟨handle, happlies.firstOn hfollows.toIndexed hhandle⟩
      | none =>
          rw [hearlier, Option.none_or, Option.filter_eq_some_iff] at hfirst
          obtain ⟨hlocation, hwanted⟩ := hfirst
          obtain ⟨rfl, rfl⟩ := of_decide_eq_true hwanted
          obtain ⟨handle, function, hattached⟩ := happlies.exists_attached hlocation
          refine ⟨handle, hattached.firstOn_new (Record.parse?_of_location? hlocation) ?_⟩
          -- the log would have named the site before, with the same file and line
          intro other found hknown hparse hsame
          obtain ⟨known, hmem, hreads⟩ := hfollows.exists_location hknown
          rw [Location.declares_of_parse? hparse 0 known.name, Option.some.injEq] at hreads
          refine List.find?_eq_none.mp hearlier known hmem (decide_eq_true ?_)
          rw [← hreads]
          exact hsame

/-! ## Picking what is shown -/

variable {store : Store} {file : FileInsight}

theorem Indexed.file?_filename (hstore : store.Indexed) (hfile : file ∈ store.files) :
    store.file? file.filename = some file := by
  obtain ⟨position, hposition⟩ := List.getElem?_of_mem hfile
  have hname : store.byFilename.get? file.filename = some position :=
    hstore.filename_iff.mpr (filename?_eq_some_iff.mpr ⟨file, hposition, rfl⟩)
  simp [file?, hname, hposition]

/-- What is first on a line in the store is first on this line in the list of its file. -/
theorem FirstOn.exists_split (hstore : store.Indexed) (hfile : file ∈ store.files)
    {location : Location} {name : String} {handle : Handle}
    (hfirst : store.FirstOn location handle)
    (hparse : Location.parse? name location.key = some location)
    (hfilename : location.filename = file.filename) :
    ∃ before first behind, file.functions = before ++ first :: behind ∧
      store.functionAtSite? location.key = some first ∧
      first.declaration.line = location.line ∧
      ∀ other ∈ before, other.declaration.line ≠ location.line := by
  obtain ⟨hname, first, hfunction, hline⟩ := hstore.reads_of_site hfirst.site_eq hparse
  have hposition : store.files[handle.file]? = some file := by
    have hfound := hstore.file?_filename hfile
    rw [hfilename] at hname
    simpa [file?, hstore.filename_iff.mpr hname] using hfound
  obtain ⟨found, hfound, hheld⟩ := function?_eq_some_iff.mp hfunction
  obtain rfl : file = found := Option.some.inj (hposition.symm.trans hfound)
  obtain ⟨before, behind, hfunctions, hlength⟩ := exists_append_of_getElem? hheld
  refine ⟨before, first, behind, hfunctions, ?_, hline, ?_⟩
  · rw [functionAtSite?_eq, hfirst.site_eq, Option.bind_some, hfunction]
  · intro other hother
    obtain ⟨index, hindex⟩ := List.getElem?_of_mem hother
    obtain ⟨hlt, -⟩ := List.getElem?_eq_some_iff.mp hindex
    refine hfirst.first index (hlength ▸ hlt) other (function?_eq_some_iff.mpr ⟨file, hfound, ?_⟩)
    rw [hfunctions, List.getElem?_append_left hlt, hindex]

/-- The function that comes first on a line is the one that is picked there. -/
theorem select_of_split (hstore : store.Indexed) (hfile : file ∈ store.files)
    {declaration : Declaration} (hline : declaration.line.toNat + 1 < UInt32.size)
    {before behind : List FunctionInsight} {first : FunctionInsight}
    (hfunctions : file.functions = before ++ first :: behind)
    (hfirst : first.declaration.line = declaration.line)
    (hbefore : ∀ other ∈ before, other.declaration.line ≠ declaration.line) :
    store.select ⟨file.filename, declaration.shownLine⟩ = .ok first := by
  have hfound : file.functionAtLine? declaration.line = some first := by
    rw [FileInsight.functionAtLine?, List.find?_eq_some_iff_append]
    exact ⟨by simpa using hfirst, before, behind, hfunctions, by simpa using hbefore⟩
  simp only [select, hstore.file?_filename hfile, Declaration.zeroBased_shownLine hline, hfound]

/-- In every store there is, the line that the summary of a file shows for a function, counted from
one, fits the numbers that lines have, and is accepted by a selector of the file if the file has a
name. It picks the first function of the file on this line, whose site is that of the first location
there that the records of the store name. -/
theorem select_shown_line (operations : List Operation) {file : FileInsight}
    (hfile : file ∈ (after operations).files) {function : FunctionInsight}
    (hfunction : function ∈ file.functions) :
    let store := after operations
    let line := function.declaration.line
    let selector : Selector := ⟨file.filename, function.declaration.shownLine⟩
    line.toNat + 1 < UInt32.size ∧ selector.line.toNat = line.toNat + 1 ∧
    Text.readUInt32? (toString (line.toNat + 1)) = some selector.line ∧
    (∀ palette, ∃ rest, function.renderRow palette =
      "  " ++ Text.padLeft 5 (toString (line.toNat + 1)) ++ ":" ++ rest) ∧
    (file.filename ≠ "" → selector.validate = .ok ()) ∧
    ∃ before first behind, file.functions = before ++ first :: behind ∧
      first.declaration.line = line ∧ (∀ other ∈ before, other.declaration.line ≠ line) ∧
      store.select selector = .ok first ∧
      ∃ location, Log.firstOn? file.filename line (recorded operations) = some location ∧
        store.functionAtSite? location.key = some first := by
  intro store line selector
  have hfollows : store.Follows (recorded operations) := by
    rw [show store = ofLog (recorded operations) from after_eq_ofLog operations]
    exact follows_ofLog (recorded operations)
  obtain ⟨place, hplace, hfilename, hline⟩ := hfollows.exists_location_of_mem hfile hfunction
  have hbound : line.toNat + 1 < UInt32.size := by
    rw [← show place.line = line from hline]
    exact Location.line_lt_of_parse? (Log.parse?_of_mem hplace)
  have hshown := Declaration.toNat_shownLine hbound
  refine ⟨hbound, hshown, ?_, ?_, Declaration.validate_shownLine hbound, ?_⟩
  · rw [← hshown]
    exact Text.readUInt32?_toString selector.line
  · intro palette
    rw [← hshown]
    exact function.exists_renderRow_eq palette
  · obtain ⟨location, hlocation⟩ := Log.exists_firstOn? hplace
    rw [hfilename, hline] at hlocation
    obtain ⟨handle, hfirst⟩ := exists_firstOn hlocation
    rw [← after_eq_ofLog] at hfirst
    obtain ⟨hmem, hsame, hthere⟩ := Log.spec_of_firstOn? hlocation
    obtain ⟨before, first, behind, hfunctions, hsite, hheld, hbefore⟩ :=
      hfirst.exists_split hfollows.toIndexed hfile (Log.parse?_of_mem hmem) hsame
    rw [hthere] at hheld hbefore
    exact ⟨before, first, behind, hfunctions, hheld, hbefore,
      select_of_split hfollows.toIndexed hfile hbound hfunctions hheld hbefore,
      location, hlocation, hsite⟩

/-- Two functions on the first line, which the log counts from zero for one of them and from one for
the other, and a function on the last line there is. -/
theorem select_shown_line_of_shared_line :
    let compiled (source : String) : Operation :=
      .apply (.creation .compileStart 7 ⟨"0xA", 8⟩ source)
    let operations := [compiled "f file:///a.js:0:1", compiled "g file:///a.js:1:5",
      compiled "h file:///a.js:4294967295:1"]
    let function (name : String) (line column : UInt32) : FunctionInsight :=
      ⟨name, ⟨line, column, 1⟩, [⟨7, .compileStart⟩], false, false, none⟩
    let file : FileInsight :=
      ⟨"/a.js", [function "f" 0 1, function "g" 0 5, function "h" 4294967294 1]⟩
    file ∈ (after operations).files ∧
      (function "g" 0 5).declaration.shownLine = 1 ∧
      (after operations).select ⟨"/a.js", 1⟩ = .ok (function "f" 0 1) ∧
      (function "h" 4294967294 1).declaration.shownLine = 4294967295 ∧
      ∃ first, (after operations).select ⟨"/a.js", 4294967295⟩ = .ok first ∧
        first.declaration.line = 4294967294 := by
  intro compiled operations function file
  have hfile : file ∈ (after operations).files := by decide +kernel
  have hlast : function "h" 4294967294 1 ∈ file.functions := by decide
  obtain ⟨-, -, -, -, -, before, first, behind, -, hline, -, hselect, -⟩ :=
    select_shown_line operations hfile hlast
  exact ⟨hfile, by decide, by decide +kernel, by decide, first, hselect, hline⟩

end Store

end JitTrace
