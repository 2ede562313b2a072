import JitTrace.Proofs.Store.Position

/-! # Attaching to a function

In a store that the log has built, the index of file names and the index of sites lead to every
file and every function exactly once. Records are attached by finding or registering the function
of a site and changing it in place. Both are one step on the views of a store: the site leads to
one position, the function there is replaced, and nothing else moves.
-/

namespace JitTrace

namespace Location

/-- A site reads as a declaration in a file, whatever name is put in front of it. -/
def Declares (site filename : String) (declaration : Declaration) : Prop :=
  ∀ name, parse? name site = some ⟨name, filename, declaration.line, declaration.column, site⟩

theorem key_of_parse? {name site : String} {location : Location}
    (hparse : parse? name site = some location) : location.key = site ∧ location.name = name := by
  simp only [parse?, Option.bind_eq_bind, Option.bind_eq_some_iff, Option.pure_def,
    Option.some.injEq] at hparse
  obtain ⟨_, _, _, _, _, _, _, _, rfl⟩ := hparse
  exact ⟨rfl, rfl⟩

/-- The name in front of a site does not matter for what the site reads as. -/
theorem declares_of_parse? {name site : String} {location : Location}
    (hparse : parse? name site = some location) (length : UInt32) :
    Declares site location.filename ⟨location.line, location.column, length⟩ := by
  intro other
  simp only [parse?, Option.bind_eq_bind, Option.bind_eq_some_iff, Option.pure_def,
    Option.some.injEq] at hparse ⊢
  obtain ⟨front, hfront, column, hcolumn, path, hpath, line, hline, rfl⟩ := hparse
  exact ⟨front, hfront, column, hcolumn, path, hpath, line, hline, rfl⟩

end Location

/-- What a record reads as names the site that it reads. -/
theorem Creation.exists_parse?_of_locate? {creation : Creation} {source : String}
    {location : Location} (hlocate : creation.locate? source = some location) :
    Location.parse? location.name location.key = some location := by
  have hparse : ∃ name site, Location.parse? name site = some location := by
    unfold Creation.locate? at hlocate
    split at hlocate
    next =>
      simp only [Location.ofNamed?, Option.bind_eq_bind, Option.bind_eq_some_iff] at hlocate
      obtain ⟨parts, _, hparse⟩ := hlocate
      exact ⟨_, _, hparse⟩
    next => exact ⟨_, _, hlocate⟩
  obtain ⟨name, site, hparse⟩ := hparse
  obtain ⟨rfl, rfl⟩ := Location.key_of_parse? hparse
  exact hparse

namespace Store

/-- The indexes of file names and of sites fit the files of a store. -/
structure Indexed (store : Store) : Prop where
  filename_iff : ∀ {filename file},
    store.byFilename.get? filename = some file ↔ store.filename? file = some filename
  sites_nodup : store.bySite.keys.Nodup
  function_of_site : ∀ {site handle}, store.bySite.get? site = some handle →
    ∃ filename function, store.filename? handle.file = some filename ∧
      store.function? handle = some function ∧
      Location.Declares site filename function.declaration
  site_of_function : ∀ {handle}, (store.function? handle).isSome →
    ∃ site, store.bySite.get? site = some handle
  site_unique : ∀ {site other handle}, store.bySite.get? site = some handle →
    store.bySite.get? other = some handle → other = site
  file_nonempty : ∀ {file}, (store.filename? file).isSome →
    (store.function? ⟨file, 0⟩).isSome
  count_eq : store.functionCount = store.functionTotal

theorem indexed_empty : (∅ : Store).Indexed where
  filename_iff := by
    intro filename file
    constructor <;> intro hfile <;> cases hfile
  sites_nodup := List.nodup_nil
  function_of_site := fun hsite => by cases hsite
  site_of_function := fun hfunction => by cases hfunction
  site_unique := fun hsite => by cases hsite
  file_nonempty := fun hfile => by cases hfile
  count_eq := rfl

/-- Code addresses are not among what these indexes say. -/
theorem Indexed.withAddresses {store : Store} (hstore : store.Indexed) (addresses : Index Handle) :
    { store with byAddress := addresses }.Indexed :=
  ⟨hstore.filename_iff, hstore.sites_nodup, hstore.function_of_site, hstore.site_of_function,
    hstore.site_unique, hstore.file_nonempty, hstore.count_eq⟩

/-- From one store to the next, a site leads to a position that holds the given function, and all
other sites and positions are as before. -/
structure Attached (store next : Store) (site : String) (handle : Handle)
    (function : FunctionInsight) : Prop where
  indexed : next.Indexed
  handle_at : ∀ other,
    next.bySite.get? other = if other = site then some handle else store.bySite.get? other
  function_at : ∀ other,
    next.function? other = if other = handle then some function else store.function? other

theorem Attached.withAddresses {store next : Store} {site : String} {handle : Handle}
    {function : FunctionInsight} (hattached : Attached store next site handle function)
    (addresses : Index Handle) :
    Attached store { next with byAddress := addresses } site handle function :=
  ⟨hattached.indexed.withAddresses addresses, hattached.handle_at, hattached.function_at⟩

/-- Read by sites, attaching replaces the function of one site. -/
theorem Attached.functionAtSite? {store next : Store} {site : String} {handle : Handle}
    {function : FunctionInsight} (hattached : Attached store next site handle function)
    (other : String) :
    next.functionAtSite? other =
      if other = site then some function else store.functionAtSite? other := by
  rw [functionAtSite?_eq, functionAtSite?_eq, hattached.handle_at]
  by_cases heq : other = site
  · rw [if_pos heq, if_pos heq, Option.bind_some, hattached.function_at, if_pos rfl]
  · rw [if_neg heq, if_neg heq]
    cases hfound : store.bySite.get? other with
    | none => rfl
    | some position =>
        have hother : next.bySite.get? other = some position := by
          rw [hattached.handle_at, if_neg heq, hfound]
        have hsite : next.bySite.get? site = some handle := by
          rw [hattached.handle_at, if_pos rfl]
        have hne : position ≠ handle := by
          intro hsame
          exact heq (hattached.indexed.site_unique hsite (hsame ▸ hother))
        rw [Option.bind_some, Option.bind_some, hattached.function_at, if_neg hne]

/-- Indexes that fit a store fit the next one if a site leads to one position there, a function is
put at this position, and files are only added for it. -/
theorem Indexed.attached {store next : Store} (hstore : store.Indexed) {site filename : String}
    {handle : Handle} {function : FunctionInsight}
    (hsites : ∀ other,
      next.bySite.get? other = if other = site then some handle else store.bySite.get? other)
    (hfunctions : ∀ other,
      next.function? other = if other = handle then some function else store.function? other)
    (hsite : ∀ {position}, store.bySite.get? site = some position → position = handle)
    (howner : ∀ {other}, store.bySite.get? other = some handle → other = site)
    (hnames : ∀ {name file},
      next.byFilename.get? name = some file ↔ next.filename? file = some name)
    (hkept : ∀ {file name}, store.filename? file = some name → next.filename? file = some name)
    (hadded : ∀ {file}, (next.filename? file).isSome →
      (store.filename? file).isSome ∨ handle = ⟨file, 0⟩)
    (hfilename : next.filename? handle.file = some filename)
    (hdeclares : Location.Declares site filename function.declaration)
    (hnodup : next.bySite.keys.Nodup) (hcount : next.functionCount = next.functionTotal) :
    Attached store next site handle function := by
  refine ⟨⟨hnames, hnodup, ?_, ?_, ?_, ?_, hcount⟩, hsites, hfunctions⟩
  · intro other position hother
    rw [hsites] at hother
    by_cases heq : other = site
    · rw [if_pos heq, Option.some.injEq] at hother
      subst heq hother
      exact ⟨filename, function, hfilename, by rw [hfunctions, if_pos rfl], hdeclares⟩
    · rw [if_neg heq] at hother
      obtain ⟨name, held, hname, hheld, hdeclared⟩ := hstore.function_of_site hother
      -- another site leads past the new function, since the position is that of its site alone
      have hne : position ≠ handle := fun hsame => heq (howner (hsame ▸ hother))
      exact ⟨name, held, hkept hname, by rw [hfunctions, if_neg hne, hheld], hdeclared⟩
  · intro position hposition
    rw [hfunctions] at hposition
    by_cases heq : position = handle
    · exact ⟨site, by rw [hsites, if_pos rfl, heq]⟩
    · rw [if_neg heq] at hposition
      obtain ⟨other, hother⟩ := hstore.site_of_function hposition
      have hne : other ≠ site := fun hsame => heq (hsite (hsame ▸ hother))
      exact ⟨other, by rw [hsites, if_neg hne, hother]⟩
  · intro first second position hfirst hsecond
    rw [hsites] at hfirst hsecond
    split at hfirst <;> split at hsecond
    next hsame hsame' => rw [hsame, hsame']
    next hsame _ =>
      obtain rfl := Option.some.inj hfirst
      exact (howner hsecond).trans hsame.symm
    next _ hsame =>
      obtain rfl := Option.some.inj hsecond
      exact hsame.trans (howner hfirst).symm
    next => exact hstore.site_unique hfirst hsecond
  · intro file hfile
    rw [hfunctions]
    split
    next => rfl
    next hne =>
      rcases hadded hfile with hold | hfirst
      · exact hstore.file_nonempty hold
      · exact absurd hfirst.symm hne

/-- A function stays where it is found when it is changed without moving its declaration. -/
theorem Indexed.attached_modify {store : Store} (hstore : store.Indexed) {site : String}
    {handle : Handle} {function : FunctionInsight} (hsite : store.bySite.get? site = some handle)
    (hfunction : store.function? handle = some function)
    (change : FunctionInsight → FunctionInsight)
    (hline : (change function).declaration.line = function.declaration.line)
    (hcolumn : (change function).declaration.column = function.declaration.column) :
    Attached store (store.modify handle change) site handle (change function) := by
  obtain ⟨filename, held, hname, hheld, hdeclares⟩ := hstore.function_of_site hsite
  obtain rfl : function = held := Option.some.inj (hfunction.symm.trans hheld)
  refine hstore.attached ?_ ?_ ?_ ?_ ?_ ?_ ?_ ((filename?_modify ..).trans hname) ?_
    hstore.sites_nodup ?_
  · intro other
    rw [bySite_modify]
    split
    next heq => rw [heq, hsite]
    next => rfl
  · intro other
    rw [function?_modify, hfunction, Option.map_some]
  · intro position hposition
    exact Option.some.inj (hposition.symm.trans hsite)
  · intro other hother
    exact hstore.site_unique hsite hother
  · intro name file
    rw [filename?_modify]
    exact hstore.filename_iff
  · intro file name hfile
    exact (filename?_modify ..).trans hfile
  · intro file hfile
    rw [filename?_modify] at hfile
    exact Or.inl hfile
  · intro name
    rw [hline, hcolumn]
    exact hdeclares name
  · rw [functionTotal_modify]
    exact hstore.count_eq

/-! ## Opening a file -/

theorem get?_byFilename_ensureFile (store : Store) (filename wanted : String) :
    (store.ensureFile filename).2.byFilename.get? wanted =
      if wanted = filename then some (store.ensureFile filename).1
      else store.byFilename.get? wanted := by
  cases hfound : store.byFilename.get? filename with
  | none =>
      rw [ensureFile_of_none hfound]
      exact Index.get?_insert _ _ _ _
  | some file =>
      rw [ensureFile_of_some hfound]
      split
      next heq => rw [heq, hfound]
      next => rfl

theorem filename?_length (store : Store) : store.filename? store.files.length = none := by
  simp [filename?]

/-- An opened file has its name, and all others have theirs. -/
theorem Indexed.filename?_ensureFile {store : Store} (hstore : store.Indexed) (filename : String)
    (file : Nat) :
    (store.ensureFile filename).2.filename? file =
      if file = (store.ensureFile filename).1 then some filename else store.filename? file := by
  cases hfound : store.byFilename.get? filename with
  | some found =>
      rw [ensureFile_of_some hfound]
      split
      next heq => rw [heq, hstore.filename_iff.mp hfound]
      next => rfl
  | none =>
      rw [ensureFile_of_none hfound]
      simp only [filename?]
      rcases Nat.lt_trichotomy file store.files.length with hlt | heq | hgt
      · rw [List.getElem?_append_left hlt, if_neg (Nat.ne_of_lt hlt)]
      · rw [heq]
        simp
      · rw [List.getElem?_eq_none (by simp; omega), if_neg (Nat.ne_of_gt hgt),
          List.getElem?_eq_none (Nat.le_of_lt hgt)]

/-- Names lead to files after a file was opened as they did before. -/
theorem Indexed.filename_iff_ensureFile {store : Store} (hstore : store.Indexed)
    (filename wanted : String) (file : Nat) :
    (store.ensureFile filename).2.byFilename.get? wanted = some file ↔
      (store.ensureFile filename).2.filename? file = some wanted := by
  have hopened : store.filename? (store.ensureFile filename).1 = some filename ∨
      store.filename? (store.ensureFile filename).1 = none := by
    cases hfound : store.byFilename.get? filename with
    | some found =>
        rw [ensureFile_of_some hfound]
        exact Or.inl (hstore.filename_iff.mp hfound)
    | none =>
        rw [ensureFile_of_none hfound]
        exact Or.inr (filename?_length store)
  have hsame : ∀ found, store.filename? found = some filename →
      found = (store.ensureFile filename).1 := by
    intro found hfound
    rw [ensureFile_of_some (hstore.filename_iff.mpr hfound)]
  rw [get?_byFilename_ensureFile, hstore.filename?_ensureFile]
  by_cases hwanted : wanted = filename <;> by_cases hfile : file = (store.ensureFile filename).1
  · simp [hwanted, hfile]
  · rw [if_pos hwanted, if_neg hfile, hwanted]
    constructor
    · intro hindex
      exact absurd (Option.some.inj hindex).symm hfile
    · intro hname
      exact absurd (hsame file hname) hfile
  · rw [if_neg hwanted, if_pos hfile, hstore.filename_iff, hfile]
    constructor
    · intro hname
      rcases hopened with hopen | hopen
      · rw [← hopen, hname]
      · rw [hopen] at hname
        cases hname
    · intro hname
      exact absurd (Option.some.inj hname).symm hwanted
  · rw [if_neg hwanted, if_neg hfile]
    exact hstore.filename_iff

/-- Opening a file renames none. -/
theorem filename?_ensureFile_of_eq_some {store : Store} {file : Nat} {name : String}
    (hname : store.filename? file = some name) (filename : String) :
    (store.ensureFile filename).2.filename? file = some name := by
  cases hfound : store.byFilename.get? filename with
  | some found => rw [ensureFile_of_some hfound, hname]
  | none =>
      rw [ensureFile_of_none hfound]
      obtain ⟨insight, hinsight, rfl⟩ := Option.map_eq_some_iff.mp hname
      obtain ⟨hlt, _⟩ := List.getElem?_eq_some_iff.mp hinsight
      simp only [filename?]
      rw [List.getElem?_append_left hlt, hinsight, Option.map_some]

/-- A file that was not there before is the one that is opened, and holds no function yet. -/
theorem isSome_filename?_ensureFile {store : Store} {filename : String} {file : Nat}
    (hfile : ((store.ensureFile filename).2.filename? file).isSome) :
    (store.filename? file).isSome ∨
      file = (store.ensureFile filename).1 ∧ (store.ensureFile filename).2.fileSize file = 0 := by
  cases hfound : store.byFilename.get? filename with
  | some found =>
      rw [ensureFile_of_some hfound] at hfile
      exact Or.inl hfile
  | none =>
      rw [ensureFile_of_none hfound] at hfile ⊢
      simp only [filename?, fileSize, Option.isSome_map] at hfile ⊢
      rcases Nat.lt_trichotomy file store.files.length with hlt | rfl | hgt
      · rw [List.getElem?_append_left hlt] at hfile
        exact Or.inl hfile
      · exact Or.inr ⟨rfl, by simp⟩
      · rw [List.getElem?_eq_none (by simp; omega)] at hfile
        cases hfile

/-! ## Registering a function -/

theorem get?_bySite_register (store : Store) (location : Location) (other : String) :
    (store.register location).2.bySite.get? other =
      if other = location.key then some (store.register location).1
      else store.bySite.get? other := by
  rw [register_eq]
  simp only [bySite_ensureFile]
  exact Index.get?_insert _ _ _ _

theorem filename?_register (store : Store) (location : Location) (file : Nat) :
    (store.register location).2.filename? file =
      (store.ensureFile location.filename).2.filename? file :=
  filename?_append _ _ (.ofLocation location) file

/-- Nothing was where the new function goes. -/
theorem function?_registered (store : Store) (location : Location) :
    store.function? (store.register location).1 = none := by
  rw [← function?_ensureFile store location.filename]
  exact function?_fileSize _ _

theorem functionCount_register {store : Store} {location : Location}
    (hnew : store.bySite.get? location.key = none) :
    (store.register location).2.functionCount = store.functionCount + 1 := by
  rw [register_eq]
  simp only [functionCount, bySite_ensureFile]
  exact Index.size_insert_of_get?_eq_none hnew _

/-- The file of a name that was opened has this name. -/
theorem Indexed.filename?_opened {store : Store} (hstore : store.Indexed) (filename : String) :
    (store.ensureFile filename).2.filename? (store.ensureFile filename).1 = some filename := by
  rw [hstore.filename?_ensureFile, if_pos rfl]

theorem Indexed.function?_register {store : Store} (hstore : store.Indexed) (location : Location)
    (other : Handle) :
    (store.register location).2.function? other =
      if other = (store.register location).1 then some (.ofLocation location)
      else store.function? other := by
  have hopened := Option.isSome_of_eq_some (hstore.filename?_opened location.filename)
  rw [← function?_ensureFile store location.filename]
  exact function?_append _ _ (.ofLocation location) hopened other

theorem Indexed.functionTotal_register {store : Store} (hstore : store.Indexed)
    (location : Location) :
    (store.register location).2.functionTotal = store.functionTotal + 1 := by
  have hopened := Option.isSome_of_eq_some (hstore.filename?_opened location.filename)
  rw [← functionTotal_ensureFile store location.filename]
  exact functionTotal_append _ _ (.ofLocation location) hopened

/-- Registering a location that is new attaches a function without events to its site. -/
theorem Indexed.attached_register {store : Store} (hstore : store.Indexed) {location : Location}
    (hparse : Location.parse? location.name location.key = some location)
    (hnew : store.bySite.get? location.key = none) :
    Attached store (store.register location).2 location.key (store.register location).1
      (.ofLocation location) := by
  refine hstore.attached (store.get?_bySite_register location) (hstore.function?_register location)
    ?_ ?_ ?_ ?_ ?_ ((filename?_register ..).trans (hstore.filename?_opened _))
    (Location.declares_of_parse? hparse _) ?_ ?_
  · intro position hposition
    rw [hnew] at hposition
    cases hposition
  · intro other hother
    -- no site led to the new position, since nothing was there
    obtain ⟨_, function, _, hfunction, _⟩ := hstore.function_of_site hother
    rw [function?_registered] at hfunction
    cases hfunction
  · intro name file
    rw [filename?_register]
    exact hstore.filename_iff_ensureFile location.filename name file
  · intro file name hfile
    rw [filename?_register]
    exact filename?_ensureFile_of_eq_some hfile location.filename
  · intro file hfile
    rw [filename?_register] at hfile
    rcases isSome_filename?_ensureFile hfile with hold | ⟨rfl, hsize⟩
    · exact Or.inl hold
    · -- the file is new as well, so the function comes first in it
      rw [register_eq]
      exact Or.inr (congrArg (Handle.mk _) hsize)
  · rw [register_eq]
    simp only [bySite_ensureFile]
    exact Index.nodup_keys_insert hstore.sites_nodup location.key _
  · rw [functionCount_register hnew, hstore.functionTotal_register, hstore.count_eq]

end Store

end JitTrace
