import JitTrace.Proofs.Store.Run

/-! # Logs as histories

What a store should know can be read off the log alone. A record of a new code object belongs to
the site that it names, and a record of thrown away code to the site whose code was compiled at
its address last. A function is what the records of its site make of it, one after another.
-/

namespace JitTrace

namespace Record

/-- The site that a record names itself. -/
def site? : Record → Option String
  | .creation kind _ _ source => (kind.locate? source).map Location.key
  | .deoptimization _ _ _ _ => none

/-- The site at which a record finishes compiling code that is found under a key. -/
def compiledSite? (key : String) : Record → Option String
  | .creation .compileEnd time memory source =>
    if memory.addressKey = key then site? (.creation .compileEnd time memory source) else none
  | _ => none

/-- The event that a record stands for. -/
def event : Record → Event
  | .creation kind time memory _ => FunctionInsight.creationEvent kind time memory
  | .deoptimization time _ position reason => ⟨time, .deoptimize reason position⟩

/-- What a record makes of the function that it belongs to. -/
def attach (known : Option FunctionInsight) : Record → Option FunctionInsight
  | .creation kind time memory source =>
    match kind.locate? source with
    | none => known
    | some location =>
      some ((FunctionInsight.meet known location).noteCreation kind time memory)
  | .deoptimization time _ position reason =>
    known.map fun function => function.deoptimize time reason position

theorem compiledSite?_creation (kind : Creation) (time : UInt64) (memory : MemoryArea)
    (source key : String) :
    (creation kind time memory source).compiledSite? key =
      if kind = .compileEnd ∧ key = memory.addressKey then
        (kind.locate? source).map Location.key
      else none := by
  cases kind <;> simp [compiledSite?, site?, eq_comm]

theorem compiledSite?_deoptimization (time : UInt64) (address position reason key : String) :
    (deoptimization time address position reason).compiledSite? key = none := rfl

theorem site?_of_compiledSite? {key site : String} {record : Record}
    (hcompiled : record.compiledSite? key = some site) : record.site? = some site := by
  unfold compiledSite? at hcompiled
  split at hcompiled
  next =>
    split at hcompiled
    next => exact hcompiled
    next => cases hcompiled
  next => cases hcompiled

end Record

namespace Log

/-- The site of the latest compilation that put code at an address. -/
def codeSite? (log : List Record) (key : String) : Option String :=
  log.reverse.findSome? fun record => record.compiledSite? key

/-- The site that a record belongs to, behind the records of a log. -/
def route? (log : List Record) : Record → Option String
  | .creation creation time memory source => (Record.creation creation time memory source).site?
  | .deoptimization _ address _ _ => codeSite? log (normalizeAddress address)

/-- The records that belong to a site, among those that come behind a log. -/
def routedAfter (site : String) (log : List Record) : List Record → List Record
  | [] => []
  | record :: rest =>
    if route? log record = some site then record :: routedAfter site (log ++ [record]) rest
    else routedAfter site (log ++ [record]) rest

/-- The records of a log that belong to a site, in the order of the log. -/
def routed (site : String) (log : List Record) : List Record :=
  routedAfter site [] log

/-- The function that records make, one after another. -/
def replay (records : List Record) : Option FunctionInsight :=
  records.foldl Record.attach none

/-- Looking backwards, the last item is asked first. -/
theorem findSome?_reverse_concat {α β : Type} (value? : α → Option β) (items : List α) (item : α) :
    (items ++ [item]).reverse.findSome? value? =
      (value? item).or (items.reverse.findSome? value?) := by
  rw [List.reverse_append, List.reverse_singleton, List.singleton_append, List.findSome?_cons]
  cases value? item <;> rfl

theorem codeSite?_concat (log : List Record) (record : Record) (key : String) :
    codeSite? (log ++ [record]) key = (record.compiledSite? key).or (codeSite? log key) :=
  findSome?_reverse_concat _ log record

theorem exists_site?_concat (log : List Record) (record : Record) (site : String) :
    (∃ earlier ∈ log ++ [record], earlier.site? = some site) ↔
      (∃ earlier ∈ log, earlier.site? = some site) ∨ record.site? = some site := by
  simp [or_and_right, exists_or]

theorem routedAfter_concat (site : String) (log records : List Record) (record : Record) :
    routedAfter site log (records ++ [record]) =
      routedAfter site log records ++
        if route? (log ++ records) record = some site then [record] else [] := by
  induction records generalizing log with
  | nil =>
      simp only [List.nil_append, List.append_nil, routedAfter]
  | cons head rest ih =>
      rw [List.cons_append, routedAfter, routedAfter, ih, List.append_assoc,
        List.singleton_append]
      split
      · rw [List.cons_append]
      · rfl

theorem routed_concat (site : String) (log : List Record) (record : Record) :
    routed site (log ++ [record]) =
      routed site log ++ if route? log record = some site then [record] else [] :=
  routedAfter_concat site [] log record

theorem replay_concat (records : List Record) (record : Record) :
    replay (records ++ [record]) = record.attach (replay records) :=
  List.foldl_append

/-- The site of code is a site that a record of the log names. -/
theorem exists_site?_of_codeSite? {log : List Record} {key site : String}
    (hcode : codeSite? log key = some site) : ∃ record ∈ log, record.site? = some site := by
  obtain ⟨record, hrecord, hcompiled⟩ := List.exists_of_findSome?_eq_some hcode
  exact ⟨record, List.mem_reverse.mp hrecord, Record.site?_of_compiledSite? hcompiled⟩

/-- Records belong only to sites that a record of the log names. -/
theorem exists_site?_of_routed_ne_nil {site : String} {log : List Record}
    (hrouted : routed site log ≠ []) : ∃ record ∈ log, record.site? = some site := by
  induction log using List.reverseRecOn with
  | nil => exact absurd rfl hrouted
  | append_singleton log record ih =>
      rw [routed_concat] at hrouted
      by_cases hroute : route? log record = some site
      · cases record with
        | creation creation time memory source =>
            exact ⟨_, List.mem_append_right _ List.mem_cons_self, hroute⟩
        | deoptimization time address position reason =>
            obtain ⟨earlier, hearlier, hsite⟩ := exists_site?_of_codeSite? hroute
            exact ⟨earlier, List.mem_append_left _ hearlier, hsite⟩
      · rw [if_neg hroute, List.append_nil] at hrouted
        obtain ⟨earlier, hearlier, hsite⟩ := ih hrouted
        exact ⟨earlier, List.mem_append_left _ hearlier, hsite⟩

end Log

namespace Store

/-- A store knows what a log tells. -/
structure Follows (store : Store) (log : List Record) : Prop extends store.Consistent where
  site_iff : ∀ site, (store.bySite.get? site).isSome ↔ ∃ record ∈ log, record.site? = some site
  address_eq : ∀ key, store.byAddress.get? key = (Log.codeSite? log key).bind store.bySite.get?
  function_eq : ∀ site, store.functionAtSite? site = Log.replay (Log.routed site log)

/-- A site that has a position keeps it. -/
theorem Attached.handle_eq {store next : Store} (hstore : store.Indexed) {site : String}
    {handle known : Handle} {function : FunctionInsight}
    (hattached : Attached store next site handle function)
    (hknown : store.bySite.get? site = some known) : known = handle := by
  -- the position still holds a function, so it is that of a site, which can be no other one
  obtain ⟨_, held, _, hheld, _⟩ := hstore.function_of_site hknown
  have hfunction : (next.function? known).isSome := by
    rw [hattached.function_at, hheld]
    split <;> rfl
  obtain ⟨found, hfound⟩ := hattached.indexed.site_of_function hfunction
  rw [hattached.handle_at] at hfound
  split at hfound
  next => exact (Option.some.inj hfound).symm
  next hne => exact absurd (hstore.site_unique hknown hfound) hne

/-- Attaching adds its site to those that lead somewhere. -/
theorem Attached.isSome_site_iff {store next : Store} {site : String} {handle : Handle}
    {function : FunctionInsight} (hattached : Attached store next site handle function)
    (other : String) :
    (next.bySite.get? other).isSome ↔ (store.bySite.get? other).isSome ∨ other = site := by
  rw [hattached.handle_at]
  by_cases heq : other = site
  · simp [heq]
  · simp [heq]

/-- An address leads where its site leads, before and after the site is attached to. -/
theorem Attached.bind_get? {store next : Store} (hstore : store.Indexed) {site : String}
    {handle : Handle} {function : FunctionInsight}
    (hattached : Attached store next site handle function) {code : Option String}
    (hcode : ∀ other, code = some other → (store.bySite.get? other).isSome) :
    code.bind next.bySite.get? = code.bind store.bySite.get? := by
  cases code with
  | none => rfl
  | some other =>
      obtain ⟨known, hknown⟩ := Option.isSome_iff_exists.mp (hcode other rfl)
      rw [Option.bind_some, Option.bind_some, hattached.handle_at, hknown]
      split
      next heq =>
        subst heq
        rw [hattached.handle_eq hstore hknown]
      next => rfl

namespace Follows

variable {store next : Store} {log : List Record} {record : Record} {site : String}
  {handle : Handle} {function : FunctionInsight}

theorem isSome_of_codeSite? (hfollows : store.Follows log) {key : String}
    (hcode : Log.codeSite? log key = some site) : (store.bySite.get? site).isSome :=
  (hfollows.site_iff site).mpr (Log.exists_site?_of_codeSite? hcode)

theorem codeSite?_eq_none (hfollows : store.Follows log) {key : String}
    (haddress : store.byAddress.get? key = none) : Log.codeSite? log key = none := by
  rw [hfollows.address_eq] at haddress
  cases hcode : Log.codeSite? log key with
  | none => rfl
  | some site =>
      have hsite := hfollows.isSome_of_codeSite? hcode
      rw [hcode, Option.bind_some] at haddress
      rw [haddress] at hsite
      cases hsite

theorem codeSite?_eq_some (hfollows : store.Follows log) {key : String}
    (haddress : store.byAddress.get? key = some handle)
    (hsite : store.bySite.get? site = some handle) : Log.codeSite? log key = some site := by
  rw [hfollows.address_eq] at haddress
  obtain ⟨other, hcode, hother⟩ := Option.bind_eq_some_iff.mp haddress
  rw [hcode, hfollows.site_unique hsite hother]

/-- A record that belongs to no site leaves everything the log tells as it was. -/
theorem skip (hfollows : store.Follows log) (hsite : record.site? = none)
    (hroute : Log.route? log record = none) : store.Follows (log ++ [record]) := by
  refine ⟨hfollows.toConsistent, ?_, ?_, ?_⟩
  · intro other
    rw [hfollows.site_iff, Log.exists_site?_concat, hsite]
    exact (or_iff_left fun hnamed => by cases hnamed).symm
  · intro key
    have hcompiled : record.compiledSite? key = none := by
      cases hcompiled : record.compiledSite? key with
      | none => rfl
      | some other =>
          have hother := Record.site?_of_compiledSite? hcompiled
          rw [hsite] at hother
          cases hother
    rw [Log.codeSite?_concat, hcompiled, Option.none_or, hfollows.address_eq]
  · intro other
    rw [Log.routed_concat, hroute, if_neg (by simp), List.append_nil, hfollows.function_eq]

/-- The function of the site of a record is replayed with that record, all others without. -/
theorem attach (hfollows : store.Follows log)
    (hattached : Attached store next site handle function)
    (hroute : Log.route? log record = some site)
    (hfunction : record.attach (store.functionAtSite? site) = some function) (other : String) :
    next.functionAtSite? other = Log.replay (Log.routed other (log ++ [record])) := by
  rw [hattached.functionAtSite?, Log.routed_concat, hroute]
  by_cases heq : other = site
  · rw [if_pos heq, heq, if_pos rfl, Log.replay_concat, ← hfollows.function_eq, hfunction]
  · rw [if_neg heq, if_neg (by simpa using Ne.symm heq), List.append_nil, hfollows.function_eq]

/-- Attaching to a site leaves the addresses leading where the log says. -/
theorem bind_codeSite? (hfollows : store.Follows log)
    (hattached : Attached store next site handle function) (key : String) :
    (Log.codeSite? log key).bind next.bySite.get? = store.byAddress.get? key := by
  rw [hfollows.address_eq, hattached.bind_get? hfollows.toIndexed]
  intro other hcode
  exact hfollows.isSome_of_codeSite? hcode

/-- A record of a new code object attaches to the site that it names. -/
theorem created (hfollows : store.Follows log) (hnext : next.Consistent) {creation : Creation}
    {time : UInt64} {memory : MemoryArea} {source : String} {location : Location}
    (hsource : creation.locate? source = some location)
    (hattached : Attached store next location.key handle
      ((FunctionInsight.meet (store.functionAtSite? location.key) location).noteCreation
        creation time memory))
    (haddresses : ∀ key, next.byAddress.get? key =
      if creation = .compileEnd ∧ key = memory.addressKey then some handle
      else store.byAddress.get? key) :
    next.Follows (log ++ [.creation creation time memory source]) := by
  have hnamed : (Record.creation creation time memory source).site? = some location.key := by
    rw [Record.site?, hsource, Option.map_some]
  refine ⟨hnext, ?_, ?_, ?_⟩
  · intro other
    rw [hattached.isSome_site_iff, hfollows.site_iff, Log.exists_site?_concat, hnamed,
      Option.some_inj, eq_comm]
  · intro key
    rw [haddresses, Log.codeSite?_concat, Record.compiledSite?_creation]
    split
    next =>
      rw [hsource, Option.map_some, Option.some_or, Option.bind_some, hattached.handle_at,
        if_pos rfl]
    next => rw [Option.none_or, hfollows.bind_codeSite? hattached]
  · refine hfollows.attach hattached hnamed ?_
    simp only [Record.attach, hsource]

/-- A record of thrown away code attaches to the site whose code is found at its address. It names
no site itself, but a compilation before it named that one. -/
theorem deoptimized (hfollows : store.Follows log) (hnext : next.Consistent) {time : UInt64}
    {address position reason : String}
    (haddress : store.byAddress.get? (normalizeAddress address) = some handle)
    (hsite : store.bySite.get? site = some handle)
    (hfunction : store.function? handle = some function)
    (hattached : Attached store next site handle (function.deoptimize time reason position))
    (hsame : next.byAddress = store.byAddress) :
    next.Follows (log ++ [.deoptimization time address position reason]) := by
  refine ⟨hnext, ?_, ?_, ?_⟩
  · intro other
    have hknown : other = site → (store.bySite.get? other).isSome := by
      rintro rfl
      rw [hsite, Option.isSome_some]
    rw [hattached.isSome_site_iff, or_iff_left_of_imp hknown, hfollows.site_iff,
      Log.exists_site?_concat]
    exact (or_iff_left fun hnamed => by cases hnamed).symm
  · intro key
    rw [hsame, Log.codeSite?_concat, Record.compiledSite?_deoptimization, Option.none_or,
      hfollows.bind_codeSite? hattached]
  · refine hfollows.attach hattached (hfollows.codeSite?_eq_some haddress hsite) ?_
    rw [functionAtSite?_eq, hsite, Option.bind_some, hfunction]
    rfl

/-- Applying the next record keeps a store up with its log. -/
theorem apply (hfollows : store.Follows log) (record : Record) :
    (store.apply record).2.Follows (log ++ [record]) := by
  have hconsistent := hfollows.toConsistent.apply record
  generalize hresult : store.apply record = result at hconsistent ⊢
  have happlies : Applies store record result := hresult ▸ hfollows.toConsistent.applies record
  cases happlies with
  | ignored hsource =>
      exact hfollows.skip (by simp [Record.site?, hsource])
        (by simp [Log.route?, Record.site?, hsource])
  | unresolved haddress => exact hfollows.skip rfl (hfollows.codeSite?_eq_none haddress)
  | created hsource hattached haddresses =>
      exact hfollows.created hconsistent hsource hattached haddresses
  | deoptimized haddress hsite hfunction hattached hsame =>
      exact hfollows.deoptimized hconsistent haddress hsite hfunction hattached hsame

end Follows

/-- The store that a log builds knows what the log tells. -/
theorem follows_ofLog (log : List Record) : (ofLog log).Follows log := by
  induction log using List.reverseRecOn with
  | nil =>
      refine ⟨consistent_empty, ?_, fun _ => rfl, fun _ => rfl⟩
      intro site
      constructor
      · intro hsite
        cases hsite
      · rintro ⟨record, hrecord, _⟩
        cases hrecord
  | append_singleton log record ih =>
      rw [ofLog_concat]
      exact ih.apply record

/-- A function is known at a site exactly when the site leads to a position. -/
theorem Indexed.isSome_functionAtSite?_iff {store : Store} (hstore : store.Indexed)
    (site : String) : (store.functionAtSite? site).isSome ↔ (store.bySite.get? site).isSome := by
  rw [functionAtSite?_eq]
  cases hsite : store.bySite.get? site with
  | none => simp
  | some handle =>
      obtain ⟨_, function, _, hfunction, _⟩ := hstore.function_of_site hsite
      simp [hfunction]

/-- A function is known at the sites that records name. -/
theorem Follows.known_iff {store : Store} {log : List Record} (hfollows : store.Follows log)
    (site : String) :
    (store.functionAtSite? site).isSome ↔ ∃ record ∈ log, record.site? = some site := by
  rw [hfollows.isSome_functionAtSite?_iff, hfollows.site_iff]

/-- Nothing belongs to a site that has no function, since no record has named it. -/
theorem Follows.routed_eq_nil {store : Store} {log : List Record} (hfollows : store.Follows log)
    {site : String} (hnone : store.functionAtSite? site = none) : Log.routed site log = [] := by
  by_contra hne
  have hknown := (hfollows.known_iff site).mpr (Log.exists_site?_of_routed_ne_nil hne)
  rw [hnone] at hknown
  cases hknown

/-- The history of a function is the events of the records of its site. -/
theorem events_of_replay {log : List Record} {site : String} {function : FunctionInsight}
    (hreplay : Log.replay (Log.routed site log) = some function) :
    function.events = (Log.routed site log).map Record.event := by
  induction log using List.reverseRecOn generalizing function with
  | nil => cases hreplay
  | append_singleton log record ih =>
      rw [Log.routed_concat] at hreplay ⊢
      by_cases hroute : Log.route? log record = some site
      · rw [if_pos hroute, Log.replay_concat] at hreplay
        rw [if_pos hroute, List.map_append, List.map_singleton]
        have hfollows := follows_ofLog log
        have hknown := hfollows.function_eq site
        cases record with
        | deoptimization time address position reason =>
            obtain ⟨known, hprior, rfl⟩ := Option.map_eq_some_iff.mp hreplay
            rw [FunctionInsight.events_deoptimize, ih hprior]
            rfl
        | creation creation time memory source =>
            obtain ⟨location, hsource, _⟩ := Option.map_eq_some_iff.mp hroute
            simp only [Record.attach, hsource, Option.some.injEq] at hreplay
            subst hreplay
            rw [FunctionInsight.events_noteCreation]
            cases hprior : Log.replay (Log.routed site log) with
            | some known =>
                rw [FunctionInsight.meet, Option.map_some, Option.getD_some,
                  (known.learnName_frame location).2.2, ih hprior]
                rfl
            | none =>
                rw [hfollows.routed_eq_nil (hknown.trans hprior)]
                rfl
      · rw [if_neg hroute, List.append_nil] at hreplay ⊢
        exact ih hreplay

end Store

end JitTrace
