import JitTrace.Proofs.Store.Attach

/-! # Applying a record

Everything that applying one record can do. A record is ignored or unresolved and changes nothing,
or it is attached to one function. What the log builds stays consistent: code addresses lead to
functions that were compiled there, and every function has a history.
-/

namespace JitTrace

namespace FunctionInsight

/-- The insight after a record of a new code object, with the late name that it may bring. -/
def meet (known : Option FunctionInsight) (location : Location) : FunctionInsight :=
  (known.map fun function => function.learnName location).getD (.ofLocation location)

theorem learnName_frame (function : FunctionInsight) (location : Location) :
    (function.learnName location).declaration.line = function.declaration.line ∧
      (function.learnName location).declaration.column = function.declaration.column ∧
      (function.learnName location).events = function.events := by
  unfold learnName
  split <;> exact ⟨rfl, rfl, rfl⟩

theorem noteCreation_declaration (function : FunctionInsight) (creation : Creation)
    (time : UInt64) (memory : MemoryArea) :
    (function.noteCreation creation time memory).declaration = function.declaration := by
  cases creation <;> rfl

/-- The event that a record of a new code object leaves in a history. -/
def creationEvent (creation : Creation) (time : UInt64) (memory : MemoryArea) : Event :=
  match creation with
  | .script => ⟨time, .parse memory⟩
  | .compileStart => ⟨time, .compileStart⟩
  | .compileEnd => ⟨time, .compileEnd memory⟩

theorem events_noteCreation (function : FunctionInsight) (creation : Creation) (time : UInt64)
    (memory : MemoryArea) :
    (function.noteCreation creation time memory).events =
      function.events ++ [creationEvent creation time memory] := by
  cases creation <;> rfl

theorem events_deoptimize (function : FunctionInsight) (time : UInt64) (reason position : String) :
    (function.deoptimize time reason position).events =
      function.events ++ [⟨time, .deoptimize reason position⟩] := rfl

end FunctionInsight

namespace Store

/-- Whether a function was compiled to code that is found under a key. -/
def CompiledAt (key : String) (function : FunctionInsight) : Prop :=
  ∃ event ∈ function.events, ∃ memory, event.kind = .compileEnd memory ∧ memory.addressKey = key

/-- All indexes fit the files of a store, and no function is without a history. -/
structure Consistent (store : Store) : Prop extends store.Indexed where
  compiled_of_address : ∀ {key handle}, store.byAddress.get? key = some handle →
    ∃ function, store.function? handle = some function ∧ CompiledAt key function
  events_nonempty : ∀ {handle function}, store.function? handle = some function →
    function.events ≠ []

theorem consistent_empty : (∅ : Store).Consistent where
  toIndexed := indexed_empty
  compiled_of_address := fun haddress => by cases haddress
  events_nonempty := fun hfunction => by cases hfunction

/-- What applying a record to a store can come to. -/
inductive Applies (store : Store) : Record → Outcome × Store → Prop where
  | ignored {creation time memory source} (hsource : creation.locate? source = none) :
      Applies store (.creation creation time memory source) (.ignored, store)
  | created {creation time memory source location next handle}
      (hsource : creation.locate? source = some location)
      (hattached : Attached store next location.key handle
        ((FunctionInsight.meet (store.functionAtSite? location.key) location).noteCreation
          creation time memory))
      (haddresses : ∀ key, next.byAddress.get? key =
        if creation = .compileEnd ∧ key = memory.addressKey then some handle
        else store.byAddress.get? key) :
      Applies store (.creation creation time memory source) (.recorded, next)
  | unresolved {time address position reason}
      (haddress : store.byAddress.get? (normalizeAddress address) = none) :
      Applies store (.deoptimization time address position reason) (.unresolvedDeopt, store)
  | deoptimized {time address position reason next site handle function}
      (haddress : store.byAddress.get? (normalizeAddress address) = some handle)
      (hsite : store.bySite.get? site = some handle)
      (hfunction : store.function? handle = some function)
      (hattached : Attached store next site handle (function.deoptimize time reason position))
      (hsame : next.byAddress = store.byAddress) :
      Applies store (.deoptimization time address position reason) (.recorded, next)

@[simp]
theorem byAddress_locate (store : Store) (location : Location) :
    (store.locate location).2.byAddress = store.byAddress := by
  unfold locate
  split
  next => rfl
  next =>
    rw [register_eq]
    exact byAddress_ensureFile store location.filename

/-- Only the end of a compilation is found by an address, and only by its own. -/
theorem get?_byAddress_recordCreation (store : Store) (creation : Creation) (time : UInt64)
    (memory : MemoryArea) (location : Location) (key : String) :
    (store.recordCreation creation time memory location).byAddress.get? key =
      if creation = .compileEnd ∧ key = memory.addressKey then some (store.locate location).1
      else store.byAddress.get? key := by
  cases creation with
  | script => simp [recordCreation]
  | compileStart => simp [recordCreation]
  | compileEnd => simp [recordCreation, Index.get?_insert]

/-- Locating a function attaches it, with the late name that the location may bring. -/
theorem Indexed.attached_locate {store : Store} (hstore : store.Indexed) {location : Location}
    (hparse : Location.parse? location.name location.key = some location) :
    Attached store (store.locate location).2 location.key (store.locate location).1
      (FunctionInsight.meet (store.functionAtSite? location.key) location) := by
  rw [functionAtSite?_eq]
  cases hsite : store.bySite.get? location.key with
  | none =>
      have hlocate : store.locate location = store.register location := by
        rw [locate, hsite]
      rw [hlocate]
      exact hstore.attached_register hparse hsite
  | some handle =>
      obtain ⟨_, function, _, hfunction, _⟩ := hstore.function_of_site hsite
      have hlocate : store.locate location =
          (handle, store.modify handle fun function => function.learnName location) := by
        rw [locate, hsite]
      rw [hlocate, Option.bind_some, hfunction]
      have hframe := function.learnName_frame location
      exact hstore.attached_modify hsite hfunction (fun function => function.learnName location)
        hframe.1 hframe.2.1

/-- Changing the function that was attached last changes what is attached. -/
theorem Attached.modify {store next : Store} {site : String} {handle : Handle}
    {function : FunctionInsight} (hattached : Attached store next site handle function)
    (change : FunctionInsight → FunctionInsight)
    (hdeclaration : (change function).declaration = function.declaration) :
    Attached store (next.modify handle change) site handle (change function) := by
  have hsite : next.bySite.get? site = some handle := by
    rw [hattached.handle_at, if_pos rfl]
  have hfunction : next.function? handle = some function := by
    rw [hattached.function_at, if_pos rfl]
  have hmodified := hattached.indexed.attached_modify hsite hfunction change
    (by rw [hdeclaration]) (by rw [hdeclaration])
  -- both steps touch the same site and position, so the second covers the first
  refine ⟨hmodified.indexed, ?_, ?_⟩
  · intro other
    rw [hmodified.handle_at, hattached.handle_at]
    split <;> rfl
  · intro other
    rw [hmodified.function_at, hattached.function_at]
    split <;> rfl

/-- A record of a new code object is attached where its function is located. -/
theorem Indexed.attached_recordCreation {store : Store} (hstore : store.Indexed)
    {creation : Creation} (time : UInt64) (memory : MemoryArea) {source : String}
    {location : Location} (hsource : creation.locate? source = some location) :
    Attached store (store.recordCreation creation time memory location) location.key
      (store.locate location).1
      ((FunctionInsight.meet (store.functionAtSite? location.key) location).noteCreation
        creation time memory) := by
  have hlocated := hstore.attached_locate (Creation.exists_parse?_of_locate? hsource)
  have hnoted := hlocated.modify (fun function => function.noteCreation creation time memory)
    (FunctionInsight.noteCreation_declaration _ creation time memory)
  cases creation with
  | script => exact hnoted
  | compileStart => exact hnoted
  | compileEnd => exact hnoted.withAddresses _

theorem Indexed.applies_creation {store : Store} (hstore : store.Indexed) {creation : Creation}
    (time : UInt64) (memory : MemoryArea) {source : String} {location : Location}
    (hsource : creation.locate? source = some location) :
    Applies store (.creation creation time memory source)
      (.recorded, store.recordCreation creation time memory location) :=
  .created hsource (hstore.attached_recordCreation time memory hsource)
    (get?_byAddress_recordCreation store creation time memory location)

/-- Applying a record comes to one of four things. -/
theorem Consistent.applies {store : Store} (hstore : store.Consistent) (record : Record) :
    Applies store record (store.apply record) := by
  cases record with
  | creation creation time memory source =>
      cases hsource : creation.locate? source with
      | none =>
          have happly : store.apply (.creation creation time memory source) =
              (.ignored, store) := by
            simp only [apply, hsource]
          rw [happly]
          exact .ignored hsource
      | some location =>
          have happly : store.apply (.creation creation time memory source) =
              (.recorded, store.recordCreation creation time memory location) := by
            simp only [apply, hsource]
          rw [happly]
          exact hstore.toIndexed.applies_creation time memory hsource
  | deoptimization time address position reason =>
      cases haddress : store.byAddress.get? (normalizeAddress address) with
      | none =>
          have happly : store.apply (.deoptimization time address position reason) =
              (.unresolvedDeopt, store) := by
            simp only [apply, haddress]
          rw [happly]
          exact .unresolved haddress
      | some handle =>
          -- an address that is known leads to a function, and the function has a site
          obtain ⟨function, hfunction, _⟩ := hstore.compiled_of_address haddress
          have hsome : (store.function? handle).isSome := by
            rw [hfunction, Option.isSome_some]
          obtain ⟨site, hsite⟩ := hstore.site_of_function hsome
          have happly : store.apply (.deoptimization time address position reason) =
              (.recorded,
                store.modify handle fun function => function.deoptimize time reason position) := by
            simp only [apply, haddress]
          rw [happly]
          exact .deoptimized haddress hsite hfunction
            (hstore.attached_modify hsite hfunction
              (fun function => function.deoptimize time reason position) rfl rfl) rfl

/-! ## Consistency is kept -/

/-- What was at the position before was the function of the site. -/
theorem Attached.functionAtSite?_of_function? {store next : Store} (hstore : store.Indexed)
    {site : String} {handle : Handle} {function known : FunctionInsight}
    (hattached : Attached store next site handle function)
    (hknown : store.function? handle = some known) : store.functionAtSite? site = some known := by
  have hsome : (store.function? handle).isSome := by
    rw [hknown, Option.isSome_some]
  obtain ⟨found, hfound⟩ := hstore.site_of_function hsome
  have heq : found = site := by
    by_contra hne
    have hsite : next.bySite.get? site = some handle := by
      rw [hattached.handle_at, if_pos rfl]
    have hother : next.bySite.get? found = some handle := by
      rw [hattached.handle_at, if_neg hne, hfound]
    exact hne (hattached.indexed.site_unique hsite hother)
  rw [functionAtSite?_eq, ← heq, hfound, Option.bind_some, hknown]

/-- Attaching keeps a store consistent when the function only gains events and the position is
found only under addresses at which it was compiled. -/
theorem Attached.consistent {store next : Store} (hstore : store.Consistent) {site : String}
    {handle : Handle} {function : FunctionInsight}
    (hattached : Attached store next site handle function)
    (hgrown : ∀ {known}, store.function? handle = some known → known.events ⊆ function.events)
    (hevents : function.events ≠ [])
    (haddresses : ∀ {key position}, next.byAddress.get? key = some position →
      store.byAddress.get? key = some position ∨ position = handle ∧ CompiledAt key function) :
    next.Consistent := by
  refine ⟨hattached.indexed, ?_, ?_⟩
  · intro key position hposition
    rw [hattached.function_at]
    rcases haddresses hposition with hknown | ⟨heq, hcompiled⟩
    · obtain ⟨known, hfound, event, hevent, hmemory⟩ := hstore.compiled_of_address hknown
      by_cases heq : position = handle
      · refine ⟨function, if_pos heq, event, ?_, hmemory⟩
        exact hgrown (heq ▸ hfound) hevent
      · exact ⟨known, by rw [if_neg heq, hfound], event, hevent, hmemory⟩
    · exact ⟨function, if_pos heq, hcompiled⟩
  · intro position held hheld
    rw [hattached.function_at] at hheld
    split at hheld
    next =>
      cases hheld
      exact hevents
    next => exact hstore.events_nonempty hheld

theorem Consistent.apply {store : Store} (hstore : store.Consistent) (record : Record) :
    (store.apply record).2.Consistent := by
  generalize hresult : store.apply record = result
  have happlies : Applies store record result := hresult ▸ hstore.applies record
  cases happlies with
  | ignored => exact hstore
  | unresolved => exact hstore
  | deoptimized haddress hsite hfunction hattached hsame =>
      refine hattached.consistent hstore ?_ ?_ ?_
      · intro known hknown event hevent
        rw [hfunction, Option.some.injEq] at hknown
        subst hknown
        exact List.mem_append_left _ hevent
      · simp [FunctionInsight.events_deoptimize]
      · intro key position hposition
        rw [hsame] at hposition
        exact Or.inl hposition
  | @created creation time memory source location next handle hsource hattached haddresses =>
      have hevents := FunctionInsight.events_noteCreation
        (.meet (store.functionAtSite? location.key) location) creation time memory
      refine hattached.consistent hstore ?_ ?_ ?_
      · intro known hknown event hevent
        rw [hevents, hattached.functionAtSite?_of_function? hstore.toIndexed hknown]
        refine List.mem_append_left _ ?_
        rw [FunctionInsight.meet, Option.map_some, Option.getD_some,
          (known.learnName_frame location).2.2]
        exact hevent
      · simp [hevents]
      · intro key position hposition
        rw [haddresses] at hposition
        split at hposition
        next hhere =>
          -- a new address is that of the compilation which the record has just added
          obtain ⟨rfl, rfl⟩ := hhere
          refine Or.inr ⟨(Option.some.inj hposition).symm, ⟨time, .compileEnd memory⟩, ?_,
            memory, rfl, rfl⟩
          rw [hevents]
          exact List.mem_append_right _ List.mem_cons_self
        next => exact Or.inl hposition

end Store

end JitTrace
