import JitTrace.Insight.Summary
import JitTrace.Proofs.Store.Log

/-! # Live code and code addresses

A function keeps its live code until a record throws it away, whereas an address belongs to the
function that was compiled there last. No record tells that the code which was at the address before
is gone, so the function of live code and the function at its address come apart when an address is
used again. Read off the log, this is the only way in which they do.
-/

namespace JitTrace

namespace Record

/-- The memory area into which a record finishes compiling the function of a site. -/
def compiledMemory? (site : String) : Record → Option MemoryArea
  | .creation .compileEnd time memory source =>
    if site? (.creation .compileEnd time memory source) = some site then some memory else none
  | _ => none

theorem compiledMemory?_eq_some_iff {site : String} {memory : MemoryArea} {record : Record} :
    record.compiledMemory? site = some memory ↔
      ∃ time source, record = .creation .compileEnd time memory source ∧
        record.site? = some site := by
  constructor
  · intro hcompiled
    unfold compiledMemory? at hcompiled
    split at hcompiled
    next time found source =>
      split at hcompiled
      next hsite =>
        obtain rfl := Option.some.inj hcompiled
        exact ⟨time, source, rfl, hsite⟩
      next => cases hcompiled
    next => cases hcompiled
  · rintro ⟨time, source, rfl, hsite⟩
    exact if_pos hsite

/-- A compilation is found under the key of the memory area that its code was put into. -/
theorem compiledSite?_eq_some_iff {key site : String} {record : Record} :
    record.compiledSite? key = some site ↔
      ∃ memory, record.compiledMemory? site = some memory ∧ memory.addressKey = key := by
  constructor
  · intro hcompiled
    have hsite := site?_of_compiledSite? hcompiled
    unfold compiledSite? at hcompiled
    split at hcompiled
    next time memory source =>
      split at hcompiled
      next hkey => exact ⟨memory, if_pos hsite, hkey⟩
      next => cases hcompiled
    next => cases hcompiled
  · rintro ⟨memory, hcompiled, rfl⟩
    obtain ⟨time, source, rfl, hsite⟩ := compiledMemory?_eq_some_iff.mp hcompiled
    rw [compiledSite?, if_pos rfl, hsite]

end Record

namespace Log

/-- The memory area into which the latest compilation of a site put its code. -/
def lastMemory? (log : List Record) (site : String) : Option MemoryArea :=
  log.reverse.findSome? fun record => record.compiledMemory? site

/-- In front of some records, a log finishes a compilation of a site into a memory area, and none
of these records finishes another one of this site. -/
def LastCompiled (site : String) (memory : MemoryArea) (later log : List Record) : Prop :=
  ∃ before finish, log = before ++ finish :: later ∧
    finish.compiledMemory? site = some memory ∧
    ∀ record ∈ later, record.compiledMemory? site = none

/-- The records of a site tell of its compilations what their events do. -/
theorem compiledMemory?_of_route? {log : List Record} {record : Record} {site : String}
    (hroute : route? log record = some site) :
    record.compiledMemory? site = record.event.compiledMemory? := by
  cases record with
  | deoptimization time address position reason => rfl
  | creation kind time memory source =>
      cases kind with
      | script => rfl
      | compileStart => rfl
      | compileEnd => exact if_pos hroute

theorem compiledMemory?_of_route?_ne {log : List Record} {record : Record} {site : String}
    (hroute : route? log record ≠ some site) : record.compiledMemory? site = none := by
  rw [Option.eq_none_iff_forall_ne_some]
  intro memory hcompiled
  obtain ⟨time, source, rfl, hsite⟩ := Record.compiledMemory?_eq_some_iff.mp hcompiled
  exact hroute hsite

theorem lastMemory?_concat (log : List Record) (record : Record) (site : String) :
    lastMemory? (log ++ [record]) site =
      (record.compiledMemory? site).or (lastMemory? log site) :=
  findSome?_reverse_concat _ log record

/-- The last code that the events of a site tell of is that of its latest compilation. -/
theorem findSome?_routed (log : List Record) (site : String) :
    ((routed site log).map Record.event).reverse.findSome? Event.compiledMemory? =
      lastMemory? log site := by
  induction log using List.reverseRecOn with
  | nil => rfl
  | append_singleton log record ih =>
      rw [routed_concat, lastMemory?_concat]
      by_cases hroute : route? log record = some site
      · rw [if_pos hroute, List.map_append, List.map_singleton, findSome?_reverse_concat, ih,
          compiledMemory?_of_route? hroute]
      · rw [if_neg hroute, List.append_nil, ih, compiledMemory?_of_route?_ne hroute, Option.none_or]

theorem exists_lastCompiled {log : List Record} {site : String} {memory : MemoryArea}
    (hlast : lastMemory? log site = some memory) :
    ∃ later, LastCompiled site memory later log := by
  obtain ⟨behind, finish, front, hsplit, hfinish, hnone⟩ := List.findSome?_eq_some_iff.mp hlast
  refine ⟨behind.reverse, front.reverse, finish, ?_, hfinish, fun record hrecord => ?_⟩
  · rw [← List.reverse_reverse log, hsplit]
    simp
  · exact hnone record (List.mem_reverse.mp hrecord)

theorem codeSite?_append (log more : List Record) (key : String) :
    codeSite? (log ++ more) key = (codeSite? more key).or (codeSite? log key) := by
  rw [codeSite?, List.reverse_append, List.findSome?_append]
  rfl

namespace LastCompiled

variable {site : String} {memory : MemoryArea} {later log : List Record}

/-- The address of the latest code of a site belongs to the site, unless it is used again. -/
theorem codeSite?_eq (hlast : LastCompiled site memory later log) :
    codeSite? log memory.addressKey = some ((codeSite? later memory.addressKey).getD site) := by
  obtain ⟨before, finish, rfl, hfinish, -⟩ := hlast
  have hsite : finish.compiledSite? memory.addressKey = some site :=
    Record.compiledSite?_eq_some_iff.mpr ⟨memory, hfinish, rfl⟩
  rw [List.append_cons, codeSite?_append, codeSite?_concat, hsite, Option.some_or]
  cases codeSite? later memory.addressKey <;> rfl

/-- Whoever uses an address again is another one. -/
theorem ne_of_codeSite? (hlast : LastCompiled site memory later log) {key other : String}
    (hcode : codeSite? later key = some other) : other ≠ site := by
  obtain ⟨-, -, -, -, hnone⟩ := hlast
  obtain ⟨record, hrecord, hcompiled⟩ := List.exists_of_findSome?_eq_some hcode
  rintro rfl
  obtain ⟨found, hfound, -⟩ := Record.compiledSite?_eq_some_iff.mp hcompiled
  rw [hnone record (List.mem_reverse.mp hrecord)] at hfound
  cases hfound

end LastCompiled

end Log

namespace Store

namespace Follows

variable {store : Store} {log later : List Record} {site : String} {memory : MemoryArea}

theorem lastCompiledCode?_eq (hfollows : store.Follows log) {function : FunctionInsight}
    (hfunction : store.functionAtSite? site = some function) :
    function.lastCompiledCode? = Log.lastMemory? log site := by
  rw [hfollows.function_eq] at hfunction
  rw [FunctionInsight.lastCompiledCode?, events_of_replay hfunction, Log.findSome?_routed]

/-- The address of the latest code of a site leads to the last one that used it since. -/
theorem get?_byAddress_eq (hfollows : store.Follows log)
    (hlast : Log.LastCompiled site memory later log) :
    store.byAddress.get? memory.addressKey =
      store.bySite.get? ((Log.codeSite? later memory.addressKey).getD site) := by
  rw [hfollows.address_eq, hlast.codeSite?_eq, Option.bind_some]

theorem functionAtAddress?_start_eq (hfollows : store.Follows log)
    (hlast : Log.LastCompiled site memory later log) :
    store.functionAtAddress? memory.start =
      store.functionAtSite? ((Log.codeSite? later memory.addressKey).getD site) :=
  congrArg (Option.bind · store.function?) (hfollows.get?_byAddress_eq hlast)

theorem isSome_functionAtSite?_of_codeSite? (hfollows : store.Follows log)
    (hlast : Log.LastCompiled site memory later log) {other : String}
    (hlater : Log.codeSite? later memory.addressKey = some other) :
    (store.functionAtSite? other).isSome := by
  have hcode := hlast.codeSite?_eq
  rw [hlater, Option.getD_some] at hcode
  rw [hfollows.isSome_functionAtSite?_iff]
  exact hfollows.isSome_of_codeSite? hcode

end Follows

/-- The live code of a function is that of the last compilation of its site. At the address of this
code the store finds the function itself, if no later record puts code there, and else the other
function for which a record does so last. -/
theorem live_code_at_address (operations : List Operation) {handle : Handle}
    {function : FunctionInsight} (hfunction : (after operations).function? handle = some function)
    (hcode : function.hasCompiledCode) :
    ∃ site memory later,
      (after operations).bySite.get? site = some handle ∧
      function.lastCompiledCode? = some memory ∧
      Log.LastCompiled site memory later (recorded operations) ∧
      ((after operations).byAddress.get? memory.addressKey = some handle ↔
        Log.codeSite? later memory.addressKey = none) ∧
      (Log.codeSite? later memory.addressKey = none →
        (after operations).functionAtAddress? memory.start = some function) ∧
      ∀ other, Log.codeSite? later memory.addressKey = some other → other ≠ site ∧
        ∃ owner, (after operations).functionAtSite? other = some owner ∧
          (after operations).functionAtAddress? memory.start = some owner := by
  have hfollows : (after operations).Follows (recorded operations) :=
    after_eq_ofLog operations ▸ follows_ofLog (recorded operations)
  generalize after operations = store at *
  have hsome : (store.function? handle).isSome := by
    rw [hfunction, Option.isSome_some]
  obtain ⟨site, hsite⟩ := hfollows.site_of_function hsome
  have hknown : store.functionAtSite? site = some function := by
    rw [functionAtSite?_eq, hsite, Option.bind_some, hfunction]
  obtain ⟨memory, hmemory⟩ : ∃ memory, function.lastCompiledCode? = some memory := by
    rw [FunctionInsight.hasCompiledCode, Bool.and_eq_true] at hcode
    exact Option.isSome_iff_exists.mp hcode.2
  obtain ⟨later, hlast⟩ :=
    Log.exists_lastCompiled ((hfollows.lastCompiledCode?_eq hknown).symm.trans hmemory)
  have hfound := hfollows.functionAtAddress?_start_eq hlast
  refine ⟨site, memory, later, hsite, hmemory, hlast, ?_, ?_, ?_⟩
  · rw [hfollows.get?_byAddress_eq hlast]
    cases hlater : Log.codeSite? later memory.addressKey with
    | none => exact iff_of_true hsite rfl
    | some other =>
        rw [Option.getD_some]
        refine iff_of_false (fun hother => ?_) (Option.some_ne_none other)
        exact hlast.ne_of_codeSite? hlater (hfollows.site_unique hsite hother)
  · intro hlater
    rw [hfound, hlater, Option.getD_none, hknown]
  · intro other hlater
    obtain ⟨owner, howner⟩ := Option.isSome_iff_exists.mp
      (hfollows.isSome_functionAtSite?_of_codeSite? hlast hlater)
    rw [hlater, Option.getD_some] at hfound
    exact ⟨hlast.ne_of_codeSite? hlater, owner, howner, hfound.trans howner⟩

/-- Two functions had an address in turn, and the first one has it again. -/
theorem live_code_of_regained_address :
    let operations : List Operation := [
      .apply (.creation .compileEnd 2 ⟨"0xA", 60⟩ "f file:///a.js:1:1"),
      .apply (.creation .compileEnd 3 ⟨"0xa", 60⟩ "g file:///a.js:2:1"),
      .apply (.creation .compileEnd 4 ⟨"0xA", 80⟩ "f file:///a.js:1:1"),
      .apply (.creation .compileStart 5 ⟨"0x1", 8⟩ "g file:///a.js:2:1")]
    let function : FunctionInsight := {
      name := "f"
      declaration := ⟨0, 1, 1⟩
      events := [⟨2, .compileEnd ⟨"0xA", 60⟩⟩, ⟨4, .compileEnd ⟨"0xA", 80⟩⟩]
      isCompiled := true
      wasDeoptimized := false
      compileTime := none }
    (after operations).function? ⟨0, 0⟩ = some function ∧ function.hasCompiledCode ∧
      ∃ site memory later,
        (after operations).bySite.get? site = some ⟨0, 0⟩ ∧
        function.lastCompiledCode? = some memory ∧
        Log.LastCompiled site memory later (recorded operations) ∧
        ((after operations).byAddress.get? memory.addressKey = some ⟨0, 0⟩ ↔
          Log.codeSite? later memory.addressKey = none) := by
  intro operations function
  have hfunction : (after operations).function? ⟨0, 0⟩ = some function := by
    decide +kernel
  have hcode : function.hasCompiledCode := rfl
  obtain ⟨site, memory, later, hsite, hmemory, hlast, haddress, -⟩ :=
    live_code_at_address operations hfunction hcode
  exact ⟨hfunction, hcode, site, memory, later, hsite, hmemory, hlast, haddress⟩

/-- The address of live code may lead elsewhere: here two functions have live code at one. -/
theorem live_code_at_used_address :
    ¬ ∀ (operations : List Operation) (handle : Handle) (function : FunctionInsight)
        (memory : MemoryArea),
      (after operations).function? handle = some function → function.hasCompiledCode →
        function.lastCompiledCode? = some memory →
          (after operations).functionAtAddress? memory.start = some function := by
  intro hall
  have hfound := hall
    [.apply (.creation .compileEnd 200 ⟨"0xA", 60⟩ "f file:///a.js:1:1"),
      .apply (.creation .compileEnd 300 ⟨"0xA", 60⟩ "g file:///a.js:2:1")]
    ⟨0, 0⟩
    { name := "f"
      declaration := ⟨0, 1, 1⟩
      events := [⟨200, .compileEnd ⟨"0xA", 60⟩⟩]
      isCompiled := true
      wasDeoptimized := false
      compileTime := none }
    ⟨"0xA", 60⟩ (by decide +kernel) rfl rfl
  revert hfound
  decide +kernel

end Store

end JitTrace
