import JitTrace.Insight.Summary
import JitTrace.Proofs.Store.Run

/-! # The status of a function

The status beside a history is kept up event by event, whether the event is found by its site or
by the address of its code. Here the status is read off the history as a whole: which kinds of
events it contains, and which of them comes last. Nothing is asked of the times in a log.
-/

namespace JitTrace

namespace Event

/-- Whether a compilation finished. -/
def isCompileEnd (event : Event) : Bool :=
  event.compiledMemory?.isSome

/-- Whether optimized code was thrown away. -/
def isDeoptimize (event : Event) : Bool :=
  match event.kind with
  | .deoptimize _ _ => true
  | _ => false

end Event

/-! ## Histories -/

namespace History

/-- Something was the case at an event, in view of those in front of it, and all events behind it
keep to a condition since. -/
def Since (here : List Event → Event → Prop) (since : Event → Prop) (history : List Event) :
    Prop :=
  ∃ before event after, history = before ++ event :: after ∧ here before event ∧
    ∀ later ∈ after, since later

/-- A compilation finished, and no optimized code was thrown away since. -/
def Live : List Event → Prop :=
  Since (fun _ event => event.isCompileEnd) fun event => ¬ event.isDeoptimize

def LastStart (start : Event) : List Event → Prop :=
  Since (fun _ event => event = start ∧ event.isCompileStart) fun event => ¬ event.isCompileStart

/-- The last compile end, and the last compile start in front of it. -/
def LastCompile (start finish : Event) : List Event → Prop :=
  Since (fun before event => event = finish ∧ event.isCompileEnd ∧ LastStart start before)
    fun event => ¬ event.isCompileEnd

/-- Some compile start comes before some compile end. -/
def Timed (history : List Event) : Prop :=
  ∃ start finish, [start, finish].Sublist history ∧ start.isCompileStart ∧ finish.isCompileEnd

section Since

variable {here : List Event → Event → Prop} {since : Event → Prop}

theorem not_since_nil : ¬ Since here since [] := by
  rintro ⟨before, event, after, hsplit, _⟩
  simp at hsplit

/-- With one more event, it is the case here, or it was before and the event keeps to the
condition. -/
theorem since_concat (history : List Event) (event : Event) :
    Since here since (history ++ [event]) ↔
      here history event ∨ since event ∧ Since here since history := by
  constructor
  · rintro ⟨before, found, after, hsplit, hhere, hafter⟩
    rcases List.eq_nil_or_concat' after with rfl | ⟨between, last, rfl⟩
    · obtain ⟨rfl, heq⟩ := List.append_inj' hsplit rfl
      obtain rfl := List.singleton_inj.mp heq
      exact Or.inl hhere
    · rw [← List.cons_append, ← List.append_assoc] at hsplit
      obtain ⟨rfl, heq⟩ := List.append_inj' hsplit rfl
      obtain rfl := List.singleton_inj.mp heq
      refine Or.inr ⟨hafter event (by simp), before, found, between, rfl, hhere, ?_⟩
      intro later hlater
      exact hafter later (List.mem_append_left _ hlater)
  · rintro (hhere | ⟨hevent, before, found, after, rfl, hhere, hafter⟩)
    · exact ⟨history, event, [], rfl, hhere, by simp⟩
    · refine ⟨before, found, after ++ [event], by simp, hhere, ?_⟩
      intro later hlater
      rcases List.mem_append.mp hlater with hlater | hlater
      · exact hafter later hlater
      · rwa [List.mem_singleton.mp hlater]

end Since

theorem live_concat (history : List Event) (event : Event) :
    Live (history ++ [event]) ↔
      event.isCompileEnd ∨ ¬ event.isDeoptimize ∧ Live history :=
  since_concat history event

theorem exists_isCompileEnd_of_live {history : List Event} (hlive : Live history) :
    ∃ event ∈ history, event.isCompileEnd := by
  obtain ⟨before, event, after, rfl, hend, -⟩ := hlive
  exact ⟨event, List.mem_append_right _ List.mem_cons_self, hend⟩

theorem lastStart_concat (start : Event) (history : List Event) (event : Event) :
    LastStart start (history ++ [event]) ↔
      event = start ∧ event.isCompileStart ∨
        ¬ event.isCompileStart ∧ LastStart start history :=
  since_concat history event

theorem lastCompile_concat (start finish : Event) (history : List Event) (event : Event) :
    LastCompile start finish (history ++ [event]) ↔
      (event = finish ∧ event.isCompileEnd ∧ LastStart start history) ∨
        ¬ event.isCompileEnd ∧ LastCompile start finish history :=
  since_concat history event

theorem find?_reverse_eq_some_iff (history : List Event) (start : Event) :
    history.reverse.find? Event.isCompileStart = some start ↔ LastStart start history := by
  induction history using List.reverseRecOn with
  | nil =>
      have hnone : ¬ LastStart start [] := not_since_nil
      simp [hnone]
  | append_singleton history event ih =>
      rw [lastStart_concat, List.reverse_append, List.reverse_singleton, List.singleton_append]
      by_cases hstart : event.isCompileStart
      · simp [hstart]
      · simp [hstart, ih]

/-- A compile end makes every compile start in front of it one that comes before a compile end. -/
theorem timed_concat (history : List Event) (event : Event) :
    Timed (history ++ [event]) ↔
      Timed history ∨ event.isCompileEnd ∧ ∃ start ∈ history, start.isCompileStart := by
  constructor
  · rintro ⟨start, finish, hsublist, hstart, hfinish⟩
    obtain ⟨front, back, hsplit, hfront, hback⟩ := List.sublist_append_iff.mp hsublist
    rcases List.sublist_singleton.mp hback with rfl | rfl
    · rw [List.append_nil] at hsplit
      exact Or.inl ⟨start, finish, hsplit ▸ hfront, hstart, hfinish⟩
    · -- the pair ends with the new event, so its start is among the events before
      have hpair : [start] ++ [finish] = front ++ [event] := hsplit
      obtain ⟨rfl, heq⟩ := List.append_inj' hpair rfl
      obtain rfl := List.singleton_inj.mp heq
      exact Or.inr ⟨hfinish, start, List.singleton_sublist.mp hfront, hstart⟩
  · rintro (⟨start, finish, hsublist, hkinds⟩ | ⟨hend, start, hmem, hstart⟩)
    · exact ⟨start, finish, hsublist.trans (List.sublist_append_left _ _), hkinds⟩
    · exact ⟨start, event, (List.singleton_sublist.mpr hmem).append (List.Sublist.refl [event]),
        hstart, hend⟩

theorem exists_isCompileStart_of_timed {history : List Event} (htimed : Timed history) :
    ∃ event ∈ history, event.isCompileStart := by
  obtain ⟨start, finish, hsublist, hstart, -⟩ := htimed
  exact ⟨start, hsublist.subset List.mem_cons_self, hstart⟩

end History

/-! ## The status of one function -/

namespace FunctionInsight

/-- The status of a function is what its history says. -/
structure Tracks (function : FunctionInsight) : Prop where
  compiled_iff : function.isCompiled ↔ History.Live function.events
  deoptimized_iff : function.wasDeoptimized ↔ ∃ event ∈ function.events, event.isDeoptimize
  isSome_time_iff : function.compileTime.isSome ↔ History.Timed function.events
  time_iff : ∀ time, function.compileTime = some time ↔
    ∃ start finish, History.LastCompile start finish function.events ∧
      time = elapsed start.time finish.time

theorem tracks_ofLocation (location : Location) : (ofLocation location).Tracks where
  compiled_iff := by
    have hnone : ¬ History.Live [] := History.not_since_nil
    simp [ofLocation, hnone]
  deoptimized_iff := by simp [ofLocation]
  isSome_time_iff := by simp [ofLocation, History.Timed]
  time_iff := by
    have hnone : ∀ start finish, ¬ History.LastCompile start finish [] :=
      fun _ _ => History.not_since_nil
    simp [ofLocation, hnone]

theorem Tracks.learnName {function : FunctionInsight} (htracks : function.Tracks)
    (location : Location) : (function.learnName location).Tracks := by
  unfold FunctionInsight.learnName
  split
  next => exact ⟨htracks.1, htracks.2, htracks.3, htracks.4⟩
  next => exact htracks

/-- An event that neither finishes a compilation nor throws code away changes no status. -/
theorem Tracks.push {function : FunctionInsight} (htracks : function.Tracks) {event : Event}
    (hend : event.isCompileEnd = false) (hdeoptimize : event.isDeoptimize = false) :
    (function.push event).Tracks := by
  refine ⟨?_, ?_, ?_, ?_⟩
  · simp [FunctionInsight.push, History.live_concat, hend, hdeoptimize, htracks.compiled_iff]
  · simp [FunctionInsight.push, or_and_right, exists_or, hdeoptimize, htracks.deoptimized_iff]
  · simp [FunctionInsight.push, History.timed_concat, hend, htracks.isSome_time_iff]
  · simp [FunctionInsight.push, History.lastCompile_concat, hend, htracks.time_iff]

theorem Tracks.deoptimize {function : FunctionInsight} (htracks : function.Tracks)
    (time : UInt64) (reason position : String) :
    (function.deoptimize time reason position).Tracks := by
  refine ⟨?_, ?_, ?_, ?_⟩
  · simp [FunctionInsight.deoptimize, FunctionInsight.push, History.live_concat,
      Event.isCompileEnd, Event.isDeoptimize, Event.compiledMemory?]
  · simp [FunctionInsight.deoptimize, FunctionInsight.push, or_and_right, exists_or,
      Event.isDeoptimize]
  · simp [FunctionInsight.deoptimize, FunctionInsight.push, History.timed_concat,
      Event.isCompileEnd, Event.compiledMemory?, htracks.isSome_time_iff]
  · simp [FunctionInsight.deoptimize, FunctionInsight.push, History.lastCompile_concat,
      Event.isCompileEnd, Event.compiledMemory?, htracks.time_iff]

theorem lastCompileStart?_eq_some_iff (function : FunctionInsight) (start : Event) :
    function.lastCompileStart? = some start ↔ History.LastStart start function.events :=
  History.find?_reverse_eq_some_iff function.events start

theorem isSome_lastCompileStart?_iff (function : FunctionInsight) :
    function.lastCompileStart?.isSome ↔ ∃ event ∈ function.events, event.isCompileStart := by
  simp [lastCompileStart?]

/-- The end of a compilation takes its time from the last compile start. Without one there was no
time before either, since a time needs a start. -/
theorem Tracks.finishCompile {function : FunctionInsight} (htracks : function.Tracks)
    (time : UInt64) (memory : MemoryArea) : (function.finishCompile time memory).Tracks := by
  have hevents : (function.finishCompile time memory).events =
      function.events ++ [⟨time, .compileEnd memory⟩] := rfl
  have hend : Event.isCompileEnd ⟨time, .compileEnd memory⟩ = true := rfl
  have hkept : Event.isDeoptimize ⟨time, .compileEnd memory⟩ = false := rfl
  have htime : (function.finishCompile time memory).compileTime =
      function.lastCompileStart?.elim function.compileTime fun start =>
        some (elapsed start.time time) := by
    unfold FunctionInsight.finishCompile
    cases function.lastCompileStart? <;> rfl
  refine ⟨?_, ?_, ?_, ?_⟩
  · rw [hevents, History.live_concat]
    exact iff_of_true rfl (Or.inl hend)
  · rw [hevents]
    simp only [List.mem_append, List.mem_singleton, or_and_right, exists_or, exists_eq_left, hkept,
      Bool.false_eq_true, or_false]
    exact htracks.deoptimized_iff
  · rw [hevents, History.timed_concat, htime, ← isSome_lastCompileStart?_iff,
      ← htracks.isSome_time_iff]
    cases function.lastCompileStart? <;> simp [hend]
  · intro duration
    rw [hevents, htime]
    simp only [History.lastCompile_concat, hend, not_true_eq_false, false_and, or_false, true_and,
      ← lastCompileStart?_eq_some_iff]
    cases hlast : function.lastCompileStart? with
    | some start => simp [eq_comm]
    | none =>
        have hnone : function.compileTime = none := by
          rw [← Option.not_isSome_iff_eq_none, htracks.isSome_time_iff]
          intro htimed
          have hstart := History.exists_isCompileStart_of_timed htimed
          rw [← isSome_lastCompileStart?_iff, hlast] at hstart
          cases hstart
        simp [hnone]

theorem Tracks.noteCreation {function : FunctionInsight} (htracks : function.Tracks)
    (creation : Creation) (time : UInt64) (memory : MemoryArea) :
    (function.noteCreation creation time memory).Tracks := by
  cases creation with
  | script => exact htracks.push rfl rfl
  | compileStart => exact htracks.push rfl rfl
  | compileEnd => exact htracks.finishCompile time memory

theorem tracks_invariant : Invariant Tracks where
  ofLocation := tracks_ofLocation
  learnName location htracks := htracks.learnName location
  noteCreation creation time memory htracks := htracks.noteCreation creation time memory
  deoptimize time reason position htracks := htracks.deoptimize time reason position

/-- The time between two events is their difference as numbers, or zero if that is negative. -/
theorem toNat_elapsed (first later : UInt64) :
    ((elapsed first later).toNat : Int) = max 0 ((later.toNat : Int) - first.toNat) := by
  unfold elapsed
  split
  next hle =>
    have hle := UInt64.le_iff_toNat_le.mp hle
    rw [UInt64.toNat_sub_of_le _ _ (UInt64.le_iff_toNat_le.mpr hle)]
    omega
  next hlt =>
    have hlt := UInt64.lt_iff_toNat_lt.mp (UInt64.not_le.mp hlt)
    simp only [UInt64.toNat_zero]
    omega

/-- Live code was compiled, so there is a last compiled code object. -/
theorem Tracks.isSome_lastCompiledCode? {function : FunctionInsight} (htracks : function.Tracks)
    (hcompiled : function.isCompiled) : function.lastCompiledCode?.isSome := by
  obtain ⟨event, hmem, hend⟩ :=
    History.exists_isCompileEnd_of_live (htracks.compiled_iff.mp hcompiled)
  rw [lastCompiledCode?, List.isSome_findSome?, List.any_eq_true]
  exact ⟨event, List.mem_reverse.mpr hmem, hend⟩

end FunctionInsight

namespace Store

/-- The status of every function in every store there is can be read off its history. Its code is
live if a compilation finished and no code was thrown away since, it was deoptimized if code was
ever thrown away, and it has a compile time if some compile start comes before some compile end:
the time from the last compile start in front of the last compile end, or zero if the clock went
back between them. Live code always has a code object. -/
theorem status_of_history (operations : List Operation) {file : FileInsight}
    (hfile : file ∈ (after operations).files) {function : FunctionInsight}
    (hfunction : function ∈ file.functions) :
    (function.isCompiled ↔ ∃ before finish later, function.events = before ++ finish :: later ∧
      finish.isCompileEnd ∧ ∀ event ∈ later, ¬ event.isDeoptimize) ∧
    (function.wasDeoptimized ↔ ∃ event ∈ function.events, event.isDeoptimize) ∧
    (function.compileTime.isSome ↔ ∃ start finish, [start, finish].Sublist function.events ∧
      start.isCompileStart ∧ finish.isCompileEnd) ∧
    (∀ time, function.compileTime = some time ↔ ∃ start finish,
      History.LastCompile start finish function.events ∧
        (time.toNat : Int) = max 0 ((finish.time.toNat : Int) - start.time.toNat)) ∧
    (function.isCompiled → function.lastCompiledCode?.isSome) ∧
    function.hasCompiledCode = function.isCompiled := by
  obtain ⟨log, hlog⟩ := exists_ofLog_eq_after operations
  rw [hlog] at hfile
  obtain ⟨handle, hhandle⟩ := exists_function?_of_mem hfile hfunction
  have htracks : function.Tracks := invariant_ofLog FunctionInsight.tracks_invariant log hhandle
  refine ⟨htracks.compiled_iff, htracks.deoptimized_iff, htracks.isSome_time_iff, ?_, ?_, ?_⟩
  · intro time
    rw [htracks.time_iff]
    simp only [← FunctionInsight.toNat_elapsed, Int.natCast_inj, UInt64.toNat_inj]
  · exact htracks.isSome_lastCompiledCode?
  · rw [FunctionInsight.hasCompiledCode, Bool.eq_iff_iff, Bool.and_eq_true, and_iff_left_iff_imp]
    exact htracks.isSome_lastCompiledCode?

/-- Code that was thrown away and compiled again while the clock went back: the function is live
and was deoptimized, and its last compilation took no time. -/
theorem status_of_recompilation :
    let operations : List Operation := [
      .apply (.creation .compileStart 5 ⟨"0x1", 8⟩ "f file:///a.js:1:1"),
      .apply (.creation .compileEnd 9 ⟨"0xA", 8⟩ "f file:///a.js:1:1"),
      .apply (.deoptimization 12 " 0xa" "file:///a.js:1:1" "wrong map"),
      .apply (.creation .compileStart 20 ⟨"0x1", 8⟩ "f file:///a.js:1:1"),
      .apply (.creation .compileEnd 15 ⟨"0xB", 8⟩ "f file:///a.js:1:1")]
    let function : FunctionInsight := {
      name := "f"
      declaration := ⟨0, 1, 1⟩
      events := [⟨5, .compileStart⟩, ⟨9, .compileEnd ⟨"0xA", 8⟩⟩,
        ⟨12, .deoptimize "wrong map" "file:///a.js:1:1"⟩, ⟨20, .compileStart⟩,
        ⟨15, .compileEnd ⟨"0xB", 8⟩⟩]
      isCompiled := true
      wasDeoptimized := true
      compileTime := some 0 }
    (⟨"/a.js", [function]⟩ : FileInsight) ∈ (after operations).files ∧
      function.hasCompiledCode ∧ ∃ start finish,
        History.LastCompile start finish function.events ∧
          (0 : Int) = max 0 ((finish.time.toNat : Int) - start.time.toNat) := by
  intro operations function
  have hfile : (⟨"/a.js", [function]⟩ : FileInsight) ∈ (after operations).files := by
    decide +kernel
  obtain ⟨-, -, -, htime, -, hcode⟩ := status_of_history operations hfile List.mem_cons_self
  exact ⟨hfile, hcode, (htime 0).mp rfl⟩

end Store

end JitTrace
