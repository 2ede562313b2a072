import JitTrace.Session
import JitTrace.Proofs.Store.Ingestion

/-! # Runs of sessions

Whatever is done to a session in whatever order, its store is the one that the last successful
analysis built, its listeners have heard of every successful analysis since they were registered,
and its labels are changed by what is about labels alone. A log is opened outside of the session,
so an action that needs one comes with what was found in its place, and this may be anything.
-/

namespace JitTrace

namespace Session

variable {σ : Type}

/-! ## Actions -/

/-- What can be done to a session. An analysis of a stream is one that found this stream. -/
inductive Action (σ : Type) where
  | analyze (found : Except TraceFault Stream)
  | listen (listener : Store → σ → σ)
  | optimizedCode (found : Except TraceFault Stream) (address : String)
  | decompile (lines : List String) (context : String)
  | decompileAddress (found : Except TraceFault Stream) (address : String)
  | rename (context : String) (line : Nat) (name : String)
  | resetStatistics (context : String)
  | clearLabels

/-- The session after an action. -/
def perform (session : Session σ) : Action σ → Session σ
  | .analyze found => (session.analyzeOpened found).session
  | .listen listener => session.listen listener
  | .optimizedCode found address => (session.codeInOpened found address).session
  | .decompile lines context => (session.decompile lines context).2
  | .decompileAddress found address =>
    (decompileExtracted address (session.codeInOpened found address)).session
  | .rename context line name => (session.rename context line name).2
  | .resetStatistics context => session.resetStatistics context
  | .clearLabels => session.clearLabels

/-- The session after some more actions. -/
def run (session : Session σ) (actions : List (Action σ)) : Session σ :=
  actions.foldl perform session

theorem run_concat (session : Session σ) (actions : List (Action σ)) (action : Action σ) :
    session.run (actions ++ [action]) = (session.run actions).perform action :=
  List.foldl_concat ..

/-- The stream that an action analyses, if the analysis succeeds: a log was found, and no read of
it fails and all its lines are text. -/
def Action.analysed? : Action σ → Option Stream
  | .analyze (.ok stream) => if Ingestion.firstFault? stream.items = none then some stream else none
  | _ => none

/-- The listener that an action registers. -/
def Action.listener? : Action σ → Option (Store → σ → σ)
  | .listen listener => some listener
  | _ => none

end Session

/-- The store that a stream builds from nothing. -/
def Store.ofStream (chunk : Nat) (stream : Stream) : Store :=
  ((∅ : Store).ingest chunk stream).store

namespace Session

variable {σ : Type}

/-! ## Calls of listeners -/

/-- A call of a listener, with the position of the action that registered it. -/
structure Call (σ : Type) where
  registration : Nat
  listener : Store → σ → σ
  /-- The store that the listener was given. -/
  store : Store

/-- The listeners that actions register, in order, with the positions of these actions. -/
def registrations (actions : List (Action σ)) : List (Nat × (Store → σ → σ)) :=
  actions.zipIdx.filterMap fun entry => entry.1.listener?.map fun listener => (entry.2, listener)

/-- The calls that an action brings about: if it is an analysis that succeeds, each listener that
was registered before is given the new store. -/
def callsOf (chunk : Nat) (before : List (Action σ)) (action : Action σ) : List (Call σ) :=
  match action.analysed? with
  | none => []
  | some stream =>
    (registrations before).map fun entry => ⟨entry.1, entry.2, .ofStream chunk stream⟩

/-- The calls that actions bring about, in order. -/
def calls (chunk : Nat) (actions : List (Action σ)) : List (Call σ) :=
  actions.zipIdx.flatMap fun entry => callsOf chunk (actions.take entry.2) entry.1

theorem registrations_concat (actions : List (Action σ)) (action : Action σ) :
    registrations (actions ++ [action]) =
      registrations actions ++
        action.listener?.toList.map fun listener => (actions.length, listener) := by
  rw [registrations, List.zipIdx_append, List.filterMap_append, ← registrations]
  cases hlistener : action.listener? <;> simp [hlistener]

theorem calls_concat (chunk : Nat) (actions : List (Action σ)) (action : Action σ) :
    calls chunk (actions ++ [action]) = calls chunk actions ++ callsOf chunk actions action := by
  have hbefore : ∀ entry ∈ actions.zipIdx,
      callsOf chunk ((actions ++ [action]).take entry.2) entry.1 =
        callsOf chunk (actions.take entry.2) entry.1 := by
    intro entry hentry
    rw [List.take_append_of_le_length (Nat.le_of_lt (List.snd_lt_of_mem_zipIdx hentry))]
  rw [calls, List.zipIdx_append, List.flatMap_append, List.flatMap_congr hbefore, ← calls]
  simp

/-- The listener that an action registers is registered once, at the position of the action. -/
theorem filter_registrations (actions : List (Action σ)) (position : Nat) :
    (registrations actions).filter (fun entry => entry.1 = position) =
      (actions[position]?.bind Action.listener?).toList.map
        fun listener => (position, listener) := by
  induction actions using List.reverseRecOn with
  | nil => simp [registrations]
  | append_singleton actions action ih =>
      rw [registrations_concat, List.filter_append, ih]
      rcases Nat.lt_trichotomy position actions.length with hlt | rfl | hgt
      · rw [List.getElem?_append_left hlt]
        simp [Nat.ne_of_gt hlt]
      · cases hlistener : action.listener? <;> simp [hlistener]
      · have hactions : actions[position]? = none := List.getElem?_eq_none (Nat.le_of_lt hgt)
        have hmore : (actions ++ [action])[position]? = none :=
          List.getElem?_eq_none (by rw [List.length_append]; exact hgt)
        rw [hactions, hmore]
        cases action.listener? <;> simp [Nat.ne_of_lt hgt]

theorem lt_length_of_mem_registrations {actions : List (Action σ)}
    {entry : Nat × (Store → σ → σ)} (hentry : entry ∈ registrations actions) :
    entry.1 < actions.length := by
  obtain ⟨⟨action, position⟩, hmem, hregistered⟩ := List.mem_filterMap.mp hentry
  obtain ⟨listener, -, rfl⟩ := Option.map_eq_some_iff.mp hregistered
  exact List.snd_lt_of_mem_zipIdx hmem

theorem registration_lt_of_mem_calls {chunk : Nat} {actions : List (Action σ)} {call : Call σ}
    (hcall : call ∈ calls chunk actions) : call.registration < actions.length := by
  obtain ⟨⟨action, position⟩, -, hcaused⟩ := List.mem_flatMap.mp hcall
  unfold callsOf at hcaused
  split at hcaused
  next => cases hcaused
  next stream hanalysed =>
    obtain ⟨entry, hentry, rfl⟩ := List.mem_map.mp hcaused
    have hbefore := lt_length_of_mem_registrations hentry
    rw [List.length_take] at hbefore
    exact Nat.lt_of_lt_of_le hbefore (Nat.min_le_right ..)

theorem filter_callsOf (chunk : Nat) (before : List (Action σ)) (action : Action σ)
    (position : Nat) :
    (callsOf chunk before action).filter (fun call => call.registration = position) =
      match action.analysed?, before[position]?.bind Action.listener? with
      | some stream, some listener => [⟨position, listener, .ofStream chunk stream⟩]
      | _, _ => [] := by
  unfold callsOf
  cases action.analysed? with
  | none => rfl
  | some stream =>
      rw [List.filter_map]
      refine (congrArg _ (filter_registrations before position)).trans ?_
      cases before[position]?.bind Action.listener? <;> rfl

/-- A listener is called once for each successful analysis behind its registration. -/
theorem filter_calls (chunk : Nat) {actions : List (Action σ)} {position : Nat}
    {listener : Store → σ → σ} (hlistener : actions[position]? = some (.listen listener)) :
    (calls chunk actions).filter (fun call => call.registration = position) =
      ((actions.drop (position + 1)).filterMap Action.analysed?).map fun stream =>
        ⟨position, listener, .ofStream chunk stream⟩ := by
  induction actions using List.reverseRecOn with
  | nil => cases hlistener
  | append_singleton actions action ih =>
      rw [calls_concat, List.filter_append, filter_callsOf]
      rcases Nat.lt_or_ge position actions.length with hlt | hge
      · rw [List.getElem?_append_left hlt] at hlistener
        rw [ih hlistener, hlistener, List.drop_append_of_le_length hlt, List.filterMap_append,
          List.map_append]
        congr 1
        cases hanalysed : action.analysed? <;> simp [hanalysed, Action.listener?]
      · -- the last action registers the listener, and nothing is called before that
        have hnone :
            (calls chunk actions).filter (fun call => call.registration = position) = [] := by
          rw [List.filter_eq_nil_iff]
          intro call hcall heq
          have hlt := registration_lt_of_mem_calls hcall
          exact absurd (of_decide_eq_true heq) (Nat.ne_of_lt (Nat.lt_of_lt_of_le hlt hge))
        obtain ⟨hposition, hlast⟩ := List.getElem?_eq_some_iff.mp hlistener
        rw [List.getElem_append_right hge, List.getElem_singleton] at hlast
        rw [List.length_append, List.length_singleton] at hposition
        rw [hnone, hlast, List.drop_eq_nil_of_le (by simpa using Nat.succ_le_succ hge)]
        rfl

/-! ## What an action does -/

/-- An analysis either takes over the store that its stream builds, or fails and leaves the session
as it is. -/
theorem analyzeOpened_cases (session : Session σ) (found : Except TraceFault Stream) :
    match (Action.analyze found : Action σ).analysed? with
    | some stream => (∃ stats, (session.analyzeOpened found).result = .ok stats) ∧
        (session.analyzeOpened found).session =
          session.adopt (.ofStream session.config.chunkSize stream)
    | none => (∃ fault, (session.analyzeOpened found).result = .error fault) ∧
        (session.analyzeOpened found).session = session := by
  cases found with
  | error fault => exact ⟨⟨fault, rfl⟩, rfl⟩
  | ok stream =>
      have hstats := Store.stats_ingest ∅ session.config.chunkSize stream
      simp only [Action.analysed?, analyzeOpened, analyzeStream]
      cases hfault : Ingestion.firstFault? stream.items with
      | none =>
          rw [hfault] at hstats
          simp only [hstats, if_true]
          exact ⟨⟨_, rfl⟩, rfl⟩
      | some fault =>
          rw [hfault] at hstats
          simp only [hstats, reduceCtorEq, if_false]
          exact ⟨⟨.io fault, rfl⟩, True.intro⟩

/-- Rendering a block at an address changes labels, if it succeeds, and nothing else. -/
theorem decompileExtracted_cases (session : Session σ) (found : Except TraceFault Stream)
    (address : String) :
    let answer := decompileExtracted address (session.codeInOpened found address)
    ((∃ text, answer.result = .ok text) ∧
        ∃ labels, answer.session = { session with labels := labels }) ∨
      (∃ fault, answer.result = .error fault) ∧ answer.session = session := by
  intro answer
  have hextracted : (session.codeInOpened found address).session = session := by
    cases found <;> rfl
  simp only [answer, decompileExtracted]
  cases (session.codeInOpened found address).result with
  | error fault => exact Or.inr ⟨⟨fault, rfl⟩, hextracted⟩
  | ok lines =>
      rw [hextracted]
      exact Or.inl ⟨⟨_, rfl⟩, _, rfl⟩

/-! ## What a run leaves behind -/

/-- A session after actions has the store of the last successful analysis, and its listeners have
been called as the actions call for. -/
structure Follows (config : Config) (heard : σ) (actions : List (Action σ))
    (session : Session σ) : Prop where
  sameConfig : session.config = config
  registered : session.listeners = (registrations actions).map Prod.snd
  lastStore : session.store =
    ((actions.filterMap Action.analysed?).getLast?).elim ∅ (Store.ofStream config.chunkSize)
  called : session.heard = (calls config.chunkSize actions).foldl
    (fun heard call => call.listener call.store heard) heard

variable {config : Config} {heard : σ} {actions : List (Action σ)} {session : Session σ}

theorem follows_start (config : Config) (heard : σ) :
    Follows config heard [] (start config heard) :=
  ⟨rfl, rfl, rfl, rfl⟩

namespace Follows

/-- What changes labels and nothing else is neither an analysis nor a registration. -/
theorem withLabels (hfollows : Follows config heard actions session) {action : Action σ}
    (hanalysed : action.analysed? = none) (hlistener : action.listener? = none)
    {labels : LabelCache} (hperform : session.perform action = { session with labels := labels }) :
    Follows config heard (actions ++ [action]) (session.perform action) := by
  have hcalls : callsOf config.chunkSize actions action = [] := by
    rw [callsOf, hanalysed]
  rw [hperform]
  refine ⟨hfollows.sameConfig, ?_, ?_, ?_⟩
  · simpa [registrations_concat, hlistener] using hfollows.registered
  · simpa [List.filterMap_append, hanalysed] using hfollows.lastStore
  · simpa [calls_concat, hcalls] using hfollows.called

theorem listen (hfollows : Follows config heard actions session) (listener : Store → σ → σ) :
    Follows config heard (actions ++ [.listen listener]) (session.listen listener) where
  sameConfig := hfollows.sameConfig
  registered := by
    rw [registrations_concat, List.map_append, ← hfollows.registered]
    rfl
  lastStore := by
    simpa [List.filterMap_append, Action.analysed?, Session.listen] using hfollows.lastStore
  called := by
    simpa [calls_concat, callsOf, Action.analysed?, Session.listen] using hfollows.called

theorem adopt (hfollows : Follows config heard actions session) {action : Action σ}
    {stream : Stream} (hanalysed : action.analysed? = some stream)
    (hlistener : action.listener? = none) :
    Follows config heard (actions ++ [action])
      (session.adopt (.ofStream config.chunkSize stream)) where
  sameConfig := hfollows.sameConfig
  registered := by simpa [registrations_concat, hlistener, Session.adopt] using hfollows.registered
  lastStore := by simp [List.filterMap_append, hanalysed, Session.adopt]
  called := by
    rw [calls_concat, List.foldl_append, ← hfollows.called]
    simp only [callsOf, hanalysed, List.foldl_map, Session.adopt, hfollows.registered]

theorem perform (hfollows : Follows config heard actions session) (action : Action σ) :
    Follows config heard (actions ++ [action]) (session.perform action) := by
  cases action with
  | analyze found =>
      have hcases := session.analyzeOpened_cases found
      split at hcases
      next stream hanalysed =>
        rw [hfollows.sameConfig] at hcases
        rw [Session.perform, hcases.2]
        exact hfollows.adopt hanalysed rfl
      next hanalysed => exact hfollows.withLabels hanalysed rfl hcases.2
  | listen listener => exact hfollows.listen listener
  | optimizedCode found address =>
      have hperform : session.perform (.optimizedCode found address) =
          { session with labels := session.labels } := by
        cases found <;> rfl
      exact hfollows.withLabels rfl rfl hperform
  | decompile lines context => exact hfollows.withLabels rfl rfl rfl
  | decompileAddress found address =>
      rcases session.decompileExtracted_cases found address with
        ⟨-, labels, hanswer⟩ | ⟨-, hanswer⟩
      · exact hfollows.withLabels rfl rfl hanswer
      · exact hfollows.withLabels rfl rfl hanswer
  | rename context line name => exact hfollows.withLabels rfl rfl rfl
  | resetStatistics context => exact hfollows.withLabels rfl rfl rfl
  | clearLabels => exact hfollows.withLabels rfl rfl rfl

end Follows

theorem follows_run (config : Config) (heard : σ) (actions : List (Action σ)) :
    Follows config heard actions ((start config heard).run actions) := by
  induction actions using List.reverseRecOn with
  | nil => exact follows_start config heard
  | append_singleton actions action ih =>
      rw [run_concat]
      exact ih.perform action

/-! ## File systems -/

section

variable {W : Type} [FileSystem (StateM W)]

/-- What is found in place of a log in a world. -/
def foundIn (world : W) (path : String) : Except TraceFault Stream :=
  ((openLog path : StateM W (Except TraceFault Stream)).run world).1

theorem run_openLog (path : String) (transcript : Transcript) (world : W) :
    (((openLog path : Recorded (StateM W) _).run transcript).run world).1.1 =
      foundIn world path := by
  unfold foundIn openLog pathExists
  rcases hkind : (FileSystem.kind? path : StateM W _) world with ⟨kind, next⟩
  cases kind with
  | none =>
      simp only [StateT.run, StateT.bind, bind, FileSystem.kind?, StateT.lift, hkind]
      rfl
  | some kind =>
      simp only [StateT.run, StateT.bind, bind, FileSystem.kind?, StateT.lift, hkind]
      rfl

/-- In any file system, an operation that opens a log does what its action does with that which is
found there. -/
theorem answers_in_world (session : Session σ) (address : String) (transcript : Transcript)
    (world : W) :
    (((session.analyze : Recorded (StateM W) _).run transcript).run world).1.1 =
        session.analyzeOpened (foundIn world session.config.eventLogPath) ∧
      (((session.optimizedCode address : Recorded (StateM W) _).run transcript).run world).1.1 =
        session.codeInOpened (foundIn world session.config.optCodeLogPath) address ∧
      (((session.decompileAddress address : Recorded (StateM W) _).run transcript).run
          world).1.1 =
        decompileExtracted address
          (session.codeInOpened (foundIn world session.config.optCodeLogPath) address) := by
  refine ⟨?_, ?_, ?_⟩
  · rw [← run_openLog]
    rfl
  · rw [← run_openLog]
    rfl
  · rw [← run_openLog]
    rfl

end

/-! ## Isolation -/

/-- Whatever was done to a session, its store is the one that the last successful analysis built
from nothing, and what was heard comes from calls of the listeners: after every successful
analysis, each listener that was registered before is given the new store, in the order of
registration. So a listener is called once for each successful analysis behind its registration. An
analysis that fails changes nothing, and no analysis changes labels. Renderings change nothing but
labels, and not even these when no code is found to render. All this holds of the operations that
open logs in any file system, with what they find there. -/
theorem run_isolated (config : Config) (heard : σ) (actions : List (Action σ)) :
    let session := (start config heard).run actions
    let chunk := config.chunkSize
    session.store = ((actions.filterMap Action.analysed?).getLast?).elim ∅ (fun stream =>
      ((∅ : Store).ingest chunk stream).store) ∧
    (session.heard =
        (calls chunk actions).foldl (fun heard call => call.listener call.store heard) heard ∧
      ∀ position listener, actions[position]? = some (.listen listener) →
        (calls chunk actions).filter (fun call => call.registration = position) =
          ((actions.drop (position + 1)).filterMap Action.analysed?).map fun stream =>
            ⟨position, listener, ((∅ : Store).ingest chunk stream).store⟩) ∧
    (∀ found,
      let answer := session.analyzeOpened found
      answer.session.labels = session.labels ∧
      match (Action.analyze found : Action σ).analysed? with
      | some stream => (∃ stats, answer.result = .ok stats) ∧
          answer.session.store = ((∅ : Store).ingest chunk stream).store
      | none => (∃ fault, answer.result = .error fault) ∧ answer.session = session) ∧
    (∀ lines context, ∃ labels,
      (session.decompile lines context).2 = { session with labels := labels }) ∧
    (∀ found address,
      let answer := decompileExtracted address (session.codeInOpened found address)
      (∃ labels, answer.session = { session with labels := labels }) ∧
        ∀ fault, answer.result = .error fault → answer.session = session) ∧
    ∀ (W : Type) [FileSystem (StateM W)] (world : W) (transcript : Transcript) (address : String),
      let answerOf := fun {α : Type} (operation : Recorded (StateM W) (Answer σ α)) =>
        ((operation.run transcript).run world).1.1
      let eventLog := foundIn world session.config.eventLogPath
      let codeLog := foundIn world session.config.optCodeLogPath
      answerOf session.analyze = session.analyzeOpened eventLog ∧
      answerOf (session.optimizedCode address) = session.codeInOpened codeLog address ∧
      answerOf (session.decompileAddress address) =
        decompileExtracted address (session.codeInOpened codeLog address) := by
  intro session chunk
  have hfollows : Follows config heard actions session := follows_run config heard actions
  refine ⟨?_, ⟨hfollows.called, fun position listener => filter_calls chunk⟩, ?_, ?_, ?_, ?_⟩
  · exact hfollows.lastStore
  · intro found answer
    have hcases := session.analyzeOpened_cases found
    rw [hfollows.sameConfig] at hcases
    cases hanalysed : (Action.analyze found : Action σ).analysed? with
    | some stream =>
        rw [hanalysed] at hcases
        obtain ⟨hresult, hsession⟩ := hcases
        refine ⟨?_, hresult, ?_⟩
        · rw [hsession]
          rfl
        · rw [hsession]
          rfl
    | none =>
        rw [hanalysed] at hcases
        refine ⟨?_, hcases⟩
        rw [hcases.2]
  · intro lines context
    exact ⟨_, rfl⟩
  · intro found address answer
    rcases session.decompileExtracted_cases found address with
      ⟨⟨text, hresult⟩, hlabels⟩ | ⟨-, hsame⟩
    · refine ⟨hlabels, fun fault hfault => ?_⟩
      cases hresult.symm.trans hfault
    · exact ⟨⟨session.labels, hsame⟩, fun _ _ => hsame⟩
  · intro W _ world transcript address answerOf eventLog codeLog
    exact session.answers_in_world address transcript world

/-- Two listeners, two analyses that succeed, and two in between that fail: one log is missing, and
one has a line that is no text behind a good one. -/
theorem run_with_failed_analyses :
    let first := Stream.ofBytes "code-creation,Script,11,1,a,5,/a:1:1\n".toUTF8.toList
    let broken := Stream.ofBytes
      ("code-creation,Script,11,2,b,5,/b:1:1\n".toUTF8.toList ++ [0xff, 10])
    let second := Stream.ofBytes "code-creation,Script,11,3,c,5,/c:1:1\n".toUTF8.toList
    let note := fun (name : Nat) (_ : Store) (heard : List Nat) => heard ++ [name]
    let actions := [.listen (note 1), .analyze (.ok first), .listen (note 2),
      .analyze (.error (.missingLog "log")), .analyze (.ok broken), .decompile [] "a.asm",
      .analyze (.ok second)]
    let config : Config := ⟨"", "log", "opt-code", 7⟩
    let session := (start config []).run actions
    session.store = ((∅ : Store).ingest config.chunkSize second).store ∧
      session.heard = [1, 1, 2] ∧
      actions[2]? = some (.listen (note 2)) ∧
      (calls config.chunkSize actions).filter (fun call => call.registration = 2) =
        [⟨2, note 2, ((∅ : Store).ingest config.chunkSize second).store⟩] ∧
      (session.analyzeOpened (.ok broken)).session = session := by
  intro first broken second note actions config session
  have hlast : (actions.filterMap Action.analysed?).getLast? = some second := by decide +kernel
  have hlater : (actions.drop 3).filterMap Action.analysed? = [second] := by decide +kernel
  have hbroken : (Action.analyze (.ok broken) : Action (List Nat)).analysed? = none := by
    decide +kernel
  have hnotes : (calls config.chunkSize actions).foldl
      (fun heard call => call.listener call.store heard) [] = [1, 1, 2] := by
    decide +kernel
  obtain ⟨hstore, ⟨hheard, hcalls⟩, hanalyses, -⟩ := run_isolated config [] actions
  refine ⟨?_, ?_, rfl, ?_, ?_⟩
  · rw [hlast, Option.elim_some] at hstore
    exact hstore
  · exact hheard.trans hnotes
  · rw [hcalls 2 (note 2) rfl, hlater]
    rfl
  · obtain ⟨-, hfailed⟩ := hanalyses (.ok broken)
    rw [hbroken] at hfailed
    exact hfailed.2

end Session

end JitTrace
