import JitTrace.Proofs.Store.Run
import JitTrace.Proofs.Stream.Lines

/-! # Reading event logs

Reading an event log is applying the records in the lines in front of the first fault, and the
counts are those of the lines and of what became of the records. Hence logs can be read one behind
the other: where the first ends with a line, the rest goes on as if it were one log.
-/

namespace JitTrace

/-! ## The number of events -/

namespace Store

theorem Indexed.eventTotal_locate {store : Store} (hstore : store.Indexed) (location : Location) :
    (store.locate location).2.eventTotal = store.eventTotal := by
  unfold locate
  cases hsite : store.bySite.get? location.key with
  | some handle =>
      obtain ⟨_, function, _, hfunction, _⟩ := hstore.function_of_site hsite
      have htotal := eventTotal_modify store handle (fun function => function.learnName location)
        hfunction
      have hevents := (function.learnName_frame location).2.2
      simp only [hevents] at htotal
      exact Nat.add_right_cancel htotal
  | none =>
      have hopened := Option.isSome_of_eq_some (hstore.filename?_opened location.filename)
      have htotal := eventTotal_append _ _ (.ofLocation location) hopened
      rw [eventTotal_ensureFile] at htotal
      exact htotal

/-- A record that is attached to a function adds one event, and any other adds none. -/
theorem Consistent.eventTotal_apply {store : Store} (hstore : store.Consistent)
    (record : Record) :
    (store.apply record).2.eventTotal =
      store.eventTotal + if (store.apply record).1 = .recorded then 1 else 0 := by
  cases record with
  | creation creation time memory source =>
      cases hsource : creation.locate? source with
      | none => simp [Store.apply, hsource]
      | some location =>
          have hlocated := hstore.toIndexed.attached_locate
            (Creation.exists_parse?_of_locate? hsource)
          have hfunction := hlocated.function_at (store.locate location).1
          rw [if_pos rfl] at hfunction
          have htotal := eventTotal_modify _ _
            (fun function => function.noteCreation creation time memory) hfunction
          rw [FunctionInsight.events_noteCreation, List.length_append, List.length_singleton,
            hstore.toIndexed.eventTotal_locate] at htotal
          have hrecorded : (store.recordCreation creation time memory location).eventTotal =
              ((store.locate location).2.modify (store.locate location).1
                fun function => function.noteCreation creation time memory).eventTotal := by
            cases creation <;> rfl
          simp only [Store.apply, hsource, hrecorded, if_true]
          omega
  | deoptimization time address position reason =>
      cases haddress : store.byAddress.get? (normalizeAddress address) with
      | none => simp [Store.apply, haddress]
      | some handle =>
          obtain ⟨function, hfunction, _⟩ := hstore.compiled_of_address haddress
          have htotal := eventTotal_modify store handle
            (fun function => function.deoptimize time reason position) hfunction
          rw [FunctionInsight.events_deoptimize, List.length_append, List.length_singleton]
            at htotal
          simp only [Store.apply, haddress, if_true]
          omega

/-! ## What becomes of records -/

/-- What becomes of records that are applied one after another. -/
def outcomes (store : Store) : List Record → List Outcome
  | [] => []
  | record :: rest => (store.apply record).1 :: (store.apply record).2.outcomes rest

theorem outcomes_append (store : Store) (records more : List Record) :
    store.outcomes (records ++ more) =
      store.outcomes records ++ (store.applyAll records).outcomes more := by
  induction records generalizing store with
  | nil => rfl
  | cons record rest ih => rw [List.cons_append, outcomes, outcomes, ih, List.cons_append]; rfl

theorem Consistent.applyAll {store : Store} (hstore : store.Consistent) (records : List Record) :
    (store.applyAll records).Consistent := by
  induction records generalizing store with
  | nil => exact hstore
  | cons record rest ih => exact ih (hstore.apply record)

theorem Consistent.eventTotal_applyAll {store : Store} (hstore : store.Consistent)
    (records : List Record) :
    (store.applyAll records).eventTotal =
      store.eventTotal + (store.outcomes records).count .recorded := by
  induction records generalizing store with
  | nil => rfl
  | cons record rest ih =>
      have hrest : store.applyAll (record :: rest) = (store.apply record).2.applyAll rest := rfl
      rw [hrest, ih (hstore.apply record), hstore.eventTotal_apply, outcomes, List.count_cons,
        Nat.add_assoc]
      simp [Nat.add_comm]

end Store

/-! ## Counts -/

namespace IngestStats

/-- The counts of lines and of what became of their records. -/
def tally (lines : List String) (outcomes : List Outcome) : IngestStats where
  lines := lines.length
  records := outcomes.count .recorded
  unresolvedDeopts := outcomes.count .unresolvedDeopt

/-- The counts of two readings taken together. -/
instance : Add IngestStats where
  add stats more :=
    ⟨stats.lines + more.lines, stats.records + more.records,
      stats.unresolvedDeopts + more.unresolvedDeopts⟩

theorem add_def (stats more : IngestStats) :
    stats + more =
      ⟨stats.lines + more.lines, stats.records + more.records,
        stats.unresolvedDeopts + more.unresolvedDeopts⟩ := rfl

theorem add_assoc (stats more rest : IngestStats) :
    stats + more + rest = stats + (more + rest) := by
  simp only [add_def, Nat.add_assoc]

theorem zero_add (stats : IngestStats) : ⟨0, 0, 0⟩ + stats = stats := by
  simp only [add_def, Nat.zero_add]

theorem tally_append (lines moreLines : List String) (outcomes moreOutcomes : List Outcome) :
    tally (lines ++ moreLines) (outcomes ++ moreOutcomes) =
      tally lines outcomes + tally moreLines moreOutcomes := by
  simp only [tally, List.length_append, List.count_append]
  rfl

end IngestStats

namespace Ingestion

def linesBefore : List LineItem → List String
  | [] => []
  | .ok line :: rest => line :: linesBefore rest
  | .error _ :: _ => []

/-- The fault that ends a reading. -/
def firstFault? (items : List LineItem) : Option IoFault :=
  items.findSome? fun
    | .ok _ => none
    | .error fault => some fault

theorem recordsOf_eq (items : List LineItem) :
    recordsOf items = (linesBefore items).filterMap Record.parse? := by
  induction items with
  | nil => rfl
  | cons item rest ih =>
      cases item with
      | error fault => rfl
      | ok line =>
          rw [recordsOf, linesBefore, List.filterMap_cons, ih]
          cases Record.parse? line <;> rfl

theorem length_linesBefore {items : List LineItem} (hwhole : firstFault? items = none) :
    (linesBefore items).length = items.length := by
  induction items with
  | nil => rfl
  | cons item rest ih =>
      cases item with
      | error fault => cases hwhole
      | ok line => rw [linesBefore, List.length_cons, List.length_cons, ih hwhole]

theorem linesBefore_append {items : List LineItem} (hwhole : firstFault? items = none)
    (more : List LineItem) :
    linesBefore (items ++ more) = linesBefore items ++ linesBefore more := by
  induction items with
  | nil => rfl
  | cons item rest ih =>
      cases item with
      | error fault => cases hwhole
      | ok line => rw [List.cons_append, linesBefore, linesBefore, ih hwhole, List.cons_append]

theorem firstFault?_append {items : List LineItem} (hwhole : firstFault? items = none)
    (more : List LineItem) : firstFault? (items ++ more) = firstFault? more := by
  rw [firstFault?, List.findSome?_append]
  exact (congrArg (Option.or · _) hwhole).trans Option.none_or

/-- A stream whose items are all lines was not ended by a failure. -/
theorem failure?_eq_none {stream : Stream} (hwhole : firstFault? stream.items = none) :
    stream.failure? = none := by
  cases hfailure : stream.failure? with
  | none => rfl
  | some fault =>
      rw [firstFault?, List.findSome?_eq_none_iff] at hwhole
      have hmem : .error fault ∈ stream.items := by
        rw [Stream.items, itemsOf, hfailure]
        simp
      cases hwhole _ hmem

theorem fst_addItems (state : Ingestion) (items : List LineItem) :
    (state.addItems items).1 = firstFault? items := by
  induction items generalizing state with
  | nil => rfl
  | cons item rest ih =>
      cases item with
      | error fault => rfl
      | ok line => exact ih (state.addLine line)

/-- A line counts as one, and its record as what became of it. -/
theorem stats_addLine (state : Ingestion) (line : String) :
    (state.addLine line).stats = state.stats +
      .tally [line] (state.store.outcomes (Record.parse? line).toList) := by
  unfold addLine
  cases Record.parse? line with
  | none => rfl
  | some record =>
      simp only [Option.toList_some, Store.outcomes]
      cases (state.store.apply record).1 <;> rfl

/-- A pass counts the lines in front of the first fault and what became of their records. -/
theorem stats_addItems (state : Ingestion) (items : List LineItem) :
    (state.addItems items).2.stats = state.stats +
      .tally (linesBefore items) (state.store.outcomes (recordsOf items)) := by
  induction items generalizing state with
  | nil => rfl
  | cons item rest ih =>
      cases item with
      | error fault => rfl
      | ok line =>
          rw [addItems, ih, stats_addLine, store_addLine, IngestStats.add_assoc,
            ← IngestStats.tally_append, ← Store.outcomes_append]
          rfl

end Ingestion

namespace Store

/-! ## Whole readings -/

theorem stats_ingest (store : Store) (chunk : Nat) (stream : Stream) :
    (store.ingest chunk stream).stats =
      match Ingestion.firstFault? stream.items with
      | some fault => .error fault
      | none => .ok (.tally (Ingestion.linesBefore stream.items)
          (store.outcomes (Ingestion.recordsOf stream.items))) := by
  have hfault := Ingestion.fst_addItems (.ofStore store) stream.items
  have hstats := (Ingestion.stats_addItems (.ofStore store) stream.items).trans
    (IngestStats.zero_add _)
  rw [ingest, Stream.lines_eq_items]
  split
  next state heq =>
    rw [heq] at hfault hstats
    rw [← hfault]
    exact congrArg Except.ok hstats
  next fault state heq =>
    rw [heq] at hfault
    rw [← hfault]

/-- Reading a log that ends with a line, and then another one, leaves the store that both leave
when they are read as one. -/
theorem store_ingest_append (store : Store) (chunk laterChunk wholeChunk : Nat) {stream : Stream}
    (hwhole : Ingestion.firstFault? stream.items = none) (hends : EndsLine stream.bytes)
    (later : Stream) :
    ((store.ingest chunk stream).store.ingest laterChunk later).store =
      (store.ingest wholeChunk (stream ++ later)).store := by
  simp only [store_ingest, Stream.lines_eq_items]
  rw [Stream.items_append (Ingestion.failure?_eq_none hwhole) hends, ← applyAll_append,
    Ingestion.recordsOf_eq, Ingestion.recordsOf_eq, Ingestion.recordsOf_eq,
    Ingestion.linesBefore_append hwhole, List.filterMap_append]

/-- The counts of both are those of the first and the second taken together, unless the second
ends with a fault. -/
theorem stats_ingest_append (store : Store) (chunk laterChunk wholeChunk : Nat) {stream : Stream}
    (hwhole : Ingestion.firstFault? stream.items = none) (hends : EndsLine stream.bytes)
    (later : Stream) :
    ∃ stats, (store.ingest chunk stream).stats = .ok stats ∧
      (store.ingest wholeChunk (stream ++ later)).stats =
        ((store.ingest chunk stream).store.ingest laterChunk later).stats.map (stats + ·) := by
  simp only [stats_ingest, hwhole, Except.ok.injEq, exists_eq_left']
  rw [Stream.items_append (Ingestion.failure?_eq_none hwhole) hends,
    Ingestion.firstFault?_append hwhole, store_ingest, Stream.lines_eq_items]
  cases Ingestion.firstFault? later.items with
  | some fault => rfl
  | none =>
      simp only [Except.map]
      rw [Ingestion.linesBefore_append hwhole, ← IngestStats.tally_append, ← outcomes_append,
        Ingestion.recordsOf_eq, Ingestion.recordsOf_eq, Ingestion.recordsOf_eq,
        Ingestion.linesBefore_append hwhole, List.filterMap_append]

/-- Reading an event log into a store applies the records in the lines in front of the first
fault, and ends with that fault or with the counts: all lines of the stream, the records that were
attached, and the records of thrown away code that was never seen compiling. In a store that
operations built, each attached record added one event. A log that has no fault and ends with a
line can be read in front of another one: the store is that of both read as one, and the counts
add up. -/
theorem ingest_replays (store : Store) (chunk : Nat) (stream : Stream) :
    let records := (Ingestion.linesBefore stream.items).filterMap Record.parse?
    let outcomes := store.outcomes records
    let read := store.ingest chunk stream
    read.store = store.applyAll records ∧
    (read.stats =
      match Ingestion.firstFault? stream.items with
      | some fault => .error fault
      | none => .ok ⟨(completeLines stream.bytes).length, outcomes.count .recorded,
          outcomes.count .unresolvedDeopt⟩) ∧
    (∀ operations, store = after operations →
      read.store.eventTotal = store.eventTotal + outcomes.count .recorded) ∧
    ∀ laterChunk wholeChunk later, Ingestion.firstFault? stream.items = none →
      EndsLine stream.bytes →
      let second := read.store.ingest laterChunk later
      let whole := store.ingest wholeChunk (stream ++ later)
      second.store = whole.store ∧
        ∃ stats, read.stats = .ok stats ∧ whole.stats = second.stats.map (stats + ·) := by
  intro records outcomes read
  have hstore : read.store = store.applyAll records := by
    rw [store_ingest, Stream.lines_eq_items, Ingestion.recordsOf_eq]
  refine ⟨hstore, ?_, ?_, ?_⟩
  · refine (stats_ingest store chunk stream).trans ?_
    cases hfault : Ingestion.firstFault? stream.items with
    | some fault => rfl
    | none =>
        have hlines : (Ingestion.linesBefore stream.items).length =
            (completeLines stream.bytes).length := by
          rw [Ingestion.length_linesBefore hfault, Stream.items, itemsOf,
            Ingestion.failure?_eq_none hfault]
          simp
        simp only [IngestStats.tally, hlines, Ingestion.recordsOf_eq]
        rfl
  · rintro operations rfl
    rw [hstore]
    exact (consistent_after operations).eventTotal_applyAll records
  · intro laterChunk wholeChunk later hwhole hends
    exact ⟨store_ingest_append store chunk laterChunk wholeChunk hwhole hends later,
      stats_ingest_append store chunk laterChunk wholeChunk hwhole hends later⟩

/-- A log that is read in two parts, byte by byte first, and as one. -/
theorem ingest_in_two_parts :
    let first := Stream.ofBytes
      "code-creation,Script,11,1,0xA,5, file:///a.js:1:1\n".toUTF8.toList
    let later := Stream.ofBytes
      "code-deopt,2,0,0xB,0,0,eager,<file:///a.js:2:2>,wrong map\n".toUTF8.toList
    (∅ : Store) = after [] ∧
      Ingestion.firstFault? first.items = none ∧ EndsLine first.bytes ∧
      ((∅ : Store).ingest 1 first).stats = .ok ⟨1, 1, 0⟩ ∧
      ((∅ : Store).ingest 1 first).store.eventTotal = 1 ∧
      (((∅ : Store).ingest 1 first).store.ingest 64 later).store =
        ((∅ : Store).ingest 7 (first ++ later)).store ∧
      ((∅ : Store).ingest 7 (first ++ later)).stats =
        (((∅ : Store).ingest 1 first).store.ingest 64 later).stats.map (⟨1, 1, 0⟩ + ·) := by
  intro first later
  have hwhole : Ingestion.firstFault? first.items = none := by decide +kernel
  have hends : EndsLine first.bytes :=
    Or.inr ⟨first.bytes.dropLast, by decide +kernel⟩
  have hrecorded : ((∅ : Store).outcomes ((Ingestion.linesBefore first.items).filterMap
      Record.parse?)).count .recorded = 1 := by
    decide +kernel
  obtain ⟨-, hread, htotal, hparts⟩ := ingest_replays ∅ 1 first
  obtain ⟨hstore, stats, hstats, hcounts⟩ := hparts 64 7 later hwhole hends
  have hfirst : ((∅ : Store).ingest 1 first).stats = .ok ⟨1, 1, 0⟩ := by
    rw [hwhole] at hread
    refine hread.trans (congrArg Except.ok ?_)
    decide +kernel
  have hevents := htotal [] rfl
  rw [hrecorded] at hevents
  cases hfirst.symm.trans hstats
  exact ⟨rfl, hwhole, hends, hfirst, hevents, hstore, hcounts⟩

end Store

end JitTrace
