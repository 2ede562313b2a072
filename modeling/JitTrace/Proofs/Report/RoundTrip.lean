import JitTrace.Proofs.Report.Decoding
import JitTrace.Proofs.Store.Status
import JitTrace.Proofs.Stream.Lines
import JitTrace.Proofs.Text.Bytes
import JitTrace.Proofs.Workspace
import JitTrace.Report.File

/-! # Reports survive being written

What is written comes back when it is read: reports from any stream that delivers the bytes of their
text and from the file that they were written to, and events and histories from their texts. The
counts of a report are the only numbers in it that could be too large to be read. The report of a
store holds the files of the store and counts what is in them.
-/

namespace JitTrace

open Json (Input Fault)

/-! ## From streams -/

theorem Stream.readAllAfter_eq {stream : Stream} (hwhole : stream.failure? = none)
    (found : ByteArray) :
    stream.readAllAfter found = .ok (found ++ stream.bytes.toByteArray) := by
  induction stream generalizing found with
  | nil =>
      rw [readAllAfter]
      exact congrArg Except.ok ByteArray.append_empty.symm
  | cons piece rest ih =>
      cases piece with
      | data bytes =>
          have hdata : (⟨bytes.toArray⟩ : ByteArray) = bytes.toByteArray :=
            ByteArray.ext (Array.toList_inj.mp List.toList_data_toByteArray.symm)
          rw [readAllAfter, ih hwhole, Stream.bytes, List.toByteArray_append, hdata,
            ByteArray.append_assoc]
      | interrupted => exact ih hwhole found
      | failure fault => cases hwhole

theorem Stream.readAll_eq {stream : Stream} (hwhole : stream.failure? = none) :
    stream.readAll = .ok stream.bytes.toByteArray := by
  rw [readAll, readAllAfter_eq hwhole, ByteArray.empty_append]

namespace Report

theorem read_text_iff (report other : Report) :
    Report.read (Input.ofString report.text) = .ok other ↔ report.Fits ∧ other = report := by
  rw [Report.read, text, Json.Value.pretty, Json.readDocument_write]
  exact report.ofJson_node_iff other (by decide)

theorem ofStream_iff {report other : Report} {stream : Stream}
    (hbytes : stream.bytes = Utf8.bytesOf report.text.toList) (hwhole : stream.failure? = none) :
    ofStream stream = .ok other ↔ report.Fits ∧ other = report := by
  rw [← read_text_iff, ofStream, Stream.readAll_eq hwhole, hbytes, Utf8.toByteArray_bytesOf,
    String.utf8Encode_toList]
  dsimp only
  rw [Utf8.symbols_toByteArray, Input.ofString]
  cases Report.read (report.text.toList.map some) with
  | error fault => simp [Except.mapError]
  | ok read => simp [Except.mapError]

end Report

/-! ## From files -/

namespace Report

theorem exists_writeFile_of_write {report : Report} {path : String} {tree next : Workspace}
    {transcript later : Transcript}
    (hwrite : tree.run transcript (report.write path) = ((.ok (), later), next)) :
    ∃ before : Workspace, before.writeFile path report.text.toUTF8 = .ok next := by
  obtain ⟨_, _, _, -, hwrite⟩ := Workspace.exists_of_run_bind hwrite
  obtain ⟨_, _, _, -, hwrite⟩ := Workspace.exists_of_run_bind hwrite
  obtain ⟨_, _, _, -, hwrite⟩ := Workspace.exists_of_run_bind hwrite
  obtain ⟨_, _, _, -, hwrite⟩ := Workspace.exists_of_run_bind hwrite
  obtain ⟨_, spoken, before, -, hwrite⟩ := Workspace.exists_of_run_bind hwrite
  obtain ⟨written, middle, between, hwritten, hwrite⟩ := Workspace.exists_of_run_bind hwrite
  rw [Workspace.run_writeFile] at hwritten
  refine ⟨before, ?_⟩
  split at hwritten
  next made hmade =>
    cases hwritten
    cases hwrite
    exact hmade
  next =>
    cases hwritten
    cases hwrite

theorem fst_run_load {path : String} {tree : Workspace} {stream : Stream}
    (hopen : tree.openFile path = .ok stream) (transcript : Transcript) :
    (tree.run transcript (Report.load path)).1.1 = Report.ofStream stream := by
  rw [Report.load, Workspace.run_bind, Workspace.run_remark]
  dsimp only
  rw [Workspace.run_bind, Workspace.run_openFile, hopen]
  dsimp only
  rw [Workspace.run_bind, Workspace.run_require]
  dsimp only [Except.mapError]
  rw [Workspace.run_bind, Workspace.run_require]
  cases Report.ofStream stream <;> rfl

/-- A report that was written to a path is read from there. -/
theorem load_of_write_iff {report other : Report} {path : String} {tree : Workspace}
    {transcript : Transcript} (hwrite : (tree.run transcript (report.write path)).1.1 = .ok ())
    (later : Transcript) :
    ((tree.run transcript (report.write path)).2.run later (Report.load path)).1.1 = .ok other ↔
      report.Fits ∧ other = report := by
  rcases hrun : tree.run transcript (report.write path) with ⟨⟨answer, middle⟩, next⟩
  rw [hrun] at hwrite
  dsimp only at hwrite
  rw [hwrite] at hrun
  obtain ⟨before, hmade⟩ := exists_writeFile_of_write hrun
  rw [fst_run_load (Workspace.openFile_of_writeFile hmade), Utf8.toList_toUTF8]
  exact ofStream_iff (List.append_nil _) rfl

end Report

/-! ## Events and histories -/

theorem Event.read_compact (event : Event) :
    Event.read (Input.ofString event.toJson.compact) = .ok event := by
  rw [Event.read, Json.Value.compact, Json.readDocument_write]
  exact event.ofJson_node (by decide)

theorem Event.readHistory_historyJson (function : FunctionInsight) :
    Event.readHistory (Input.ofString function.historyJson) = .ok function.events := by
  rw [Event.readHistory, FunctionInsight.historyJson, Json.Value.pretty, Json.readDocument_write]
  exact Json.asList_node (fun event _ => event.ofJson_node (by decide)) (by decide)

/-! ## Reports of stores -/

theorem Store.deoptimizedCount_after (operations : List Store.Operation) :
    (Store.after operations).deoptimizedCount =
      ((Store.after operations).files.flatMap FileInsight.functions).countP fun function =>
        function.events.any Event.isDeoptimize := by
  obtain ⟨log, hlog⟩ := Store.exists_ofLog_eq_after operations
  rw [Store.deoptimizedCount, hlog]
  apply List.countP_congr
  intro function hfunction
  obtain ⟨file, hfile, hmem⟩ := List.mem_flatMap.mp hfunction
  obtain ⟨handle, hhandle⟩ := Store.exists_function?_of_mem hfile hmem
  have htracks := Store.invariant_ofLog FunctionInsight.tracks_invariant log hhandle
  rw [htracks.deoptimized_iff, List.any_eq_true]

/-- What was written comes back. A report is read from every stream of the bytes of its text, and
from the path it was written to, exactly if its counts fit 64 bits; an event is read from its text
on one line, and a history from its indented text. The report of any store there is holds the files
of the store, and counts the functions in them and those whose history has code thrown away. -/
theorem Report.round_trip :
    (∀ (report other : Report) (stream : Stream),
      stream.bytes = Utf8.bytesOf report.text.toList → stream.failure? = none →
        (Report.ofStream stream = .ok other ↔ report.Fits ∧ other = report)) ∧
    (∀ (report other : Report) (path : String) (tree : Workspace) (transcript later : Transcript),
      (tree.run transcript (report.write path)).1.1 = .ok () →
        (((tree.run transcript (report.write path)).2.run later (Report.load path)).1.1 =
          .ok other ↔ report.Fits ∧ other = report)) ∧
    (∀ event : Event, Event.read (Input.ofString event.toJson.compact) = .ok event) ∧
    (∀ function : FunctionInsight,
      Event.readHistory (Input.ofString function.historyJson) = .ok function.events) ∧
    ∀ (operations : List Store.Operation) (eventLog generatedAt : String),
      let store := Store.after operations
      let report := store.toReport eventLog generatedAt
      report.files = store.files ∧
      report.functionCount = (store.files.map fun file => file.functions.length).sum ∧
      report.deoptimizedCount = (store.files.flatMap FileInsight.functions).countP fun function =>
        function.events.any Event.isDeoptimize := by
  refine ⟨?_, ?_, Event.read_compact, Event.readHistory_historyJson, ?_⟩
  · intro report other stream hbytes hwhole
    exact ofStream_iff hbytes hwhole
  · intro report other path tree transcript later hwrite
    exact load_of_write_iff hwrite later
  · intro operations eventLog generatedAt
    exact ⟨rfl, (Store.consistent_after operations).count_eq,
      Store.deoptimizedCount_after operations⟩

/-- A report with quotes, control characters and the largest numbers, read from a stream in two
pieces and from a file in a new directory. -/
theorem Report.round_trip_of_odd_texts :
    let report : Report := {
      version := "1.0.0"
      eventLog := "C:\\logs\\\"v8\".log"
      functionCount := 1
      deoptimizedCount := 1
      files := [⟨"/a\x01\n.js", [{
        name := "gräße\t😀"
        declaration := ⟨4294967295, 0, 7⟩
        events := [⟨0, .parse ⟨"0x1", 0⟩⟩, ⟨1, .compileStart⟩,
          ⟨18446744073709551615, .compileEnd ⟨"0xA", 18446744073709551615⟩⟩,
          ⟨2, .deoptimize "wrong \"map\"" ""⟩]
        isCompiled := false
        wasDeoptimized := true
        compileTime := some 18446744073709551614 }]⟩]
      generatedAt := "" }
    let bytes := Utf8.bytesOf report.text.toList
    let tree := Workspace.ofLocation ["home"]
    let written := tree.run .blank (report.write "out/report.json")
    Report.ofStream [.data (bytes.take 40), .interrupted, .data (bytes.drop 40)] = .ok report ∧
      written.1.1 = .ok () ∧
      (written.2.run .blank (Report.load "out/report.json")).1.1 = .ok report := by
  intro report bytes tree written
  have hfits : report.Fits ∧ report = report := ⟨⟨by decide, by decide⟩, rfl⟩
  have hbytes : Stream.bytes [.data (bytes.take 40), .interrupted, .data (bytes.drop 40)] =
      Utf8.bytesOf report.text.toList := by
    rw [Stream.bytes, Stream.bytes, Stream.bytes, Stream.bytes, List.append_nil,
      List.take_append_drop]
  have hwritten : written.1.1 = .ok () := by rfl
  exact ⟨(Report.round_trip.1 report report _ hbytes rfl).mpr hfits, hwritten,
    (Report.round_trip.2.1 report report _ tree .blank .blank hwritten).mpr hfits⟩

end JitTrace
