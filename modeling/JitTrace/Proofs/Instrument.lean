import JitTrace.Instrument
import JitTrace.Proofs.Location
import JitTrace.Proofs.Session
import JitTrace.Proofs.Text.Words

/-! # The words of an instrumented command

The words of a command stay as they are, in their order, and those of the flags come in front of the
last one. A flag is one word if its path has no blanks. With a path that has some, the flag is torn:
the program is told to log to the front of the path, and the rest of the path stands where the
script is expected.
-/

namespace JitTrace.Config

/-- A command is accepted if it has a script, which its flags are put in front of. -/
theorem instrumentWords_eq_ok {config : Config} {words enriched : List String}
    (haccepted : config.instrumentWords words = .ok enriched) :
    ∃ front script, words = front ++ [script] ∧
      enriched = front ++ config.instrumentation ++ [script] := by
  cases words with
  | nil => cases haccepted
  | cons program rest =>
      rw [instrumentWords] at haccepted
      split at haccepted
      next => cases haccepted
      next =>
        split at haccepted
        next => cases haccepted
        next script hscript =>
          obtain ⟨arguments, rfl⟩ := List.getLast?_eq_some_iff.mp hscript
          cases haccepted
          refine ⟨program :: arguments, script, rfl, ?_⟩
          simp

/-- The words of the command and those of the flags are the words of the instrumented command. -/
theorem words_of_instrument {config : Config} {command enriched : String}
    (haccepted : config.instrument command = .ok enriched) :
    ∃ front script, Text.words command = front ++ [script] ∧
      Text.words enriched = front ++ config.instrumentation.flatMap Text.words ++ [script] := by
  cases hwords : config.instrumentWords (Text.words command) with
  | error fault =>
      rw [instrument, hwords] at haccepted
      cases haccepted
  | ok words =>
      rw [instrument, hwords] at haccepted
      cases haccepted
      obtain ⟨front, script, hcommand, rfl⟩ := instrumentWords_eq_ok hwords
      refine ⟨front, script, hcommand, ?_⟩
      have hkept : ∀ word ∈ front ++ [script], Text.words word = [word] := by
        rw [← hcommand]
        exact fun word hword => Text.words_of_mem_words hword
      obtain ⟨hfront, hscript⟩ := List.forall_mem_append.mp hkept
      rw [Text.words_intercalate, List.flatMap_append, List.flatMap_append,
        Text.flatMap_words_eq_self hfront, Text.flatMap_words_eq_self hscript]

/-- A path behind the start of a flag makes one word with it if it has no blanks. -/
theorem words_flag_eq_singleton_iff {start : String} (hstart : Text.words start = [start])
    (path : String) :
    Text.words (start ++ path) = [start ++ path] ↔
      ∀ char ∈ path.toList, Text.isBlank char = false := by
  obtain ⟨hsome, hsolid⟩ := Text.words_eq_singleton_iff.mp hstart
  rw [Text.words_eq_singleton_iff, String.toList_append, List.forall_mem_append]
  constructor
  · rintro ⟨-, -, hpath⟩
    exact hpath
  · intro hpath
    exact ⟨by simp [hsome], hsolid, hpath⟩

theorem instrumentation_eq (config : Config) :
    config.instrumentation =
      ["--no-logfile-per-isolate", "--allow-natives-syntax", "--trace-ic", "--print-opt-code",
        "--redirect-code-traces"] ++
      ["--redirect-code-traces-to=" ++ config.optCodeLogPath,
        "--logfile=" ++ config.eventLogPath] := rfl

/-- The flags are whole words exactly if there are no blanks in the paths of the logs. -/
theorem whole_flags_iff (config : Config) :
    (∀ flag ∈ config.instrumentation, Text.words flag = [flag]) ↔
      (∀ char ∈ config.optCodeLogPath.toList, Text.isBlank char = false) ∧
        ∀ char ∈ config.eventLogPath.toList, Text.isBlank char = false := by
  have hfixed : ∀ flag ∈ ["--no-logfile-per-isolate", "--allow-natives-syntax", "--trace-ic",
      "--print-opt-code", "--redirect-code-traces"], Text.words flag = [flag] := by decide
  rw [instrumentation_eq, List.forall_mem_append, and_iff_right hfixed, List.forall_mem_cons,
    List.forall_mem_singleton, words_flag_eq_singleton_iff (by decide),
    words_flag_eq_singleton_iff (by decide)]

/-- One flag gives the path of each log. -/
theorem paths_in_instrumentation (config : Config) :
    config.instrumentation.filterMap (Text.afterStart? "--redirect-code-traces-to=") =
        [config.optCodeLogPath] ∧
      config.instrumentation.filterMap (Text.afterStart? "--logfile=") =
        [config.eventLogPath] := by
  rw [instrumentation_eq]
  constructor
  · simp [Text.afterStart?, List.isPrefixOf?]
  · simp [Text.afterStart?, List.isPrefixOf?]

/-- An instrumented command has the words of the command, in order, with those of the seven flags in
front of the last one. Two flags give the paths of the logs, which are the paths that a session with
the same configuration opens, in any file system. Each flag is one word exactly if there are no
blanks in these paths. -/
theorem words_of_instrumented {config : Config} {command enriched : String}
    (haccepted : config.instrument command = .ok enriched) :
    (∃ front script, Text.words command = front ++ [script] ∧
      Text.words enriched = front ++ config.instrumentation.flatMap Text.words ++ [script] ∧
      (Text.words enriched = front ++ config.instrumentation ++ [script] ↔
        (∀ char ∈ config.optCodeLogPath.toList, Text.isBlank char = false) ∧
          ∀ char ∈ config.eventLogPath.toList, Text.isBlank char = false)) ∧
    config.instrumentation.length = 7 ∧
    config.instrumentation.filterMap (Text.afterStart? "--redirect-code-traces-to=") =
      [config.optCodeLogPath] ∧
    config.instrumentation.filterMap (Text.afterStart? "--logfile=") = [config.eventLogPath] ∧
    ∀ (W σ : Type) [FileSystem (StateM W)] (world : W) (transcript : Transcript)
      (session : Session σ) (address : String), session.config = config →
      let answerOf := fun {α : Type} (operation : Recorded (StateM W) (Answer σ α)) =>
        ((operation.run transcript).run world).1.1
      answerOf session.analyze =
        session.analyzeOpened (Session.foundIn world config.eventLogPath) ∧
      answerOf (session.optimizedCode address) =
        session.codeInOpened (Session.foundIn world config.optCodeLogPath) address := by
  refine ⟨?_, rfl, (paths_in_instrumentation config).1, (paths_in_instrumentation config).2, ?_⟩
  · obtain ⟨front, script, hcommand, henriched⟩ := words_of_instrument haccepted
    refine ⟨front, script, hcommand, henriched, ?_⟩
    rw [← whole_flags_iff]
    constructor
    · intro hwhole flag hflag
      have hmem : flag ∈ Text.words enriched := by
        rw [hwhole]
        exact List.mem_append_left _ (List.mem_append_right _ hflag)
      exact Text.words_of_mem_words hmem
    · intro hwhole
      rw [henriched, Text.flatMap_words_eq_self hwhole]
  · rintro W σ _ world transcript session address rfl
    obtain ⟨hanalyze, hcode, -⟩ := session.answers_in_world address transcript world
    exact ⟨hanalyze, hcode⟩

/-- In the standard folder, each flag is one word. -/
theorem words_of_instrumented_standard :
    ∃ enriched, standard.instrument "node\t--stack-size=2000  app.js\n" = .ok enriched ∧
      Text.words enriched =
        ["node", "--stack-size=2000", "--no-logfile-per-isolate", "--allow-natives-syntax",
          "--trace-ic", "--print-opt-code", "--redirect-code-traces",
          "--redirect-code-traces-to=.v8-insights/opt-code", "--logfile=.v8-insights/log",
          "app.js"] := by
  have haccepted : standard.instrument "node\t--stack-size=2000  app.js\n" =
      .ok (" ".intercalate
        (["node", "--stack-size=2000"] ++ standard.instrumentation ++ ["app.js"])) := by
    decide +kernel
  obtain ⟨⟨front, script, hcommand, -, hwhole⟩, -⟩ := words_of_instrumented haccepted
  have hwords : Text.words "node\t--stack-size=2000  app.js\n" =
      ["node", "--stack-size=2000"] ++ ["app.js"] := by decide
  obtain ⟨rfl, hscript⟩ := List.append_inj' (hwords.symm.trans hcommand) rfl
  obtain rfl := List.singleton_inj.mp hscript
  exact ⟨_, haccepted, hwhole.mpr ((whole_flags_iff standard).mp (by decide))⟩

/-- With a blank in the name of their folder, the flags of the logs are torn, and the rest of a path
stands where the script is expected. -/
theorem instrument_tears_paths :
    let config := standard.withFolder (some "my traces")
    ∃ enriched, config.instrument "node app.js" = .ok enriched ∧
      Text.words enriched =
        ["node", "--no-logfile-per-isolate", "--allow-natives-syntax", "--trace-ic",
          "--print-opt-code", "--redirect-code-traces", "--redirect-code-traces-to=my",
          "traces/opt-code", "--logfile=my", "traces/log", "app.js"] ∧
      ¬ ∃ front script, Text.words "node app.js" = front ++ [script] ∧
        Text.words enriched = front ++ config.instrumentation ++ [script] := by
  intro config
  have haccepted : config.instrument "node app.js" =
      .ok (" ".intercalate (["node"] ++ config.instrumentation ++ ["app.js"])) := by
    decide +kernel
  have hwords : Text.words (" ".intercalate (["node"] ++ config.instrumentation ++ ["app.js"])) =
      ["node", "--no-logfile-per-isolate", "--allow-natives-syntax", "--trace-ic",
        "--print-opt-code", "--redirect-code-traces", "--redirect-code-traces-to=my",
        "traces/opt-code", "--logfile=my", "traces/log", "app.js"] := by
    rw [Text.words_intercalate]
    decide
  refine ⟨_, haccepted, hwords, ?_⟩
  rintro ⟨front, script, -, hwhole⟩
  have hflag : "--logfile=my traces/log" ∈ front ++ config.instrumentation ++ [script] :=
    List.mem_append_left _ (List.mem_append_right _ (by decide))
  rw [← hwhole, hwords] at hflag
  exact absurd hflag (by decide)

end JitTrace.Config
