import JitTrace.Proofs.Stream.Lines
import Mathlib.Logic.Relation

/-! # The buffer of a reader

A reader searches its buffer, hands lines out of it, forgets what it handed out, and puts what it
reads behind the rest. Each of these moves the offsets in its own way. Here they are the steps of a
reader that keeps an account of the bytes that came in and of the lines that went out. Every step
keeps the offsets in order and inside the buffer, and keeps the account: what came in is what went
out, and behind it what the buffer still holds. A call is a sequence of such steps, so this is so at
every moment between two calls and within one.
-/

namespace JitTrace

/-- Nothing comes behind the end of a stream. -/
theorem Stream.eq_nil_of_read_eq_ended {size : Nat} {stream rest : Stream}
    (hread : stream.read size = (.ended, rest)) : rest = [] := by
  fun_induction read size stream with
  | case1 => exact (congrArg Prod.snd hread).symm
  | case2 pieces ih | case4 pieces ih => exact ih hread
  | case3 | case5 | case6 => cases hread

namespace LineReader

/-- A reader with an account of what it has done. -/
structure Progress where
  reader : LineReader
  /-- The bytes that reads have delivered. -/
  received : List UInt8
  /-- The bytes of the lines that were handed out, without their newlines. -/
  handed : List (List UInt8)
  /-- The failure that was handed out when a read failed. -/
  failure : Option IoFault
  /-- A read has found the end of the stream. -/
  ended : Bool
  deriving DecidableEq, Repr

namespace Progress

/-- A reader that has done nothing. -/
def start (chunk : Nat) (source : Stream) : Progress where
  reader := ofStream chunk source
  received := []
  handed := []
  failure := none
  ended := false

/-- What was handed out: lines, each as text or as the fault in its place, and then a failure. -/
def answers (progress : Progress) : List LineItem :=
  progress.handed.map (fun line => lineOfBytes line.toArray) ++
    progress.failure.toList.map Except.error

end Progress

/-- What a reader does next. The stream is read only when the buffer was searched to its end, and
not any more when the reader is finished. -/
inductive Step (before : Progress) : Progress → Prop where
  /-- The search finds a newline, and the line in front of it is handed out. -/
  | handOut {index : Nat}
      (hfound : findNewline before.reader.buffer before.reader.scanned = some index) :
      Step before { before with
        reader := before.reader.takeLine.2
        handed := before.handed ++
          [(before.reader.buffer.extract before.reader.start index).toList] }
  /-- The search finds no newline. -/
  | search (hnone : findNewline before.reader.buffer before.reader.scanned = none) :
      Step before { before with reader := before.reader.takeLine.2 }
  /-- The bytes that are handed out go. -/
  | compact (hsearched : before.reader.scanned = before.reader.buffer.size) :
      Step before { before with reader := before.reader.compact }
  | receive {bytes : List UInt8} {source : Stream}
      (hsearched : before.reader.scanned = before.reader.buffer.size)
      (hopen : before.reader.finished = false)
      (hread : before.reader.source.read (max before.reader.chunk 1) = (.data bytes, source)) :
      Step before { before with
        reader := { before.reader with
          buffer := before.reader.buffer ++ bytes.toArray, source := source }
        received := before.received ++ bytes }
  | finish {source : Stream}
      (hsearched : before.reader.scanned = before.reader.buffer.size)
      (hopen : before.reader.finished = false)
      (hread : before.reader.source.read (max before.reader.chunk 1) = (.ended, source)) :
      Step before { before with
        reader := { before.reader.close with source := source }
        ended := true }
  | fail {fault : IoFault} {source : Stream}
      (hsearched : before.reader.scanned = before.reader.buffer.size)
      (hopen : before.reader.finished = false)
      (hread : before.reader.source.read (max before.reader.chunk 1) = (.failed fault, source)) :
      Step before { before with
        reader := { before.reader with source := source, finished := true }
        failure := some fault }

/-- The states that a reader of a stream comes to, between calls and within them. -/
def Reaches (chunk : Nat) (source : Stream) : Progress → Prop :=
  Relation.ReflTransGen Step (.start chunk source)

/-! ## The account -/

/-- The account of a reader is right: its offsets are sound, what came in is what went out with what
the buffer still holds, and what came in together with what the stream still delivers is all that
the stream delivers. -/
structure Accounts (source : Stream) (progress : Progress) : Prop where
  sound : progress.reader.Sound
  balance : progress.ended = false →
    progress.received = progress.handed.flatMap (· ++ [newline]) ++ progress.reader.unread
  lines : ∀ line ∈ progress.handed, newline ∉ line
  whole : progress.failure = none →
    source.bytes = progress.received ++ progress.reader.source.bytes ∧
      source.failure? = progress.reader.source.failure?
  failed : ∀ fault, progress.failure = some fault →
    source.bytes = progress.received ∧ source.failure? = some fault
  going : progress.reader.finished = false → progress.failure = none

theorem accounts_start (chunk : Nat) (source : Stream) :
    Accounts source (.start chunk source) where
  sound := sound_ofStream chunk source
  balance := fun _ => rfl
  lines := List.forall_mem_nil _
  whole := fun _ => ⟨rfl, rfl⟩
  failed := fun _ hfault => by cases hfault
  going := fun _ => rfl

/-- The line in front of a newline that is found is handed out, and the search goes on behind it. -/
theorem step_of_findNewline {before : Progress} {found : Nat}
    (hsome : findNewline before.reader.buffer before.reader.scanned = some found) :
    Step before { before with
      reader := { before.reader with start := found + 1, scanned := found + 1 }
      handed := before.handed ++
        [(before.reader.buffer.extract before.reader.start found).toList] } := by
  have hstep := Step.handOut hsome
  rwa [takeLine_of_findNewline hsome] at hstep

/-- A search that finds nothing is a step, and leaves a buffer that is searched to its end. -/
theorem step_of_takeLine_eq_none {before : Progress} {rest : LineReader}
    (htaken : before.reader.takeLine = (none, rest)) :
    Step before { before with reader := rest } ∧ rest.scanned = rest.buffer.size := by
  obtain ⟨hnone, rfl⟩ := of_takeLine_eq_none htaken
  have hsearch := Step.search hnone
  rw [htaken] at hsearch
  exact ⟨hsearch, rfl⟩

/-- A search that finds nothing is followed by the bytes that are handed out going. -/
theorem steps_compact {before : Progress} {rest : LineReader}
    (htaken : before.reader.takeLine = (none, rest)) :
    Relation.ReflTransGen Step before { before with reader := rest.compact } ∧
      rest.compact.scanned = rest.compact.buffer.size := by
  obtain ⟨hsearch, hscanned⟩ := step_of_takeLine_eq_none htaken
  exact ⟨(Relation.ReflTransGen.single hsearch).tail (.compact hscanned), scanned_compact hscanned⟩

section Steps

variable {source : Stream} {before : Progress}

theorem Accounts.handOut (haccounts : Accounts source before) {found : Nat}
    (hsome : findNewline before.reader.buffer before.reader.scanned = some found) :
    Accounts source { before with
      reader := before.reader.takeLine.2
      handed := before.handed ++
        [(before.reader.buffer.extract before.reader.start found).toList] } := by
  obtain ⟨hline, hunread⟩ := haccounts.sound.unread_eq_of_findNewline hsome
  rw [takeLine_of_findNewline hsome]
  refine { haccounts with sound := haccounts.sound.behind hsome, balance := ?_, lines := ?_ }
  · intro hgo
    rw [haccounts.balance hgo, hunread, List.flatMap_append, List.flatMap_singleton]
    simp only [List.append_assoc, List.singleton_append]
    rfl
  · simpa only [List.forall_mem_append, List.forall_mem_singleton] using ⟨haccounts.lines, hline⟩

theorem Accounts.search (haccounts : Accounts source before)
    (hnone : findNewline before.reader.buffer before.reader.scanned = none) :
    Accounts source { before with reader := before.reader.takeLine.2 } := by
  have htaken := takeLine_of_findNewline_eq_none hnone
  obtain ⟨hsound, -⟩ := (haccounts.sound.takes htaken).of_none
  rw [htaken]
  exact { haccounts with sound := hsound }

theorem Accounts.compact (haccounts : Accounts source before)
    (hsearched : before.reader.scanned = before.reader.buffer.size) :
    Accounts source { before with reader := before.reader.compact } where
  sound := haccounts.sound.compact hsearched
  balance := fun hgo => by rw [unread_compact, haccounts.balance hgo]
  lines := haccounts.lines
  whole := haccounts.whole
  failed := haccounts.failed
  going := haccounts.going

/-- The bytes that a read delivers move from the stream to the account. -/
theorem Accounts.receive (haccounts : Accounts source before) {bytes : List UInt8} {rest : Stream}
    (hopen : before.reader.finished = false)
    (hread : before.reader.source.read (max before.reader.chunk 1) = (.data bytes, rest)) :
    Accounts source { before with
      reader := { before.reader with
        buffer := before.reader.buffer ++ bytes.toArray, source := rest }
      received := before.received ++ bytes } where
  sound := haccounts.sound.receive hopen bytes rest
  balance := by
    intro hgo
    have hstart := Nat.le_trans haccounts.sound.start_le haccounts.sound.scanned_le
    rw [unread_receive hstart, ← List.append_assoc, ← haccounts.balance hgo]
  lines := haccounts.lines
  whole := by
    intro hnone
    obtain ⟨hbytes, hfailure⟩ := Stream.delivers_of_read hread
    rw [List.append_assoc, ← hbytes, ← hfailure]
    exact haccounts.whole hnone
  failed := by
    intro fault hfault
    cases (haccounts.going hopen).symm.trans hfault
  going := haccounts.going

/-- When no more bytes come, all of them have come in. -/
theorem Accounts.received_eq (haccounts : Accounts source before)
    (hopen : before.reader.finished = false) {failure : Option IoFault}
    (hrest : before.reader.source.bytes = [] ∧ before.reader.source.failure? = failure) :
    source.bytes = before.received ∧ source.failure? = failure := by
  have hwhole := haccounts.whole (haccounts.going hopen)
  rwa [hrest.1, hrest.2, List.append_nil] at hwhole

theorem Accounts.finish (haccounts : Accounts source before) {rest : Stream}
    (hopen : before.reader.finished = false)
    (hread : before.reader.source.read (max before.reader.chunk 1) = (.ended, rest)) :
    Accounts source { before with
      reader := { before.reader.close with source := rest }
      ended := true } where
  sound := sound_close before.reader rest
  balance := fun hgo => by cases hgo
  lines := haccounts.lines
  whole := by
    obtain rfl := Stream.eq_nil_of_read_eq_ended hread
    obtain ⟨hreceived, hfailure⟩ := haccounts.received_eq hopen (Stream.delivers_of_read hread)
    exact fun _ => ⟨hreceived.trans (List.append_nil _).symm, hfailure⟩
  failed := by
    intro fault hfault
    cases (haccounts.going hopen).symm.trans hfault
  going := fun hfinished => by cases hfinished

theorem Accounts.fail (haccounts : Accounts source before) {fault : IoFault} {rest : Stream}
    (hsearched : before.reader.scanned = before.reader.buffer.size)
    (hopen : before.reader.finished = false)
    (hread : before.reader.source.read (max before.reader.chunk 1) = (.failed fault, rest)) :
    Accounts source { before with
      reader := { before.reader with source := rest, finished := true }
      failure := some fault } where
  sound := haccounts.sound.fail hsearched rest
  balance := haccounts.balance
  lines := haccounts.lines
  whole := fun hnone => by cases hnone
  failed := by
    intro other hother
    obtain rfl := Option.some.inj hother
    exact haccounts.received_eq hopen (Stream.delivers_of_read hread)
  going := fun hfinished => by cases hfinished

theorem Accounts.step {after : Progress} (haccounts : Accounts source before)
    (hstep : Step before after) : Accounts source after := by
  cases hstep with
  | handOut hfound => exact haccounts.handOut hfound
  | search hnone => exact haccounts.search hnone
  | compact hsearched => exact haccounts.compact hsearched
  | receive _ hopen hread => exact haccounts.receive hopen hread
  | finish _ hopen hread => exact haccounts.finish hopen hread
  | fail hsearched hopen hread => exact haccounts.fail hsearched hopen hread

end Steps

theorem Accounts.steps {source : Stream} {before after : Progress}
    (haccounts : Accounts source before) (hsteps : Relation.ReflTransGen Step before after) :
    Accounts source after := by
  induction hsteps with
  | refl => exact haccounts
  | tail _ hstep ih => exact ih.step hstep

theorem accounts_of_reaches {chunk : Nat} {source : Stream} {progress : Progress}
    (hreaches : Reaches chunk source progress) : Accounts source progress :=
  (accounts_start chunk source).steps hreaches

/-! ## Searching from where the last search stopped -/

theorem findNewline_succ {buffer : Array UInt8} {index : Nat}
    (hother : buffer[index]? ≠ some newline) (hinside : index < buffer.size) :
    findNewline buffer index = findNewline buffer (index + 1) := by
  rw [findNewline, dif_pos hinside, if_neg]
  rwa [Array.getElem?_eq_getElem hinside, ne_eq, Option.some.injEq] at hother

/-- Bytes that are no newline may be left out of a search. -/
theorem findNewline_eq_of_le {buffer : Array UInt8} {first index : Nat} (hle : first ≤ index)
    (hinside : index ≤ buffer.size)
    (hother : ∀ position, first ≤ position → position < index →
      buffer[position]? ≠ some newline) :
    findNewline buffer first = findNewline buffer index := by
  induction hle with
  | refl => rfl
  | @step index hle ih =>
      rw [ih (Nat.le_of_succ_le hinside)
        fun position hfirst hlt => hother position hfirst (Nat.lt_succ_of_lt hlt)]
      exact findNewline_succ (hother index hle (Nat.lt_succ_self index)) hinside

theorem Sound.findNewline_start {reader : LineReader} (hreader : reader.Sound) :
    findNewline reader.buffer reader.start = findNewline reader.buffer reader.scanned :=
  findNewline_eq_of_le hreader.start_le hreader.scanned_le hreader.searched

theorem Sound.newline_notMem_extract {reader : LineReader} (hreader : reader.Sound) :
    newline ∉ reader.buffer.extract reader.start reader.scanned := by
  intro hmem
  obtain ⟨index, hindex⟩ := Array.mem_iff_getElem?.mp hmem
  rw [Array.getElem?_extract] at hindex
  split at hindex
  next hlt =>
    have hscanned := hreader.scanned_le
    exact hreader.searched _ (Nat.le_add_right _ _) (by omega) hindex
  next => cases hindex

theorem toList_extract_start (reader : LineReader) :
    (reader.buffer.extract reader.start reader.buffer.size).toList = reader.unread :=
  toList_buffer_compact reader

/-! ## Calls -/

theorem Progress.answers_handOut {progress : Progress} (hnone : progress.failure = none)
    (reader : LineReader) (line : List UInt8) :
    Progress.answers { progress with reader := reader, handed := progress.handed ++ [line] } =
      progress.answers ++ [lineOfBytes line.toArray] := by
  simp [answers, hnone]

theorem Progress.answers_fail {progress : Progress} (hnone : progress.failure = none)
    (reader : LineReader) (fault : IoFault) :
    Progress.answers { progress with reader := reader, failure := some fault } =
      progress.answers ++ [.error fault] := by
  simp [answers, hnone]

/-- A call is a sequence of steps, and hands out what these hand out. -/
theorem Accounts.exists_steps_next {source : Stream} {before : Progress}
    (haccounts : Accounts source before) :
    ∃ after, Relation.ReflTransGen Step before after ∧ after.reader = before.reader.next.2 ∧
      after.answers = before.answers ++ before.reader.next.1.toList := by
  generalize hreader : before.reader = reader
  fun_induction LineReader.next reader generalizing before with
  | case1 reader item rest htaken =>
      subst hreader
      obtain ⟨found, hsome, rfl, rfl⟩ := exists_of_takeLine_eq_some htaken
      have hnone := haccounts.going (haccounts.sound.finished_eq_false hsome)
      exact ⟨_, .single (step_of_findNewline hsome), rfl, Progress.answers_handOut hnone _ _⟩
  | case2 reader rest htaken _ =>
      subst hreader
      obtain ⟨hsearch, -⟩ := step_of_takeLine_eq_none htaken
      exact ⟨_, .single hsearch, rfl, (List.append_nil _).symm⟩
  | case3 reader rest htaken hopen bytes source harrived _ ih =>
      subst hreader
      obtain ⟨hcompacted, hscanned⟩ := steps_compact htaken
      have hopen : rest.finished = false := by simpa using hopen
      have hsteps := hcompacted.tail (.receive hscanned hopen harrived)
      obtain ⟨after, hrest, hafter, hanswers⟩ := ih (haccounts.steps hsteps) rfl
      exact ⟨after, hsteps.trans hrest, hafter, hanswers⟩
  | case4 reader rest htaken hopen source harrived =>
      subst hreader
      obtain ⟨hcompacted, hscanned⟩ := steps_compact htaken
      have hopen : rest.finished = false := by simpa using hopen
      have hsteps := hcompacted.tail (.finish hscanned hopen harrived)
      exact ⟨_, hsteps, rfl, (List.append_nil _).symm⟩
  | case5 reader rest htaken hopen fault source harrived =>
      subst hreader
      obtain ⟨hcompacted, hscanned⟩ := steps_compact htaken
      have hopen : rest.finished = false := by simpa using hopen
      have hnone := (haccounts.steps hcompacted).going hopen
      have hsteps := hcompacted.tail (.fail hscanned hopen harrived)
      exact ⟨_, hsteps, rfl, Progress.answers_fail hnone _ fault⟩

/-- The first of some calls comes in front of the others. -/
theorem filterMap_answer_range_succ (reader : LineReader) (calls : Nat) :
    (List.range (calls + 1)).filterMap reader.answer =
      reader.next.1.toList ++ (List.range calls).filterMap reader.next.2.answer := by
  have hfirst : reader.answer 0 = reader.next.1 := rfl
  have hothers : reader.answer ∘ Nat.succ = reader.next.2.answer := rfl
  rw [List.range_succ_eq_map, List.filterMap_cons, List.filterMap_map, hfirst, hothers]
  cases reader.next.1 <;> rfl

/-- Calls one after another are a sequence of steps, and hand out what these hand out. -/
theorem Accounts.exists_steps_after {source : Stream} {before : Progress}
    (haccounts : Accounts source before) (calls : Nat) :
    ∃ after, Relation.ReflTransGen Step before after ∧
      after.reader = before.reader.after calls ∧
      after.answers = before.answers ++ (List.range calls).filterMap before.reader.answer := by
  induction calls generalizing before with
  | zero => exact ⟨before, .refl, rfl, (List.append_nil _).symm⟩
  | succ calls ih =>
      obtain ⟨middle, hfirst, hmiddle, hanswer⟩ := haccounts.exists_steps_next
      obtain ⟨after, hothers, hafter, hanswers⟩ := ih (haccounts.steps hfirst)
      rw [hmiddle] at hafter hanswers
      refine ⟨after, hfirst.trans hothers, hafter, ?_⟩
      rw [hanswers, hanswer, List.append_assoc, filterMap_answer_range_succ]

/-- A reader passes only through states of its steps. In each of them the offsets are in order and
inside the buffer, the searched part holds no newline, so that the search misses none, and what came
in is what was handed out, with its newlines, and behind it what the buffer still holds, unless the
end of the stream was found. -/
theorem states_account_for_bytes (chunk : Nat) (source : Stream) :
    (∀ calls, ∃ progress, Reaches chunk source progress ∧
      progress.reader = (ofStream chunk source).after calls ∧
      progress.answers = (List.range calls).filterMap (ofStream chunk source).answer) ∧
    ∀ progress, Reaches chunk source progress →
      let reader := progress.reader
      reader.start ≤ reader.scanned ∧ reader.scanned ≤ reader.buffer.size ∧
      newline ∉ reader.buffer.extract reader.start reader.scanned ∧
      findNewline reader.buffer reader.scanned = findNewline reader.buffer reader.start ∧
      (∀ index, findNewline reader.buffer reader.scanned = some index →
        reader.start ≤ index ∧ index < reader.buffer.size) ∧
      (progress.ended = false →
        progress.received = progress.handed.flatMap (· ++ [newline]) ++
          (reader.buffer.extract reader.start reader.buffer.size).toList) ∧
      (∀ line ∈ progress.handed, newline ∉ line) ∧
      (progress.failure = none → source.bytes = progress.received ++ reader.source.bytes) ∧
      ∀ fault, progress.failure = some fault →
        source.bytes = progress.received ∧ source.failure? = some fault := by
  refine ⟨?_, ?_⟩
  · intro calls
    obtain ⟨progress, hsteps, hreader, hanswers⟩ :=
      (accounts_start chunk source).exists_steps_after calls
    exact ⟨progress, hsteps, hreader, hanswers⟩
  · intro progress hreaches
    obtain ⟨hsound, hbalance, hlines, hwhole, hfailed, -⟩ := accounts_of_reaches hreaches
    refine ⟨hsound.start_le, hsound.scanned_le, hsound.newline_notMem_extract,
      hsound.findNewline_start.symm, ?_, ?_, hlines, fun hnone => (hwhole hnone).1, hfailed⟩
    · intro index hfound
      obtain ⟨hge, hlt⟩ := lt_size_of_findNewline hfound
      exact ⟨Nat.le_trans hsound.start_le hge, hlt⟩
    · rw [toList_extract_start]
      exact hbalance

/-- A reader that has handed out one line of three bytes, and holds the last of them. -/
theorem states_account_for_bytes_behind_line :
    let progress : Progress :=
      { reader := { source := [], chunk := 8, buffer := #[97, 10, 98], start := 2, scanned := 2,
                    finished := false }
        received := [97, 10, 98]
        handed := [[97]]
        failure := none
        ended := false }
    Reaches 8 [.data [97, 10, 98]] progress ∧ progress.reader.start ≤ progress.reader.scanned ∧
      progress.received = progress.handed.flatMap (· ++ [newline]) ++
        (progress.reader.buffer.extract progress.reader.start
          progress.reader.buffer.size).toList := by
  intro progress
  have hreaches : Reaches 8 [.data [97, 10, 98]] progress := by
    have hempty : findNewline #[] 0 = none := by simp [findNewline]
    have hfound : findNewline #[97, 10, 98] 0 = some 1 := by simp [findNewline, newline]
    have hsearched := @takeLine_of_findNewline_eq_none (ofStream 8 [.data [97, 10, 98]]) hempty
    obtain ⟨hcompacted, hscanned⟩ := @steps_compact (.start 8 [.data [97, 10, 98]]) _ hsearched
    have hreceived := hcompacted.tail (.receive hscanned rfl rfl)
    exact hreceived.tail (step_of_findNewline hfound)
  obtain ⟨hordered, -, -, -, -, hbalance, -⟩ :=
    (states_account_for_bytes 8 [.data [97, 10, 98]]).2 progress hreaches
  exact ⟨hreaches, hordered, hbalance rfl⟩

end LineReader

end JitTrace
