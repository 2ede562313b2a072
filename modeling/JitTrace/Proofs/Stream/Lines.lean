import JitTrace.Stream.LineReader

/-! # The lines of a stream

What a reader hands out depends on the bytes of its stream and on the failure that ends them, and
not on how the bytes are cut into pieces and chunks. The reader is described by what it has read
and not handed out, and by what its stream still delivers: a call hands out the first item of
these and leaves the others.
-/

namespace JitTrace

/-- The lines of bytes, without the newlines that end them. What follows the last newline is no
line. -/
def completeLines (bytes : List UInt8) : List (List UInt8) :=
  (bytes.splitOn newline).dropLast

/-- Bytes without a newline are no line. -/
theorem completeLines_eq_nil {bytes : List UInt8} (hbytes : newline ∉ bytes) :
    completeLines bytes = [] := by
  rw [completeLines, List.splitOn_eq_singleton hbytes]
  rfl

/-- The bytes in front of the first newline are the first line. -/
theorem completeLines_append {line : List UInt8} (hline : newline ∉ line) (rest : List UInt8) :
    completeLines (line ++ newline :: rest) = line :: completeLines rest := by
  rw [completeLines, List.splitOn_append_cons_self_of_not_mem hline,
    List.dropLast_cons_of_ne_nil (List.splitOn_ne_nil _ _)]
  rfl

theorem newline_notMem_of_mem_splitOn {bytes part : List UInt8}
    (hpart : part ∈ bytes.splitOn newline) : newline ∉ part := by
  induction bytes generalizing part with
  | nil =>
      obtain rfl := List.mem_singleton.mp hpart
      exact List.not_mem_nil
  | cons byte rest ih =>
      rw [List.splitOn_cons_eq_if_modifyHead] at hpart
      split at hpart
      next =>
        rcases List.mem_cons.mp hpart with rfl | hrest
        · exact List.not_mem_nil
        · exact ih hrest
      next hbyte =>
        obtain ⟨head, tail, hsplit⟩ := List.exists_cons_of_ne_nil (List.splitOn_ne_nil newline rest)
        rw [hsplit] at hpart ih
        rcases List.mem_cons.mp hpart with rfl | htail
        · intro hmem
          rcases List.mem_cons.mp hmem with rfl | hhead
          · exact hbyte (beq_self_eq_true newline)
          · exact ih List.mem_cons_self hhead
        · exact ih (List.mem_cons_of_mem head htail)

/-- No line holds a newline. -/
theorem newline_notMem_of_mem_completeLines {bytes line : List UInt8}
    (hline : line ∈ completeLines bytes) : newline ∉ line :=
  newline_notMem_of_mem_splitOn (List.dropLast_subset _ hline)

/-- Bytes that end where a line ends: there are none, or the last one is a newline. -/
def EndsLine (bytes : List UInt8) : Prop :=
  bytes = [] ∨ ∃ front, bytes = front ++ [newline]

/-- Bytes behind the end of a line leave the lines in front as they are. -/
theorem completeLines_append_of_endsLine {bytes : List UInt8} (hbytes : EndsLine bytes)
    (more : List UInt8) :
    completeLines (bytes ++ more) = completeLines bytes ++ completeLines more := by
  rcases hbytes with rfl | ⟨front, rfl⟩
  · rw [List.nil_append, completeLines_eq_nil List.not_mem_nil, List.nil_append]
  · have hfront : completeLines (front ++ [newline]) = front.splitOn newline := by
      rw [completeLines, List.splitOn_append_cons_self, List.splitOn_nil, List.dropLast_concat]
    rw [hfront, completeLines, List.append_assoc, List.singleton_append,
      List.splitOn_append_cons_self, List.dropLast_append_of_ne_nil (List.splitOn_ne_nil _ _)]
    rfl

/-- What is handed out for bytes and the failure behind them: each line as text or as the fault in
its place, and then the failure. -/
def itemsOf (bytes : List UInt8) (failure : Option IoFault) : List LineItem :=
  (completeLines bytes).map (fun line => LineReader.lineOfBytes line.toArray) ++
    failure.toList.map Except.error

theorem itemsOf_line {line : List UInt8} (hline : newline ∉ line) (rest : List UInt8)
    (failure : Option IoFault) :
    itemsOf (line ++ newline :: rest) failure =
      LineReader.lineOfBytes line.toArray :: itemsOf rest failure := by
  rw [itemsOf, completeLines_append hline, List.map_cons, List.cons_append, itemsOf]

/-- Bytes without a newline leave only the failure behind them. -/
theorem itemsOf_tail {bytes : List UInt8} (hbytes : newline ∉ bytes) (failure : Option IoFault) :
    itemsOf bytes failure = failure.toList.map Except.error := by
  rw [itemsOf, completeLines_eq_nil hbytes, List.map_nil, List.nil_append]

namespace Stream

/-- The bytes that reads deliver before the first failure. -/
def bytes : Stream → List UInt8
  | [] => []
  | .data found :: rest => found ++ bytes rest
  | .interrupted :: rest => bytes rest
  | .failure _ :: _ => []

/-- The failure that ends a stream early. -/
def failure? : Stream → Option IoFault
  | [] => none
  | .data _ :: rest => failure? rest
  | .interrupted :: rest => failure? rest
  | .failure fault :: _ => some fault

theorem bytes_append {stream : Stream} (hwhole : stream.failure? = none) (more : Stream) :
    bytes (stream ++ more) = stream.bytes ++ more.bytes := by
  induction stream with
  | nil => rfl
  | cons piece rest ih =>
      cases piece with
      | data found => rw [List.cons_append, bytes, bytes, ih hwhole, List.append_assoc]
      | interrupted => exact ih hwhole
      | failure fault => cases hwhole

theorem failure?_append {stream : Stream} (hwhole : stream.failure? = none) (more : Stream) :
    failure? (stream ++ more) = more.failure? := by
  induction stream with
  | nil => rfl
  | cons piece rest ih =>
      cases piece with
      | data found => exact ih hwhole
      | interrupted => exact ih hwhole
      | failure fault => cases hwhole

/-- What a read finds, in terms of the bytes and the failure of a stream. -/
def Delivers (stream : Stream) : Delivery × Stream → Prop
  | (.data found, rest) => stream.bytes = found ++ rest.bytes ∧ stream.failure? = rest.failure?
  | (.failed fault, _) => stream.bytes = [] ∧ stream.failure? = some fault
  | (.ended, _) => stream.bytes = [] ∧ stream.failure? = none

theorem delivers_of_read {size : Nat} {stream : Stream} {found : Delivery × Stream}
    (hread : stream.read size = found) : stream.Delivers found := by
  subst hread
  fun_induction read size stream with
  | case1 | case3 | case5 => exact ⟨rfl, rfl⟩
  | case2 pieces ih | case4 pieces ih => exact ih
  | case6 byte tail pieces _ =>
      refine ⟨?_, rfl⟩
      simp only [bytes, ← List.append_assoc, List.take_append_drop]

/-- The items of a stream: its lines, and behind them the failure that ends it. -/
def items (stream : Stream) : List LineItem :=
  itemsOf stream.bytes stream.failure?

/-- The items of a stream that ends with a line come in front of those of the stream behind it. -/
theorem items_append {stream : Stream} (hwhole : stream.failure? = none)
    (hends : EndsLine stream.bytes) (more : Stream) :
    items (stream ++ more) = stream.items ++ more.items := by
  rw [items, items, items, bytes_append hwhole, failure?_append hwhole, itemsOf, itemsOf, itemsOf,
    completeLines_append_of_endsLine hends, hwhole]
  simp

end Stream

namespace LineReader

/-! ## Searching the buffer -/

theorem findNewline_eq_none {buffer : Array UInt8} {index : Nat}
    (hnone : findNewline buffer index = none) :
    ∀ position, index ≤ position → buffer[position]? ≠ some newline := by
  fun_induction findNewline buffer index with
  | case1 => cases hnone
  | case2 index hinside hother ih =>
      intro position hposition
      rcases Nat.eq_or_lt_of_le hposition with rfl | hlt
      · rw [Array.getElem?_eq_getElem hinside]
        exact fun hbyte => hother (Option.some.inj hbyte)
      · exact ih hnone position hlt
  | case3 index houtside =>
      intro position hposition
      rw [Array.getElem?_eq_none (by omega)]
      exact fun hbyte => by cases hbyte

theorem findNewline_eq_some {buffer : Array UInt8} {index found : Nat}
    (hsome : findNewline buffer index = some found) :
    buffer[found]? = some newline ∧
      ∀ position, index ≤ position → position < found → buffer[position]? ≠ some newline := by
  fun_induction findNewline buffer index with
  | case1 index hinside hbyte =>
      obtain rfl : index = found := Option.some.inj hsome
      refine ⟨by rw [Array.getElem?_eq_getElem hinside, hbyte], ?_⟩
      intro position hle hlt
      omega
  | case2 index hinside hother ih =>
      obtain ⟨hfound, hbefore⟩ := ih hsome
      refine ⟨hfound, ?_⟩
      intro position hle hlt
      rcases Nat.eq_or_lt_of_le hle with rfl | hnext
      · rw [Array.getElem?_eq_getElem hinside]
        exact fun hbyte => hother (Option.some.inj hbyte)
      · exact hbefore position hnext hlt
  | case3 => cases hsome

/-! ## The state of a reader -/

/-- The bytes that are read and not handed out. -/
def unread (reader : LineReader) : List UInt8 :=
  reader.buffer.toList.drop reader.start

/-- The offsets of a reader are in order and inside the buffer, there is no newline between them,
and a reader that is finished has searched all of its buffer. -/
structure Sound (reader : LineReader) : Prop where
  start_le : reader.start ≤ reader.scanned
  scanned_le : reader.scanned ≤ reader.buffer.size
  searched : ∀ index, reader.start ≤ index → index < reader.scanned →
    reader.buffer[index]? ≠ some newline
  finished_scanned : reader.finished = true → reader.scanned = reader.buffer.size

theorem sound_ofStream (chunk : Nat) (source : Stream) : (ofStream chunk source).Sound where
  start_le := Nat.le_refl 0
  scanned_le := Nat.le_refl 0
  searched := fun _ _ hlt => absurd hlt (Nat.not_lt_zero _)
  finished_scanned := fun hfinished => by cases hfinished

/-- A newline among the unread bytes stands somewhere in the buffer. -/
theorem exists_index_of_mem_unread {reader : LineReader} (hmem : newline ∈ reader.unread) :
    ∃ index, reader.start ≤ index ∧ reader.buffer[index]? = some newline := by
  obtain ⟨index, hindex⟩ := List.mem_iff_getElem?.mp hmem
  rw [unread, List.getElem?_drop] at hindex
  exact ⟨reader.start + index, Nat.le_add_right _ _, by simpa using hindex⟩

/-- What a reader that has searched all of its buffer has not handed out is no line. -/
theorem Sound.newline_notMem_unread {reader : LineReader} (hreader : reader.Sound)
    (hscanned : reader.scanned = reader.buffer.size) : newline ∉ reader.unread := by
  intro hmem
  obtain ⟨index, hle, hindex⟩ := exists_index_of_mem_unread hmem
  have hlt := (Array.getElem?_eq_some_iff.mp hindex).1
  exact hreader.searched index hle (hscanned ▸ hlt) hindex

/-- The items that are still to be handed out. -/
def remaining (reader : LineReader) : List LineItem :=
  if reader.finished then []
  else itemsOf (reader.unread ++ reader.source.bytes) reader.source.failure?

theorem remaining_of_open {reader : LineReader} (hopen : reader.finished = false) :
    reader.remaining = itemsOf (reader.unread ++ reader.source.bytes) reader.source.failure? := by
  rw [remaining, hopen]
  rfl

theorem remaining_ofStream (chunk : Nat) (source : Stream) :
    (ofStream chunk source).remaining = source.items := rfl

/-- What a search of the buffer finds: the first line of the unread bytes, or that there is
none. -/
inductive Takes (reader : LineReader) : Option LineItem × LineReader → Prop where
  | nothing {rest : LineReader} (hsound : rest.Sound) (hscanned : rest.scanned = rest.buffer.size)
      (hunread : rest.unread = reader.unread) (hsource : rest.source = reader.source)
      (hfinished : rest.finished = reader.finished) : Takes reader (none, rest)
  | line {rest : LineReader} {line : List UInt8} (hsound : rest.Sound)
      (hline : newline ∉ line) (hunread : reader.unread = line ++ newline :: rest.unread)
      (hsource : rest.source = reader.source) (hfinished : reader.finished = false)
      (hopen : rest.finished = false) :
      Takes reader (some (lineOfBytes line.toArray), rest)

/-- A newline that is found ends the first line of the unread bytes. -/
theorem Sound.unread_eq_of_findNewline {reader : LineReader} (hreader : reader.Sound) {found : Nat}
    (hsome : findNewline reader.buffer reader.scanned = some found) :
    newline ∉ (reader.buffer.extract reader.start found).toList ∧
      reader.unread = (reader.buffer.extract reader.start found).toList ++
        newline :: reader.buffer.toList.drop (found + 1) := by
  have hstart := hreader.start_le
  obtain ⟨hfound, hbefore⟩ := findNewline_eq_some hsome
  obtain ⟨hge, hinside⟩ := lt_size_of_findNewline hsome
  rw [Array.toList_extract, List.extract_eq_take_drop]
  refine ⟨?_, ?_⟩
  · intro hmem
    obtain ⟨index, hindex⟩ := List.mem_iff_getElem?.mp hmem
    rw [List.getElem?_take] at hindex
    split at hindex
    next hlt =>
      rw [List.getElem?_drop, Array.getElem?_toList] at hindex
      by_cases hsearched : reader.start + index < reader.scanned
      · exact hreader.searched _ (Nat.le_add_right _ _) hsearched hindex
      · exact hbefore _ (by omega) (by omega) hindex
    next => cases hindex
  · have hlength : found < reader.buffer.toList.length := by simpa using hinside
    have hbyte : reader.buffer.toList[found] = newline := by
      rw [Array.getElem?_eq_getElem hinside, Option.some.injEq] at hfound
      simpa using hfound
    have hdrop : (reader.buffer.toList.drop reader.start).drop (found - reader.start) =
        newline :: reader.buffer.toList.drop (found + 1) := by
      rw [List.drop_drop, Nat.add_sub_cancel' (by omega), List.drop_eq_getElem_cons hlength,
        hbyte]
    have hsplit := List.take_append_drop (found - reader.start)
      (reader.buffer.toList.drop reader.start)
    rw [hdrop] at hsplit
    exact hsplit.symm

theorem Sound.finished_eq_false {reader : LineReader} (hreader : reader.Sound) {found : Nat}
    (hsome : findNewline reader.buffer reader.scanned = some found) : reader.finished = false := by
  obtain ⟨hge, hinside⟩ := lt_size_of_findNewline hsome
  cases hfinished : reader.finished with
  | false => rfl
  | true =>
      have hall := hreader.finished_scanned hfinished
      omega

/-- Behind a newline that is found, the search starts afresh. -/
theorem Sound.behind {reader : LineReader} (hreader : reader.Sound) {found : Nat}
    (hsome : findNewline reader.buffer reader.scanned = some found) :
    Sound { reader with start := found + 1, scanned := found + 1 } where
  start_le := Nat.le_refl _
  scanned_le := (lt_size_of_findNewline hsome).2
  searched := fun _ hle hlt => absurd hlt (Nat.not_lt.mpr hle)
  finished_scanned := fun hfinished => by
    rw [hreader.finished_eq_false hsome] at hfinished
    cases hfinished

theorem Sound.takes {reader : LineReader} (hreader : reader.Sound)
    {taken : Option LineItem × LineReader} (htaken : reader.takeLine = taken) :
    reader.Takes taken := by
  subst htaken
  cases hfound : findNewline reader.buffer reader.scanned with
  | none =>
      rw [takeLine_of_findNewline_eq_none hfound]
      have hbehind := findNewline_eq_none hfound
      refine .nothing ⟨?_, Nat.le_refl _, ?_, fun _ => rfl⟩ rfl rfl rfl rfl
      · exact Nat.le_trans hreader.start_le hreader.scanned_le
      · intro index hle hlt
        by_cases hindex : index < reader.scanned
        · exact hreader.searched index hle hindex
        · exact hbehind index (Nat.le_of_not_lt hindex)
  | some found =>
      rw [takeLine_of_findNewline hfound]
      obtain ⟨hline, hunread⟩ := hreader.unread_eq_of_findNewline hfound
      have hopen := hreader.finished_eq_false hfound
      exact .line (hreader.behind hfound) hline hunread rfl hopen hopen

/-! ## Refilling the buffer -/

theorem toList_buffer_compact (reader : LineReader) :
    reader.compact.buffer.toList = reader.unread := by
  rw [compact, Array.toList_extract, List.extract_eq_take_drop, unread]
  exact List.take_of_length_le (by simp)

theorem unread_compact (reader : LineReader) : reader.compact.unread = reader.unread :=
  toList_buffer_compact reader

theorem size_buffer_compact (reader : LineReader) :
    reader.compact.buffer.size = reader.unread.length := by
  rw [← Array.length_toList, toList_buffer_compact]

theorem scanned_compact {reader : LineReader} (hscanned : reader.scanned = reader.buffer.size) :
    reader.compact.scanned = reader.compact.buffer.size := by
  rw [size_buffer_compact, unread, List.length_drop, Array.length_toList, ← hscanned]
  rfl

/-- A buffer that is searched to its end stays so when the bytes that are handed out go. -/
theorem Sound.compact {reader : LineReader} (hreader : reader.Sound)
    (hscanned : reader.scanned = reader.buffer.size) : reader.compact.Sound where
  start_le := Nat.zero_le _
  scanned_le := Nat.le_of_eq (scanned_compact hscanned)
  searched := by
    intro index _ _ hindex
    rw [← Array.getElem?_toList, toList_buffer_compact] at hindex
    exact hreader.newline_notMem_unread hscanned (List.mem_of_getElem? hindex)
  finished_scanned := fun _ => scanned_compact hscanned

/-- Bytes that come behind a buffer are not searched yet. -/
theorem Sound.receive {reader : LineReader} (hreader : reader.Sound)
    (hopen : reader.finished = false) (bytes : List UInt8) (source : Stream) :
    Sound { reader with buffer := reader.buffer ++ bytes.toArray, source := source } where
  start_le := hreader.start_le
  scanned_le := by
    rw [Array.size_append]
    exact Nat.le_add_right_of_le hreader.scanned_le
  searched := by
    intro index hle hlt hindex
    rw [Array.getElem?_append_left (Nat.lt_of_lt_of_le hlt hreader.scanned_le)] at hindex
    exact hreader.searched index hle hlt hindex
  finished_scanned := by
    intro hfinished
    rw [hopen] at hfinished
    cases hfinished

theorem unread_receive {reader : LineReader} (hstart : reader.start ≤ reader.buffer.size)
    (bytes : List UInt8) (source : Stream) :
    unread { reader with buffer := reader.buffer ++ bytes.toArray, source := source } =
      reader.unread ++ bytes := by
  rw [unread, Array.toList_append]
  exact List.drop_append_of_le_length hstart

theorem unread_refill (reader : LineReader) (bytes : List UInt8) (source : Stream) :
    unread { reader.compact with
      buffer := reader.compact.buffer ++ bytes.toArray, source := source } =
        reader.unread ++ bytes := by
  rw [unread_receive (Nat.zero_le _), unread_compact]

/-- A buffer that is searched to its end may be kept when the stream fails. -/
theorem Sound.fail {reader : LineReader} (hreader : reader.Sound)
    (hscanned : reader.scanned = reader.buffer.size) (source : Stream) :
    Sound { reader with source := source, finished := true } :=
  ⟨hreader.start_le, hreader.scanned_le, hreader.searched, fun _ => hscanned⟩

theorem sound_close (reader : LineReader) (source : Stream) :
    Sound { reader.close with source := source } where
  start_le := Nat.le_refl 0
  scanned_le := Nat.le_refl 0
  searched := fun _ _ hlt => absurd hlt (Nat.not_lt_zero _)
  finished_scanned := fun _ => rfl

/-! ## One call -/

/-- A line that is handed out is the first of the remaining items. -/
theorem Takes.remaining_eq_cons {reader rest : LineReader} {item : LineItem}
    (htakes : reader.Takes (some item, rest)) :
    rest.Sound ∧ reader.remaining = item :: rest.remaining := by
  cases htakes with
  | @line _ line hsound hline hunread hsource hfinished hopen =>
      refine ⟨hsound, ?_⟩
      rw [remaining_of_open hfinished, remaining_of_open hopen, hunread, hsource,
        List.append_assoc, List.cons_append, itemsOf_line hline]

/-- A reader that has nothing to hand out has searched all of its buffer, and the items that remain
are the same. -/
theorem Takes.of_none {reader rest : LineReader} (htakes : reader.Takes (none, rest)) :
    rest.Sound ∧ rest.scanned = rest.buffer.size ∧ rest.remaining = reader.remaining := by
  cases htakes with
  | nothing hsound hscanned hunread hsource hfinished =>
      refine ⟨hsound, hscanned, ?_⟩
      rw [remaining, remaining, hunread, hsource, hfinished]

/-- Bytes that are read go from the stream into the buffer, so the remaining items are the same. -/
theorem remaining_refill {reader : LineReader} (hopen : reader.finished = false) {size : Nat}
    {bytes : List UInt8} {source : Stream}
    (hread : reader.source.read size = (.data bytes, source)) :
    remaining { reader.compact with
      buffer := reader.compact.buffer ++ bytes.toArray, source := source } = reader.remaining := by
  obtain ⟨hbytes, hfailure⟩ := Stream.delivers_of_read hread
  rw [remaining_of_open hopen, remaining_of_open, unread_refill, List.append_assoc, ← hbytes,
    ← hfailure]
  exact hopen

/-- When no more bytes come, what is left in a buffer that is searched to its end is no line, and
only the failure of the stream remains. -/
theorem Sound.remaining_tail {reader : LineReader} (hreader : reader.Sound)
    (hscanned : reader.scanned = reader.buffer.size) (hopen : reader.finished = false)
    {failure : Option IoFault}
    (hrest : reader.source.bytes = [] ∧ reader.source.failure? = failure) :
    reader.remaining = failure.toList.map Except.error := by
  rw [remaining_of_open hopen, hrest.1, hrest.2, List.append_nil,
    itemsOf_tail (hreader.newline_notMem_unread hscanned)]

/-- A call hands out the first of the remaining items and leaves the others, and the reader stays
sound. -/
theorem Sound.next {reader : LineReader} (hreader : reader.Sound) :
    reader.next.2.Sound ∧ reader.next.1 = reader.remaining.head? ∧
      reader.next.2.remaining = reader.remaining.tail := by
  fun_induction LineReader.next reader with
  | case1 reader item rest htaken =>
      obtain ⟨hrest, hremaining⟩ := (hreader.takes htaken).remaining_eq_cons
      rw [hremaining]
      exact ⟨hrest, rfl, rfl⟩
  | case2 reader rest htaken hdone =>
      obtain ⟨hrest, -, hremaining⟩ := (hreader.takes htaken).of_none
      have hnone : rest.remaining = [] := if_pos hdone
      rw [← hremaining, hnone]
      exact ⟨hrest, rfl, rfl⟩
  | case3 reader rest htaken hopen bytes source harrived _ ih =>
      have hopen : rest.finished = false := by simpa using hopen
      obtain ⟨hrest, hscanned, hremaining⟩ := (hreader.takes htaken).of_none
      rw [← hremaining, ← remaining_refill hopen harrived]
      exact ih ((hrest.compact hscanned).receive hopen bytes source)
  | case4 reader rest htaken hopen source harrived =>
      have hopen : rest.finished = false := by simpa using hopen
      obtain ⟨hrest, hscanned, hremaining⟩ := (hreader.takes htaken).of_none
      have hdelivers := Stream.delivers_of_read harrived
      rw [← hremaining, hrest.remaining_tail hscanned hopen hdelivers]
      exact ⟨sound_close rest source, rfl, rfl⟩
  | case5 reader rest htaken hopen fault source harrived =>
      have hopen : rest.finished = false := by simpa using hopen
      obtain ⟨hrest, hscanned, hremaining⟩ := (hreader.takes htaken).of_none
      have hdelivers := Stream.delivers_of_read harrived
      rw [← hremaining, hrest.remaining_tail hscanned hopen hdelivers]
      exact ⟨(hrest.compact hscanned).fail (scanned_compact hscanned) source, rfl, rfl⟩

/-! ## All calls -/

/-- The reader after a number of calls. -/
def after (reader : LineReader) : Nat → LineReader
  | 0 => reader
  | calls + 1 => reader.next.2.after calls

/-- What the call behind a number of calls hands out. -/
def answer (reader : LineReader) (calls : Nat) : Option LineItem :=
  (reader.after calls).next.1

/-- Calls hand out the remaining items one after another, and nothing behind them. -/
theorem Sound.answer {reader : LineReader} (hreader : reader.Sound) (calls : Nat) :
    reader.answer calls = reader.remaining[calls]? := by
  induction calls generalizing reader with
  | zero =>
      rw [← List.head?_eq_getElem?]
      exact hreader.next.2.1
  | succ calls ih =>
      obtain ⟨hsound, -, hremaining⟩ := hreader.next
      rw [← List.getElem?_tail, ← hremaining]
      exact ih hsound

theorem Sound.itemsAfter {reader : LineReader} (hreader : reader.Sound)
    (handed : List LineItem) :
    LineReader.itemsAfter handed reader = handed.reverse ++ reader.remaining := by
  fun_induction LineReader.itemsAfter handed reader with
  | case1 handed reader rest hnext =>
      obtain ⟨-, hhead, -⟩ := hreader.next
      rw [hnext] at hhead
      rw [List.head?_eq_none_iff.mp hhead.symm, List.append_nil]
  | case2 handed reader item rest hnext _ ih =>
      obtain ⟨hsound, hhead, htail⟩ := hreader.next
      rw [hnext] at hsound hhead htail
      obtain ⟨others, hremaining⟩ := List.head?_eq_some_iff.mp hhead.symm
      rw [ih hsound, htail, hremaining, List.tail_cons, List.reverse_cons, List.append_assoc,
        List.singleton_append]

end LineReader

/-- The lines read in chunks of any size are the items of the stream. -/
theorem Stream.lines_eq_items (chunk : Nat) (stream : Stream) :
    stream.lines chunk = stream.items := by
  have hitems := (LineReader.sound_ofStream chunk stream).itemsAfter []
  rw [LineReader.remaining_ofStream] at hitems
  exact hitems

/-! ## Bytes and text -/

/-- Whether an item is the right one for the bytes of a line: the text that they encode, or a fault
of the text when they encode none. -/
def ReadsAs (line : List UInt8) : LineItem → Prop
  | .ok text => text.toByteArray.data.toList = line
  | .error (.invalidText _) => ∀ text : String, text.toByteArray.data.toList ≠ line
  | .error _ => False

theorem readsAs_lineOfBytes (line : List UInt8) :
    ReadsAs line (LineReader.lineOfBytes line.toArray) := by
  unfold LineReader.lineOfBytes Utf8.decode String.fromUTF8?
  by_cases hvalid : ByteArray.IsValidUTF8 ⟨line.toArray⟩
  · simp only [hvalid, dif_pos]
    rfl
  · simp only [hvalid, dif_neg, not_false_iff]
    intro text htext
    apply hvalid
    have hbytes : text.toByteArray = ⟨line.toArray⟩ := by
      rw [← htext]
    exact hbytes ▸ text.isValidUTF8

/-- However a stream is cut into pieces, interrupted and read in chunks, calls hand out its lines
in order, each as its text or as a fault in its place, then the failure that ends the stream, and
then nothing any more. Streams of the same bytes and the same failure give the same. -/
theorem answers_are_lines (chunk : Nat) (stream : Stream) :
    let items := (completeLines stream.bytes).map
        (fun line => LineReader.lineOfBytes line.toArray) ++
      stream.failure?.toList.map Except.error
    (∀ calls, (LineReader.ofStream chunk stream).answer calls = items[calls]?) ∧
    stream.lines chunk = items ∧
    (∀ line ∈ completeLines stream.bytes,
      ReadsAs line (LineReader.lineOfBytes line.toArray)) ∧
    ∀ otherChunk (other : Stream), other.bytes = stream.bytes →
      other.failure? = stream.failure? → other.lines otherChunk = stream.lines chunk := by
  intro items
  refine ⟨?_, Stream.lines_eq_items chunk stream, ?_, ?_⟩
  · intro calls
    exact (LineReader.sound_ofStream chunk stream).answer calls
  · intro line _
    exact readsAs_lineOfBytes line
  · intro otherChunk other hbytes hfailure
    rw [Stream.lines_eq_items, Stream.lines_eq_items, Stream.items, Stream.items, hbytes, hfailure]

end JitTrace
