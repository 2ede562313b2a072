import JitTrace.Stream.Basic

/-! # Lines of a stream

Cutting a stream into lines while it is read in chunks. Bytes that are read and not yet handed
out wait in a buffer, and the search for a newline goes on where the last one stopped. A line is
what a newline ends; the bytes behind the last newline of a stream are none.
-/

namespace JitTrace

/-- A stream being cut into lines: the bytes of the buffer in front of `start` are handed out, and
those from `start` to `scanned` are known to hold no newline. -/
structure LineReader where
  source : Stream
  chunk : Nat
  buffer : Array UInt8
  start : Nat
  scanned : Nat
  finished : Bool
  deriving DecidableEq, Repr

/-- A line, or the fault met in its place. -/
abbrev LineItem := Except IoFault String

/-- The byte that ends a line. -/
def newline : UInt8 := 10

namespace LineReader

/-- A reader that has read nothing yet and asks for `chunk` bytes at a time, one at least. -/
def ofStream (chunk : Nat) (source : Stream) : LineReader where
  source := source
  chunk := max chunk 1
  buffer := #[]
  start := 0
  scanned := 0
  finished := false

/-- The index of the first newline at or behind `index`. -/
def findNewline (buffer : Array UInt8) (index : Nat) : Option Nat :=
  if hindex : index < buffer.size then
    if buffer[index] = newline then some index else findNewline buffer (index + 1)
  else none
termination_by buffer.size - index

/-- The bytes of a line as text. -/
def lineOfBytes (bytes : Array UInt8) : LineItem :=
  match Utf8.decode ⟨bytes⟩ with
  | .ok text => .ok text
  | .error fault => .error (.invalidText fault)

/-- Hands out the next line that is complete in the buffer. -/
def takeLine (reader : LineReader) : Option LineItem × LineReader :=
  match findNewline reader.buffer reader.scanned with
  | none => (none, { reader with scanned := reader.buffer.size })
  | some index =>
    (some (lineOfBytes (reader.buffer.extract reader.start index)),
      { reader with start := index + 1, scanned := index + 1 })

/-- Forgets the bytes that are handed out. -/
def compact (reader : LineReader) : LineReader :=
  { reader with
    buffer := reader.buffer.extract reader.start reader.buffer.size
    scanned := reader.scanned - reader.start
    start := 0 }

/-- The reader behind the end of its stream. What is left in the buffer is no line. -/
def close (reader : LineReader) : LineReader :=
  { reader with buffer := #[], start := 0, scanned := 0, finished := true }

theorem takeLine_of_findNewline {reader : LineReader} {found : Nat}
    (hsome : findNewline reader.buffer reader.scanned = some found) :
    reader.takeLine = (some (lineOfBytes (reader.buffer.extract reader.start found)),
      { reader with start := found + 1, scanned := found + 1 }) := by
  rw [takeLine, hsome]

theorem takeLine_of_findNewline_eq_none {reader : LineReader}
    (hnone : findNewline reader.buffer reader.scanned = none) :
    reader.takeLine = (none, { reader with scanned := reader.buffer.size }) := by
  rw [takeLine, hnone]

/-- A line that is handed out ends at a newline that was found. -/
theorem exists_of_takeLine_eq_some {reader rest : LineReader} {item : LineItem}
    (htaken : reader.takeLine = (some item, rest)) :
    ∃ found, findNewline reader.buffer reader.scanned = some found ∧
      item = lineOfBytes (reader.buffer.extract reader.start found) ∧
      rest = { reader with start := found + 1, scanned := found + 1 } := by
  cases hfound : findNewline reader.buffer reader.scanned with
  | none =>
      rw [takeLine_of_findNewline_eq_none hfound] at htaken
      cases htaken
  | some found =>
      rw [takeLine_of_findNewline hfound] at htaken
      cases htaken
      exact ⟨found, rfl, rfl, rfl⟩

/-- When there is nothing to hand out, the buffer is searched to its end. -/
theorem of_takeLine_eq_none {reader rest : LineReader}
    (htaken : reader.takeLine = (none, rest)) :
    findNewline reader.buffer reader.scanned = none ∧
      rest = { reader with scanned := reader.buffer.size } := by
  cases hfound : findNewline reader.buffer reader.scanned with
  | none =>
      rw [takeLine_of_findNewline_eq_none hfound] at htaken
      cases htaken
      exact ⟨rfl, rfl⟩
  | some found =>
      rw [takeLine_of_findNewline hfound] at htaken
      cases htaken

/-- Bytes that arrive take their stream's weight down. -/
theorem weight_lt_of_arrived {reader rest : LineReader} {source : Stream} {bytes : List UInt8}
    (htaken : reader.takeLine = (none, rest))
    (harrived : rest.source.read (max rest.chunk 1) = (.data bytes, source)) :
    source.weight < reader.source.weight := by
  obtain ⟨-, rfl⟩ := of_takeLine_eq_none htaken
  have hweight := Stream.length_add_weight_le harrived
  have hbytes := Stream.length_pos_of_read (by omega) harrived
  dsimp only at hweight
  omega

/-- The next line or fault, and the reader behind it; nothing when the stream is used up. A fault
of the stream ends it, a line that is not text does not. -/
def next (reader : LineReader) : Option LineItem × LineReader :=
  match htaken : reader.takeLine with
  | (some item, rest) => (some item, rest)
  | (none, rest) =>
    if rest.finished then (none, rest)
    else
      match harrived : rest.source.read (max rest.chunk 1) with
      | (.data bytes, source) =>
        have := weight_lt_of_arrived htaken harrived
        next { rest.compact with buffer := rest.compact.buffer ++ bytes.toArray, source := source }
      | (.ended, source) => (none, { rest.close with source := source })
      | (.failed fault, source) =>
        (some (.error fault), { rest.compact with source := source, finished := true })
termination_by reader.source.weight

/-- A bound on the number of items a reader still hands out. -/
def pending (reader : LineReader) : Nat :=
  (reader.buffer.size - reader.scanned) + reader.source.weight

theorem lt_size_of_findNewline {buffer : Array UInt8} {index found : Nat}
    (hsome : findNewline buffer index = some found) : index ≤ found ∧ found < buffer.size := by
  fun_induction findNewline buffer index with
  | case1 index hinside _ =>
      obtain rfl := Option.some.inj hsome
      exact ⟨Nat.le_refl index, hinside⟩
  | case2 index _ _ ih =>
      obtain ⟨hle, hlt⟩ := ih hsome
      exact ⟨Nat.le_of_succ_le hle, hlt⟩
  | case3 => cases hsome

/-- An item is paid for by a byte of the buffer or a piece of the stream. -/
theorem pending_next_lt {reader rest : LineReader} {item : LineItem}
    (hnext : reader.next = (some item, rest)) : rest.pending < reader.pending := by
  fun_induction next reader with
  | case1 reader found taken htaken =>
      cases hnext
      obtain ⟨index, hindex, -, rfl⟩ := exists_of_takeLine_eq_some htaken
      obtain ⟨hle, hlt⟩ := lt_size_of_findNewline hindex
      simp only [pending]
      omega
  | case2 => cases hnext
  | case3 reader searched htaken _ bytes source harrived _ ih =>
      obtain ⟨-, rfl⟩ := of_takeLine_eq_none htaken
      have hrefilled := ih hnext
      have hweight := Stream.length_add_weight_le harrived
      simp only [pending, compact, Array.size_append, Array.size_extract, List.size_toArray]
        at hrefilled hweight ⊢
      omega
  | case4 => cases hnext
  | case5 reader searched htaken _ fault source harrived =>
      obtain ⟨-, rfl⟩ := of_takeLine_eq_none htaken
      cases hnext
      have hweight := Stream.weight_lt_of_failed harrived
      simp only [pending, compact, Array.size_extract] at hweight ⊢
      omega

/-- The items a reader hands out, behind those handed out before, which are in reverse. -/
def itemsAfter (handed : List LineItem) (reader : LineReader) : List LineItem :=
  match hnext : reader.next with
  | (none, _) => handed.reverse
  | (some item, rest) =>
    have := pending_next_lt hnext
    itemsAfter (item :: handed) rest
termination_by reader.pending

/-- All items a reader hands out until its stream is used up. -/
def items (reader : LineReader) : List LineItem :=
  itemsAfter [] reader

end LineReader

/-- The lines of a stream read `chunk` bytes at a time, and the faults met in their place. -/
def Stream.lines (chunk : Nat) (stream : Stream) : List LineItem :=
  (LineReader.ofStream chunk stream).items

end JitTrace
