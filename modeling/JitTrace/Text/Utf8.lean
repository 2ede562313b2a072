/-! # Bytes as text

Reading bytes as UTF-8, with the place and the length of the first fault, the symbols of bytes
that need not be text, and cutting a text at a byte offset. Which bytes are text is core's
definition; only where and how the others fail is decided here.
-/

namespace JitTrace.Utf8

/-- The bytes up to `index` are text. `length` is the number of bytes that cannot be the start of
a character, or none when the bytes end inside a character that was sound so far. -/
structure Fault where
  index : Nat
  length : Option Nat
  deriving DecidableEq, Repr

/-- The wording of a fault. -/
def Fault.message (fault : Fault) : String :=
  match fault.length with
  | some length => s!"invalid utf-8 sequence of {length} bytes from index {fault.index}"
  | none => s!"incomplete utf-8 byte sequence from index {fault.index}"

/-- The symbols of bytes from an index on: characters, and `none` for a byte that starts none. -/
def symbolsFrom (bytes : ByteArray) (index : Nat) : List (Option Char) :=
  if index < bytes.size then
    match bytes.utf8DecodeChar? index with
    | some char => some char :: symbolsFrom bytes (index + char.utf8Size)
    | none => none :: symbolsFrom bytes (index + 1)
  else []
termination_by bytes.size - index
decreasing_by
  · have := char.utf8Size_pos
    omega
  · omega

/-- The symbols of bytes. -/
def symbols (bytes : ByteArray) : List (Option Char) :=
  symbolsFrom bytes 0

/-- The number of bytes in front of the first one that starts no character. -/
def soundLength (bytes : ByteArray) : Nat :=
  ((symbols bytes).takeWhile Option.isSome).foldr
    (fun symbol count => (symbol.map Char.utf8Size).getD 0 + count) 0

/-- Whether a byte may continue a character. -/
def isContinuation (byte : UInt8) : Bool :=
  0x80 ≤ byte && byte ≤ 0xBF

/-- The number of bytes behind a first byte that starts a character, and the bounds of the
first of them. -/
def following? (byte : UInt8) : Option (Nat × UInt8 × UInt8) :=
  if 0xC2 ≤ byte && byte ≤ 0xDF then some (1, 0x80, 0xBF)
  else if byte = 0xE0 then some (2, 0xA0, 0xBF)
  else if byte = 0xED then some (2, 0x80, 0x9F)
  else if 0xE1 ≤ byte && byte ≤ 0xEF then some (2, 0x80, 0xBF)
  else if byte = 0xF0 then some (3, 0x90, 0xBF)
  else if 0xF1 ≤ byte && byte ≤ 0xF3 then some (3, 0x80, 0xBF)
  else if byte = 0xF4 then some (3, 0x80, 0x8F)
  else none

/-- The length of the fault at the start of bytes that start no character. -/
def faultLength : List UInt8 → Option Nat
  | [] => none
  | first :: rest =>
    match following? first with
    | none => some 1
    | some (count, low, high) =>
      match rest with
      | [] => none
      | second :: rest =>
        if !(low ≤ second && second ≤ high) then some 1
        else
          let sound := (rest.take (count - 1)).takeWhile isContinuation
          if sound.length < (rest.take (count - 1)).length then some (2 + sound.length) else none

/-- Reads bytes as text. -/
def decode (bytes : ByteArray) : Except Fault String :=
  match String.fromUTF8? bytes with
  | some text => .ok text
  | none =>
    let index := soundLength bytes
    .error ⟨index, faultLength (bytes.toList.drop index)⟩

/-- The characters behind the first `offset` bytes, if a character starts or the text ends
there. -/
def dropBytes : Nat → List Char → Option (List Char)
  | 0, chars => some chars
  | _ + 1, [] => none
  | offset + 1, char :: rest =>
    if char.utf8Size ≤ offset + 1 then dropBytes (offset + 1 - char.utf8Size) rest else none

theorem suffix_of_dropBytes {offset : Nat} {chars rest : List Char}
    (hrest : dropBytes offset chars = some rest) : rest <:+ chars := by
  fun_induction dropBytes offset chars with
  | case1 => simp_all
  | case2 => simp at hrest
  | case3 offset char chars _ ih => exact (ih hrest).trans (List.suffix_cons char chars)
  | case4 => simp at hrest

/-- The characters in the first `offset` bytes, if a character starts or the text ends there. -/
def takeBytes : Nat → List Char → Option (List Char)
  | 0, _ => some []
  | _ + 1, [] => none
  | offset + 1, char :: rest =>
    if char.utf8Size ≤ offset + 1 then
      (takeBytes (offset + 1 - char.utf8Size) rest).map (char :: ·)
    else none

end JitTrace.Utf8
