import JitTrace.Text.Utf8
import Mathlib.Data.List.Basic

/-! # The bytes of a text

The bytes of a text are those of its characters one after another. An ASCII character is one byte,
and no other character has a byte below 128. Hence a text starts with another one if and only if its
bytes do, also when the case of ASCII letters does not count, and the bytes of a text have its
characters as symbols.
-/

namespace JitTrace.Utf8

/-- The bytes of characters. -/
def bytesOf (chars : List Char) : List UInt8 :=
  chars.flatMap String.utf8EncodeChar

theorem toByteArray_bytesOf (chars : List Char) : (bytesOf chars).toByteArray = chars.utf8Encode :=
  rfl

/-- The bytes of a text. -/
theorem bytesOf_toList (text : String) : bytesOf text.toList = text.toByteArray.data.toList := by
  rw [← String.utf8Encode_toList, ← toByteArray_bytesOf, List.toList_data_toByteArray]

theorem bytesOf_cons (char : Char) (chars : List Char) :
    bytesOf (char :: chars) = String.utf8EncodeChar char ++ bytesOf chars := rfl

theorem bytesOf_append (front rest : List Char) :
    bytesOf (front ++ rest) = bytesOf front ++ bytesOf rest :=
  List.flatMap_append

theorem length_bytesOf_toList (text : String) :
    (bytesOf text.toList).length = text.utf8ByteSize := by
  rw [bytesOf_toList, Array.length_toList, ByteArray.size_data, String.size_toByteArray]

theorem toList_loop (bytes : ByteArray) (index : Nat) (found : List UInt8) :
    ByteArray.toList.loop bytes index found = found.reverse ++ bytes.data.toList.drop index := by
  fun_induction ByteArray.toList.loop bytes index found with
  | case1 index found hinside ih =>
      have hlength : index < bytes.data.toList.length := by simpa using hinside
      rw [ih, List.drop_eq_getElem_cons hlength]
      simp [ByteArray.get!, hinside]
  | case2 index found houtside =>
      have hlength : bytes.data.toList.length ≤ index := by simpa using houtside
      rw [List.drop_eq_nil_of_le hlength, List.append_nil]

theorem toList_toUTF8 (text : String) : text.toUTF8.toList = bytesOf text.toList := by
  rw [ByteArray.toList, toList_loop, List.reverse_nil, List.nil_append, List.drop_zero,
    bytesOf_toList]
  rfl

/-! ## Single characters -/

theorem utf8Size_eq_one_iff_lt {char : Char} : char.utf8Size = 1 ↔ char.toNat < 128 := by
  rw [Char.utf8Size_eq_one_iff, UInt32.le_iff_toNat_le]
  exact Nat.lt_succ_iff.symm

theorem toNat_ofNat_of_lt {code : Nat} (hascii : code < 128) : (UInt8.ofNat code).toNat = code :=
  UInt8.toNat_ofNat_of_lt' (Nat.lt_trans hascii (by decide))

theorem encode_of_lt {char : Char} (hascii : char.toNat < 128) :
    String.utf8EncodeChar char = [UInt8.ofNat char.toNat] := by
  rw [String.utf8EncodeChar_eq_singleton (utf8Size_eq_one_iff_lt.mpr hascii)]
  rfl

theorem le_or (byte : UInt8) {mark : UInt8} (hmark : 128 ≤ mark.toNat) :
    128 ≤ (byte ||| mark).toNat := by
  rw [UInt8.toNat_or]
  exact Nat.le_trans hmark Nat.right_le_or

/-- The bytes of a character that is not ASCII are none of ASCII. -/
theorem le_of_mem_encode {char : Char} (hlarge : 128 ≤ char.toNat) {byte : UInt8}
    (hmem : byte ∈ String.utf8EncodeChar char) : 128 ≤ byte.toNat := by
  rcases char.utf8Size_eq with hsize | hsize | hsize | hsize
  · exact absurd (utf8Size_eq_one_iff_lt.mp hsize) (Nat.not_lt.mpr hlarge)
  · rw [String.utf8EncodeChar_eq_cons_cons hsize] at hmem
    simp only [List.mem_cons, List.not_mem_nil, or_false] at hmem
    rcases hmem with rfl | rfl <;> exact le_or _ (by decide)
  · rw [String.utf8EncodeChar_eq_cons_cons_cons hsize] at hmem
    simp only [List.mem_cons, List.not_mem_nil, or_false] at hmem
    rcases hmem with rfl | rfl | rfl <;> exact le_or _ (by decide)
  · rw [String.utf8EncodeChar_eq_cons_cons_cons_cons hsize] at hmem
    simp only [List.mem_cons, List.not_mem_nil, or_false] at hmem
    rcases hmem with rfl | rfl | rfl | rfl <;> exact le_or _ (by decide)

/-- An ASCII character is in a text exactly if its byte is. -/
theorem mem_bytesOf_iff {char : Char} (hascii : char.toNat < 128) {chars : List Char} :
    UInt8.ofNat char.toNat ∈ bytesOf chars ↔ char ∈ chars := by
  rw [bytesOf, List.mem_flatMap]
  constructor
  · rintro ⟨other, hother, hbyte⟩
    rcases Nat.lt_or_ge other.toNat 128 with hsmall | hlarge
    · rw [encode_of_lt hsmall, List.mem_singleton] at hbyte
      have hcode := congrArg UInt8.toNat hbyte
      rw [toNat_ofNat_of_lt hsmall, toNat_ofNat_of_lt hascii] at hcode
      exact Char.toNat_inj.mp hcode ▸ hother
    · have hbyte := le_of_mem_encode hlarge hbyte
      rw [toNat_ofNat_of_lt hascii] at hbyte
      omega
  · intro hmem
    exact ⟨char, hmem, by rw [encode_of_lt hascii]; exact List.mem_singleton_self _⟩

/-! ## Starts of texts -/

theorem bytesOf_prefix_iff {front chars : List Char} :
    bytesOf front <+: bytesOf chars ↔ front <+: chars := by
  constructor
  · rintro ⟨rest, hrest⟩
    refine List.isPrefix_of_utf8Encode_append_eq_utf8Encode rest.toByteArray ?_
    rw [← toByteArray_bytesOf, ← toByteArray_bytesOf, ← hrest, List.toByteArray_append]
  · rintro ⟨rest, rfl⟩
    exact ⟨bytesOf rest, (bytesOf_append front rest).symm⟩

/-- A byte with the ASCII capital letters in lower case. -/
def lowerByte (byte : UInt8) : UInt8 :=
  if 65 ≤ byte && byte ≤ 90 then byte + 32 else byte

theorem lowerByte_of_le {byte : UInt8} (hlarge : 128 ≤ byte.toNat) : lowerByte byte = byte := by
  refine if_neg ?_
  rw [Bool.and_eq_true, decide_eq_true_eq, decide_eq_true_eq, UInt8.le_iff_toNat_le,
    UInt8.le_iff_toNat_le]
  intro hbounds
  have hcapital : byte.toNat ≤ 90 := hbounds.2
  omega

theorem lowerByte_ofNat {code : Nat} (hascii : code < 128) :
    lowerByte (UInt8.ofNat code) =
      UInt8.ofNat (if 65 ≤ code ∧ code ≤ 90 then code + 32 else code) := by
  have hcapital : (65 ≤ UInt8.ofNat code ∧ UInt8.ofNat code ≤ 90) ↔ 65 ≤ code ∧ code ≤ 90 := by
    rw [UInt8.le_iff_toNat_le, UInt8.le_iff_toNat_le, toNat_ofNat_of_lt hascii]
    exact Iff.rfl
  simp only [lowerByte, Bool.and_eq_true, decide_eq_true_eq, hcapital]
  split
  next => exact (UInt8.ofNat_add code 32).symm
  next => rfl

theorem toNat_toLower (char : Char) :
    char.toLower.toNat =
      if 65 ≤ char.toNat ∧ char.toNat ≤ 90 then char.toNat + 32 else char.toNat := by
  have hcapital : ('A'.val ≤ char.val ∧ char.val ≤ 'Z'.val) ↔
      65 ≤ char.toNat ∧ char.toNat ≤ 90 := by
    rw [UInt32.le_iff_toNat_le, UInt32.le_iff_toNat_le]
    exact Iff.rfl
  unfold Char.toLower
  split
  next hupper =>
    rw [if_pos (hcapital.mp hupper)]
    have hbound := (hcapital.mp hupper).2
    refine (UInt32.toNat_add char.val 32).trans (Nat.mod_eq_of_lt ?_)
    change char.toNat + 32 < 2 ^ 32
    omega
  next hother => rw [if_neg fun hupper => hother (hcapital.mpr hupper)]

theorem encode_toLower (char : Char) :
    String.utf8EncodeChar char.toLower = (String.utf8EncodeChar char).map lowerByte := by
  have hlower := toNat_toLower char
  rcases Nat.lt_or_ge char.toNat 128 with hascii | hlarge
  · have hsmall : char.toLower.toNat < 128 := by
      rw [hlower]
      split <;> omega
    rw [encode_of_lt hascii, encode_of_lt hsmall, List.map_singleton, lowerByte_ofNat hascii,
      hlower]
  · have hsame : char.toLower = char := by
      rw [← Char.toNat_inj, hlower]
      exact if_neg (by omega)
    rw [hsame]
    have hkept : ∀ byte ∈ String.utf8EncodeChar char, lowerByte byte = id byte :=
      fun byte hmem => lowerByte_of_le (le_of_mem_encode hlarge hmem)
    rw [List.map_congr_left hkept, List.map_id]

theorem map_lowerByte_bytesOf (chars : List Char) :
    (bytesOf chars).map lowerByte = bytesOf (chars.map Char.toLower) := by
  induction chars with
  | nil => rfl
  | cons char rest ih =>
      rw [List.map_cons, bytesOf_cons, bytesOf_cons, List.map_append, ih, encode_toLower]

theorem prefix_of_takeBytes {count : Nat} {chars start : List Char}
    (htaken : takeBytes count chars = some start) : start <+: chars := by
  fun_induction takeBytes count chars generalizing start with
  | case1 chars =>
      obtain rfl := Option.some.inj htaken
      exact List.nil_prefix
  | case2 count => cases htaken
  | case3 count char rest hfits ih =>
      obtain ⟨tail, htail, rfl⟩ := Option.map_eq_some_iff.mp htaken
      exact (List.prefix_cons_inj char).mpr (ih htail)
  | case4 count char rest hlarge => cases htaken

/-- As many bytes as a start of a text has are this start. -/
theorem takeBytes_append (start rest : List Char) :
    takeBytes (bytesOf start).length (start ++ rest) = some start := by
  induction start with
  | nil => cases rest <;> rfl
  | cons char start ih =>
      have hpos := char.utf8Size_pos
      have hlength : (bytesOf (char :: start)).length =
          (char.utf8Size - 1 + (bytesOf start).length) + 1 := by
        rw [bytesOf_cons, List.length_append, String.length_utf8EncodeChar]
        omega
      have hrest : char.utf8Size - 1 + (bytesOf start).length + 1 - char.utf8Size =
          (bytesOf start).length := by omega
      have hfits : char.utf8Size ≤ char.utf8Size - 1 + (bytesOf start).length + 1 := by omega
      rw [hlength, List.cons_append, takeBytes, if_pos hfits, hrest, ih, Option.map_some]

/-! ## Symbols -/

theorem utf8DecodeChar?_append (front : ByteArray) (char : Char) (rest : List Char) :
    (front ++ (bytesOf (char :: rest)).toByteArray).utf8DecodeChar? front.size = some char := by
  rw [ByteArray.utf8DecodeChar?_eq_utf8DecodeChar?_extract,
    ByteArray.extract_append_eq_right rfl ByteArray.size_append, bytesOf_cons,
    List.toByteArray_append, ByteArray.utf8DecodeChar?_utf8EncodeChar_append]

/-- Behind the bytes in front, the symbols are the characters of the text that follows. -/
theorem symbolsFrom_append (front : ByteArray) (chars : List Char) :
    symbolsFrom (front ++ (bytesOf chars).toByteArray) front.size = chars.map some := by
  induction chars generalizing front with
  | nil =>
      rw [symbolsFrom, if_neg]
      · rfl
      · simp [bytesOf]
  | cons char rest ih =>
      have hpos := char.utf8Size_pos
      have hinside : front.size < (front ++ (bytesOf (char :: rest)).toByteArray).size := by
        rw [ByteArray.size_append, List.size_toByteArray, bytesOf_cons, List.length_append,
          String.length_utf8EncodeChar]
        omega
      have hbehind := ih (front ++ (String.utf8EncodeChar char).toByteArray)
      rw [ByteArray.size_append, List.size_toByteArray, String.length_utf8EncodeChar,
        ByteArray.append_assoc, ← List.toByteArray_append, ← bytesOf_cons] at hbehind
      rw [symbolsFrom, if_pos hinside, utf8DecodeChar?_append]
      simp only [hbehind, List.map_cons]

/-- The symbols of the bytes of a text are its characters. -/
theorem symbols_toByteArray (text : String) :
    symbols text.toByteArray = text.toList.map some := by
  have hsymbols := symbolsFrom_append .empty text.toList
  rw [toByteArray_bytesOf, String.utf8Encode_toList, ByteArray.empty_append] at hsymbols
  exact hsymbols

end JitTrace.Utf8
