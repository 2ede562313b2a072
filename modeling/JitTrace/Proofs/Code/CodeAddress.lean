import JitTrace.Proofs.Code.Extraction
import JitTrace.Proofs.Text.Numeral

/-! # Two ways to compare addresses

The store compares addresses without the blanks around them and without regard to the case of ASCII
letters. A code log is searched for an address as it stands, blanks included, and only the case does
not count. So what is extracted depends on more than what the store looks at: two addresses that are
one to the store lead to the same block if they have the same blanks around them, and in general not
otherwise.
-/

namespace JitTrace

/-! ## Forms of an address -/

/-- An address with the ASCII letters in lower case. -/
def lowerAddress (address : String) : String :=
  String.ofList (address.toList.map Char.toLower)

theorem lowerAddress_eq_iff {first second : String} :
    lowerAddress first = lowerAddress second ↔
      first.toList.map Char.toLower = second.toList.map Char.toLower :=
  String.ofList_inj

theorem eq_empty_iff_of_lowerAddress_eq {first second : String}
    (hsame : lowerAddress first = lowerAddress second) : first = "" ↔ second = "" := by
  rw [lowerAddress_eq_iff] at hsame
  rw [← String.toList_eq_nil_iff, ← String.toList_eq_nil_iff,
    ← @List.map_eq_nil_iff _ _ Char.toLower, hsame, List.map_eq_nil_iff]

theorem isBlank_toLower (char : Char) : Text.isBlank char.toLower = Text.isBlank char := by
  have hlower := Utf8.toNat_toLower char
  by_cases hupper : 65 ≤ char.toNat ∧ char.toNat ≤ 90
  · rw [if_pos hupper] at hlower
    rw [Text.isBlank_eq_false_of_lt (by omega) (by omega),
      Text.isBlank_eq_false_of_lt (by omega) (by omega)]
  · rw [if_neg hupper, Char.toNat_inj] at hlower
    rw [hlower]

theorem trim_lowerAddress (address : String) :
    Text.trim (lowerAddress address) = normalizeAddress address := by
  have hblank : Text.isBlank ∘ Char.toLower = Text.isBlank := funext isBlank_toLower
  simp only [normalizeAddress, Text.trim, lowerAddress, String.toList_ofList, Text.dropBlankEnd,
    List.dropWhile_map, hblank, ← List.map_reverse]

theorem normalizeAddress_of_trim {address : String} (htrim : Text.trim address = address) :
    normalizeAddress address = lowerAddress address := by
  rw [normalizeAddress, htrim, lowerAddress]

namespace Block

theorem headedBy_congr {first second : String} (hsame : lowerAddress first = lowerAddress second)
    (line : String) : HeadedBy first line ↔ HeadedBy second line := by
  rw [headedBy_iff, headedBy_iff, lowerAddress_eq_iff.mp hsame]

theorem headedBy_self (address : String) : HeadedBy address address :=
  List.prefix_rfl

theorem lowerAddress_eq_of_headedBy {first second : String} (hfirst : HeadedBy first second)
    (hsecond : HeadedBy second first) : lowerAddress first = lowerAddress second := by
  rw [headedBy_iff] at hfirst hsecond
  exact lowerAddress_eq_iff.mpr (hfirst.eq_of_length_le hsecond.length_le)

theorem not_headedBy_empty {address : String} (haddress : address ≠ "") :
    ¬ HeadedBy address "" := by
  rw [headedBy_iff]
  intro hprefix
  simp [haddress] at hprefix

theorem find_congr {first second : String} {items : List LineItem}
    (hsame : ∀ line, .ok line ∈ items → (HeadedBy first line ↔ HeadedBy second line)) :
    find first items = find second items := by
  induction items with
  | nil => rfl
  | cons item rest ih =>
      have hrest := ih fun line hmem => hsame line (List.mem_cons_of_mem item hmem)
      cases item with
      | error fault => rfl
      | ok line =>
          have hline := hsame line List.mem_cons_self
          rw [← startsWithAddress_iff, ← startsWithAddress_iff] at hline
          rw [find, find, hrest]
          simp only [hline]

/-! ## Logs that tell addresses apart -/

theorem newline_mem_bytesOf_iff {text : String} :
    newline ∈ Utf8.bytesOf text.toList ↔ '\n' ∈ text.toList :=
  @Utf8.mem_bytesOf_iff '\n' (by decide) text.toList

/-- No line of a stream holds a newline. -/
theorem newline_notMem_of_mem_items {stream : Stream} {line : String}
    (hline : .ok line ∈ stream.items) : '\n' ∉ line.toList := by
  rw [Stream.items, itemsOf, List.mem_append, List.mem_map, List.mem_map] at hline
  rcases hline with ⟨bytes, hbytes, htext⟩ | ⟨fault, -, hfault⟩
  · have hreads := readsAs_lineOfBytes bytes
    rw [htext, ReadsAs, ← Utf8.bytesOf_toList] at hreads
    rw [← newline_mem_bytesOf_iff, hreads]
    exact newline_notMem_of_mem_completeLines hbytes
  · cases hfault

theorem newline_mem_map_toLower_iff {chars : List Char} :
    '\n' ∈ chars.map Char.toLower ↔ '\n' ∈ chars := by
  rw [List.mem_map]
  constructor
  · rintro ⟨char, hchar, hlower⟩
    have hcode := Utf8.toNat_toLower char
    rw [hlower, show '\n'.toNat = 10 from rfl] at hcode
    split at hcode
    next => omega
    next =>
      obtain rfl : '\n' = char := Char.toNat_inj.mp hcode
      exact hchar
  · exact fun hmem => ⟨'\n', hmem, rfl⟩

/-- An address with a newline heads no line without one. -/
theorem not_headedBy_of_newline {address line : String} (haddress : '\n' ∈ address.toList)
    (hline : '\n' ∉ line.toList) : ¬ HeadedBy address line := by
  intro hheaded
  rw [headedBy_iff] at hheaded
  rw [← newline_mem_map_toLower_iff] at haddress hline
  exact hline (hheaded.subset haddress)

/-- The bytes of a text are read as that text. -/
theorem lineOfBytes_bytesOf (text : String) :
    LineReader.lineOfBytes (Utf8.bytesOf text.toList).toArray = .ok text := by
  have hreads := readsAs_lineOfBytes (Utf8.bytesOf text.toList)
  rw [Utf8.bytesOf_toList] at hreads ⊢
  cases hitem : LineReader.lineOfBytes text.toByteArray.data.toList.toArray with
  | ok line =>
      rw [hitem] at hreads
      have htext : line = text :=
        String.toByteArray_inj.mp (ByteArray.ext (Array.toList_inj.mp hreads))
      rw [htext]
  | error fault =>
      rw [hitem] at hreads
      cases fault with
      | invalidText fault => exact absurd rfl (hreads text)
      | _ => exact hreads.elim

/-- A code log of one line and the empty one. -/
def headerLog (header : String) : Stream :=
  .ofBytes (Utf8.bytesOf header.toList ++ [newline, newline])

theorem items_headerLog {header : String} (hheader : '\n' ∉ header.toList) :
    (headerLog header).items = [.ok header, .ok ""] := by
  have hline : newline ∉ Utf8.bytesOf header.toList := by
    rwa [newline_mem_bytesOf_iff]
  have hbytes : (headerLog header).bytes =
      Utf8.bytesOf header.toList ++ newline :: ([] ++ newline :: []) := by
    rw [headerLog, Stream.ofBytes, Stream.bytes, Stream.bytes, List.append_nil]
    rfl
  rw [Stream.items, hbytes, itemsOf_line hline, itemsOf_line List.not_mem_nil,
    itemsOf_tail List.not_mem_nil, lineOfBytes_bytesOf]
  rfl

/-- The empty line is extracted from the log of a line at the addresses that head it only. -/
theorem headedBy_of_extract_headerLog {address header : String} (haddress : address ≠ "")
    (hheader : '\n' ∉ header.toList) {chunk : Nat}
    (hextract : extract chunk (headerLog header) address = .ok [""]) :
    HeadedBy address header := by
  by_contra hheaded
  have habsent : ∀ line ∈ [header, ""], ¬ HeadedBy address line :=
    List.forall_mem_cons.mpr ⟨hheaded, List.forall_mem_singleton.mpr (not_headedBy_empty haddress)⟩
  rw [extract_of_ne haddress, items_headerLog hheader] at hextract
  have hnothing := (Extracts.absent habsent).find_eq
  rw [List.map_cons, List.map_cons, List.map_nil, hextract] at hnothing
  cases hnothing

theorem extract_headerLog_self {address : String} (haddress : address ≠ "")
    (hline : '\n' ∉ address.toList) (chunk : Nat) :
    extract chunk (headerLog address) address = .ok [""] := by
  rw [extract_of_ne haddress, items_headerLog hline, find_header (headedBy_self address)]
  rfl

/-- Nothing is extracted at the empty address only, even if the log cannot be read. -/
theorem eq_empty_of_extract_failure {address : String} {chunk : Nat} {fault : IoFault}
    {lines : List String} (hextract : extract chunk [.failure fault] address = .ok lines) :
    address = "" := by
  by_contra haddress
  rw [extract_of_ne haddress] at hextract
  cases hextract

/-! ## Addresses that extract the same -/

variable {first second : String}

theorem headedBy_of_extract_eq
    (hagree : ∀ chunk stream, extract chunk stream first = extract chunk stream second)
    (hsecond : '\n' ∉ second.toList) : HeadedBy first second := by
  by_cases hempty : second = ""
  · subst hempty
    have hnone := hagree 1 [.failure .notFound]
    rw [eq_empty_of_extract_failure hnone]
    exact headedBy_self ""
  · by_cases hfirst : first = ""
    · subst hfirst
      exact List.nil_prefix
    · have hblock := hagree 1 (headerLog second)
      rw [extract_headerLog_self hempty hsecond] at hblock
      exact headedBy_of_extract_headerLog hfirst hsecond hblock

theorem extract_congr (hfirst : first ≠ "") (hsecond : second ≠ "") {stream : Stream}
    (hsame : ∀ line, .ok line ∈ stream.items → (HeadedBy first line ↔ HeadedBy second line))
    (chunk : Nat) : extract chunk stream first = extract chunk stream second := by
  rw [extract_of_ne hfirst, extract_of_ne hsecond, find_congr hsame]

theorem extract_eq_of_lowerAddress_eq (hlower : lowerAddress first = lowerAddress second)
    (chunk : Nat) (stream : Stream) : extract chunk stream first = extract chunk stream second := by
  have hempty := eq_empty_iff_of_lowerAddress_eq hlower
  by_cases hfirst : first = ""
  · rw [hfirst, hempty.mp hfirst]
  · exact extract_congr hfirst (mt hempty.mpr hfirst) (fun line _ => headedBy_congr hlower line)
      chunk

theorem extract_eq_of_newline (hfirst : '\n' ∈ first.toList) (hsecond : '\n' ∈ second.toList)
    (chunk : Nat) (stream : Stream) : extract chunk stream first = extract chunk stream second := by
  refine extract_congr ?_ ?_ ?_ chunk
  · rintro rfl
    cases hfirst
  · rintro rfl
    cases hsecond
  · intro line hmem
    have hline := newline_notMem_of_mem_items hmem
    exact iff_of_false (not_headedBy_of_newline hfirst hline)
      (not_headedBy_of_newline hsecond hline)

/-- The same is extracted at two addresses from every code log exactly if they differ in the case of
ASCII letters only, or if they both hold a newline and head no line of any log. Addresses that
differ in case only are one to the store, and from those that are one to the store and have no
blanks around them the same is extracted. -/
theorem extract_eq_extract_iff (first second : String) :
    ((∀ chunk stream, extract chunk stream first = extract chunk stream second) ↔
      lowerAddress first = lowerAddress second ∨
        '\n' ∈ first.toList ∧ '\n' ∈ second.toList) ∧
    (lowerAddress first = lowerAddress second →
      normalizeAddress first = normalizeAddress second) ∧
    (Text.trim first = first → Text.trim second = second →
      normalizeAddress first = normalizeAddress second →
        ∀ chunk stream, extract chunk stream first = extract chunk stream second) := by
  refine ⟨⟨?_, ?_⟩, ?_, ?_⟩
  · intro hagree
    by_cases hfirst : '\n' ∈ first.toList
    · by_cases hsecond : '\n' ∈ second.toList
      · exact Or.inr ⟨hfirst, hsecond⟩
      · exact absurd (headedBy_of_extract_eq hagree hsecond)
          (not_headedBy_of_newline hfirst hsecond)
    · have hback := headedBy_of_extract_eq (fun chunk stream => (hagree chunk stream).symm) hfirst
      by_cases hsecond : '\n' ∈ second.toList
      · exact absurd hback (not_headedBy_of_newline hsecond hfirst)
      · exact Or.inl (lowerAddress_eq_of_headedBy (headedBy_of_extract_eq hagree hsecond) hback)
  · rintro (hlower | ⟨hfirst, hsecond⟩)
    · exact extract_eq_of_lowerAddress_eq hlower
    · exact extract_eq_of_newline hfirst hsecond
  · intro hlower
    rw [← trim_lowerAddress, hlower, trim_lowerAddress]
  · intro hfirst hsecond hsame
    apply extract_eq_of_lowerAddress_eq
    rw [← normalizeAddress_of_trim hfirst, hsame, normalizeAddress_of_trim hsecond]

theorem extract_eq_extract_of_case :
    lowerAddress "0xA" = lowerAddress "0xa" ∧
    normalizeAddress "0xA" = normalizeAddress "0xa" ∧
    Text.trim "0xA" = "0xA" ∧ Text.trim "0xa" = "0xa" ∧
    ∀ chunk stream, extract chunk stream "0xA" = extract chunk stream "0xa" :=
  have hlower : lowerAddress "0xA" = lowerAddress "0xa" := by decide +kernel
  have hsame := (extract_eq_extract_iff "0xA" "0xa").2.1 hlower
  have hfirst : Text.trim "0xA" = "0xA" := by decide +kernel
  have hsecond : Text.trim "0xa" = "0xa" := by decide +kernel
  ⟨hlower, hsame, hfirst, hsecond,
    (extract_eq_extract_iff "0xA" "0xa").2.2 hfirst hsecond hsame⟩

/-- Blanks around an address make a difference, though they make none to the store. -/
theorem not_extract_eq_of_normalizeAddress_eq :
    ¬ ∀ (chunk : Nat) (stream : Stream) (first second : String), first ≠ "" → second ≠ "" →
      normalizeAddress first = normalizeAddress second →
        extract chunk stream first = extract chunk stream second := by
  intro hsame
  have hblank := hsame 64 (.ofBytes (Utf8.bytesOf "0xA code\n0xa ret\n\n".toList)) " 0xA" "0xA"
    (by decide) (by decide) (by decide +kernel)
  have hdifferent : extract 64 (.ofBytes (Utf8.bytesOf "0xA code\n0xa ret\n\n".toList)) " 0xA" ≠
      extract 64 (.ofBytes (Utf8.bytesOf "0xA code\n0xa ret\n\n".toList)) "0xA" := by
    rw [extract_of_ne (by decide), extract_of_ne (by decide)]
    decide +kernel
  exact hdifferent hblank

end Block

end JitTrace
