import JitTrace.Code.Block
import JitTrace.Proofs.Store.Ingestion
import JitTrace.Proofs.Text.Bytes

/-! # Extracting blocks of optimized code

Which block is extracted at an address, read off the lines of the code log and the faults in their
place: the lines behind the first one that the address heads, up to the empty line that ends them.
A fault counts only if it is met before that line. Addresses head the same lines if they differ in
the case of ASCII letters only, whereas the store does not mind the blanks around them either, so
this is where the two part.
-/

namespace JitTrace

namespace Block

/-! ## Headed lines -/

/-- The bytes of a line start with those of an address, the case of ASCII letters apart. -/
def HeadedBy (address line : String) : Prop :=
  (Utf8.bytesOf address.toList).map Utf8.lowerByte <+:
    (Utf8.bytesOf line.toList).map Utf8.lowerByte

theorem headedBy_iff {address line : String} :
    HeadedBy address line ↔
      address.toList.map Char.toLower <+: line.toList.map Char.toLower := by
  rw [HeadedBy, Utf8.map_lowerByte_bytesOf, Utf8.map_lowerByte_bytesOf, Utf8.bytesOf_prefix_iff]

theorem startsWithAddress_iff {line address : String} :
    startsWithAddress line address ↔ HeadedBy address line := by
  rw [headedBy_iff, startsWithAddress]
  constructor
  · intro hstarts
    split at hstarts
    next start htaken =>
      rw [← of_decide_eq_true hstarts]
      exact (Utf8.prefix_of_takeBytes htaken).map Char.toLower
    next => cases hstarts
  · rintro ⟨rest, hrest⟩
    obtain ⟨start, behind, hline, hstart, -⟩ := List.map_eq_append_iff.mp hrest.symm
    have hlength : address.utf8ByteSize = (Utf8.bytesOf start).length := by
      rw [← Utf8.length_bytesOf_toList, ← List.length_map Utf8.lowerByte,
        Utf8.map_lowerByte_bytesOf, ← hstart, ← Utf8.map_lowerByte_bytesOf, List.length_map]
    rw [hline, hlength, Utf8.takeBytes_append]
    exact decide_eq_true hstart

/-! ## Scanning the lines -/

theorem find_append {address : String} {front : List String}
    (hfront : ∀ line ∈ front, ¬ HeadedBy address line) (items : List LineItem) :
    find address (front.map Except.ok ++ items) = find address items := by
  induction front with
  | nil => rfl
  | cons line front ih =>
      have hline : ¬ startsWithAddress line address := fun hstarts =>
        hfront line List.mem_cons_self (startsWithAddress_iff.mp hstarts)
      rw [List.map_cons, List.cons_append, find, if_neg hline]
      exact ih fun other hmem => hfront other (List.mem_cons_of_mem _ hmem)

theorem find_header {address header : String} (hheader : HeadedBy address header)
    (items : List LineItem) :
    find address (.ok header :: items) = (upToEmpty items).map some := by
  rw [find, if_pos (startsWithAddress_iff.mpr hheader)]
  cases upToEmpty items <;> rfl

theorem upToEmpty_append {body : List String} (hbody : "" ∉ body) (items : List LineItem) :
    upToEmpty (body.map Except.ok ++ items) = (upToEmpty items).map (body ++ ·) := by
  induction body with
  | nil => cases hitems : upToEmpty items <;> simp [hitems, Except.map]
  | cons line body ih =>
      simp only [List.mem_cons, not_or] at hbody
      have hline : ¬ line.isEmpty := by simpa using Ne.symm hbody.1
      rw [List.map_cons, List.cons_append, upToEmpty, if_neg hline, ih hbody.2]
      cases upToEmpty items <;> rfl

/-- What is extracted at an address, given the lines and the faults in their place. The lines in
front of the header are not headed by the address, and those of the body are not empty. -/
inductive Extracts (address : String) :
    List LineItem → Except IoFault (List String) → Prop where
  /-- An empty line ends the block, and what comes behind it does not matter. -/
  | ended {front : List String} {header : String} {body : List String} {later : List LineItem}
      (hfront : ∀ line ∈ front, ¬ HeadedBy address line) (hheader : HeadedBy address header)
      (hbody : "" ∉ body) :
      Extracts address ((front ++ header :: (body ++ [""])).map Except.ok ++ later)
        (.ok (body ++ [""]))
  /-- The lines end before an empty one comes. -/
  | open_ {front : List String} {header : String} {body : List String}
      (hfront : ∀ line ∈ front, ¬ HeadedBy address line) (hheader : HeadedBy address header)
      (hbody : "" ∉ body) :
      Extracts address ((front ++ header :: body).map Except.ok) (.ok body)
  /-- A fault is met inside the block. -/
  | broken {front : List String} {header : String} {body : List String} {fault : IoFault}
      {later : List LineItem} (hfront : ∀ line ∈ front, ¬ HeadedBy address line)
      (hheader : HeadedBy address header) (hbody : "" ∉ body) :
      Extracts address ((front ++ header :: body).map Except.ok ++ .error fault :: later)
        (.error fault)
  /-- A fault is met before the block. -/
  | unreached {front : List String} {fault : IoFault} {later : List LineItem}
      (hfront : ∀ line ∈ front, ¬ HeadedBy address line) :
      Extracts address (front.map Except.ok ++ .error fault :: later) (.error fault)
  /-- No line is headed by the address. -/
  | absent {lines : List String} (hlines : ∀ line ∈ lines, ¬ HeadedBy address line) :
      Extracts address (lines.map Except.ok) (.ok [])

theorem Extracts.find_eq {address : String} {items : List LineItem}
    {result : Except IoFault (List String)} (hextracts : Extracts address items result) :
    (find address items).map (fun block => block.getD []) = result := by
  cases hextracts with
  | ended hfront hheader hbody =>
      rw [List.map_append, List.append_assoc, find_append hfront, List.map_cons, List.cons_append,
        find_header hheader, List.map_append, List.append_assoc, upToEmpty_append hbody]
      rfl
  | @open_ front header body hfront hheader hbody =>
      have hbehind := upToEmpty_append hbody []
      rw [List.append_nil] at hbehind
      rw [List.map_append, find_append hfront, List.map_cons, find_header hheader, hbehind]
      simp [upToEmpty, Except.map]
  | broken hfront hheader hbody =>
      rw [List.map_append, List.append_assoc, find_append hfront, List.map_cons, List.cons_append,
        find_header hheader, upToEmpty_append hbody]
      rfl
  | unreached hfront =>
      rw [find_append hfront]
      rfl
  | absent hlines =>
      have hfind := find_append hlines []
      rw [List.append_nil] at hfind
      rw [hfind]
      rfl

/-- A line in front that is not headed by the address changes nothing. -/
theorem Extracts.cons {address line : String} (hline : ¬ HeadedBy address line)
    {items : List LineItem} {result : Except IoFault (List String)}
    (hextracts : Extracts address items result) : Extracts address (.ok line :: items) result := by
  cases hextracts with
  | ended hfront hheader hbody =>
      exact .ended (List.forall_mem_cons.mpr ⟨hline, hfront⟩) hheader hbody
  | open_ hfront hheader hbody =>
      exact .open_ (List.forall_mem_cons.mpr ⟨hline, hfront⟩) hheader hbody
  | broken hfront hheader hbody =>
      exact .broken (List.forall_mem_cons.mpr ⟨hline, hfront⟩) hheader hbody
  | unreached hfront => exact .unreached (List.forall_mem_cons.mpr ⟨hline, hfront⟩)
  | absent hlines => exact .absent (List.forall_mem_cons.mpr ⟨hline, hlines⟩)

/-- Items start with a body without empty lines, up to an empty line, a fault or their end. -/
theorem exists_body (items : List LineItem) :
    ∃ body, "" ∉ body ∧
      ((∃ later, items = (body ++ [""]).map Except.ok ++ later) ∨
        items = body.map Except.ok ∨
        ∃ fault later, items = body.map Except.ok ++ .error fault :: later) := by
  induction items with
  | nil => exact ⟨[], List.not_mem_nil, Or.inr (Or.inl rfl)⟩
  | cons item rest ih =>
      cases item with
      | error fault => exact ⟨[], List.not_mem_nil, Or.inr (Or.inr ⟨fault, rest, rfl⟩)⟩
      | ok line =>
          by_cases hline : line = ""
          · subst hline
            exact ⟨[], List.not_mem_nil, Or.inl ⟨rest, rfl⟩⟩
          · obtain ⟨body, hbody, hitems⟩ := ih
            refine ⟨line :: body, ?_, ?_⟩
            · exact fun hmem => (List.mem_cons.mp hmem).elim (Ne.symm hline) hbody
            · rcases hitems with ⟨later, rfl⟩ | rfl | ⟨fault, later, rfl⟩
              · exact Or.inl ⟨later, rfl⟩
              · exact Or.inr (Or.inl rfl)
              · exact Or.inr (Or.inr ⟨fault, later, rfl⟩)

theorem exists_extracts (address : String) (items : List LineItem) :
    ∃ result, Extracts address items result := by
  have hfront : ∀ line ∈ ([] : List String), ¬ HeadedBy address line := List.forall_mem_nil _
  induction items with
  | nil => exact ⟨_, @Extracts.absent address [] hfront⟩
  | cons item rest ih =>
      cases item with
      | error fault => exact ⟨_, @Extracts.unreached address [] _ _ hfront⟩
      | ok line =>
          by_cases hline : HeadedBy address line
          · obtain ⟨body, hbody, hitems⟩ := exists_body rest
            rcases hitems with ⟨later, rfl⟩ | rfl | ⟨fault, later, rfl⟩
            · exact ⟨_, @Extracts.ended address [] _ _ _ hfront hline hbody⟩
            · exact ⟨_, @Extracts.open_ address [] _ _ hfront hline hbody⟩
            · exact ⟨_, @Extracts.broken address [] _ _ _ _ hfront hline hbody⟩
          · obtain ⟨result, hresult⟩ := ih
            exact ⟨result, hresult.cons hline⟩

theorem extract_empty (chunk : Nat) (stream : Stream) : extract chunk stream "" = .ok [] := rfl

theorem extract_of_ne {address : String} (haddress : address ≠ "") (chunk : Nat)
    (stream : Stream) :
    extract chunk stream address = (find address stream.items).map fun block => block.getD [] := by
  have hsome : ¬ address.isEmpty := by simpa using haddress
  rw [extract, if_neg hsome, Stream.lines_eq_items]
  cases find address stream.items <;> rfl

/-- However a code log arrives, what is extracted at an address are the lines behind the first one
that the address heads, up to the first empty one or the end of the log, and no lines if there is
none such. A line that is no text, or the failure that ends the log, is the result if it comes
before the end of the block, and does not matter otherwise. At the empty address nothing is
extracted. -/
theorem extract_eq_iff (chunk : Nat) (stream : Stream) (address : String)
    (result : Except IoFault (List String)) :
    extract chunk stream address = result ↔
      if address = "" then result = .ok [] else Extracts address stream.items result := by
  split
  next haddress =>
    rw [haddress, extract_empty]
    exact eq_comm
  next haddress =>
    rw [extract_of_ne haddress]
    constructor
    · intro hresult
      obtain ⟨other, hother⟩ := exists_extracts address stream.items
      rw [← hresult, hother.find_eq]
      exact hother
    · exact Extracts.find_eq

end Block

end JitTrace
