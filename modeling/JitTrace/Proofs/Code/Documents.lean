import JitTrace.Proofs.Code.History

/-! # Documents that share addresses

Documents with a common address share its label, which belongs to the document that was rendered
first. All of them write positions into it. Forgetting the statistics of a document and rendering
it again leaves its own labels with positions of this rendering alone, so through the document
they are found where its text has them, whatever else was rendered before.
-/

namespace JitTrace

theorem Block.exists_output_of_addressAt? {outline : List OutputLine} {position : Nat}
    {address : String} (haddress : addressAt? outline position = some address) :
    ∃ output ∈ outline, output.address? = some address := by
  unfold addressAt? at haddress
  split at haddress
  next mnemonic target houtput => exact ⟨_, List.mem_of_getElem? houtput, haddress⟩
  next other houtput =>
    rw [Option.ite_none_left_eq_some] at haddress
    exact ⟨_, List.mem_of_getElem? houtput, haddress.2⟩
  next => cases haddress

namespace LabelCache

variable {cache : LabelCache} {context : String}

/-! ## Labels without positions -/

/-- The first pass after forgetting finds the labels of the document at no positions. -/
theorem positions_discovered?_resetStatistics {jumps : List DirectJump} {address : String}
    {label : Label}
    (hlabel : (cache.resetStatistics context).discovered? context jumps address = some label)
    (hcontext : label.context = context) : label.line = none ∧ label.referencedAt = [] := by
  rw [discovered?, get?_resetStatistics] at hlabel
  cases hfound : cache.get? address with
  | none =>
      rw [hfound, Option.map_none] at hlabel
      dsimp only at hlabel
      split at hlabel
      next =>
        cases hlabel
        exact ⟨rfl, rfl⟩
      next => cases hlabel
  | some old =>
      rw [hfound, Option.map_some] at hlabel
      by_cases hown : old.context = context
      · rw [if_pos hown] at hlabel
        cases hlabel
        exact ⟨rfl, rfl⟩
      · rw [if_neg hown] at hlabel
        cases hlabel
        exact absurd hcontext hown

/-! ## Finding labels -/

/-- What a document has on an output line, if it is a label of the document. -/
def ownAddressAt? (cache : LabelCache) (context : String) (outline : List OutputLine)
    (position : Nat) : Option String :=
  (Block.addressAt? outline position).filter fun address =>
    (cache.get? address).any fun label => label.context = context

theorem ownAddressAt?_eq_some_iff {outline : List OutputLine} {position : Nat} {address : String} :
    cache.ownAddressAt? context outline position = some address ↔
      Block.addressAt? outline position = some address ∧
        ∃ label, cache.get? address = some label ∧ label.context = context := by
  simp only [ownAddressAt?, Option.filter_eq_some_iff, Option.any_eq_true, decide_eq_true_eq]

/-- In a document that was rendered again, lines are looked up as its outline has them. -/
theorem addressAtLine?_decompile_resetStatistics (hdistinct : cache.labels.keys.Nodup)
    (lines : List String) (context : String) (position : Nat) :
    let rendered := (cache.resetStatistics context).decompile lines context
    rendered.2.addressAtLine? context position =
      rendered.2.ownAddressAt? context (rendered.2.outline lines) position := by
  intro rendered
  have hkeys : rendered.2.labels.keys.Nodup :=
    nodup_keys_decompile context (nodup_keys_perform hdistinct (.resetStatistics context)) lines
  obtain ⟨-, hplaces⟩ := (cache.resetStatistics context).decompile_outline lines context
  -- positions in one of its labels are those of its address in the outline
  have htouches : ∀ address label, rendered.2.get? address = some label →
      label.context = context →
      (label.touchesLine position ↔
        Block.addressAt? (rendered.2.outline lines) position = some address) := by
    intro address label hlabel hcontext
    rw [hplaces address, Option.map_eq_some_iff] at hlabel
    obtain ⟨found, hfound, rfl⟩ := hlabel
    obtain ⟨hline, hreferenced⟩ := positions_discovered?_resetStatistics hfound hcontext
    exact found.touchesLine_place_iff hline hreferenced address _ position
  refine addressAtLine?_eq context hkeys fun address => ?_
  rw [ownAddressAt?_eq_some_iff]
  constructor
  · rintro ⟨label, hlabel, hcontext, htouch⟩
    exact ⟨(htouches address label hlabel hcontext).mp htouch, label, hlabel, hcontext⟩
  · rintro ⟨haddress, label, hlabel, hcontext⟩
    exact ⟨label, hlabel, hcontext, (htouches address label hlabel hcontext).mpr haddress⟩

theorem labelAtLine?_eq_bind (cache : LabelCache) (context : String) (line : Nat) :
    cache.labelAtLine? context line = (cache.addressAtLine? context line).bind cache.get? :=
  rfl

/-- Renaming by output line names the label that is found there, and no other. -/
theorem rename_of_addressAtLine? {line : Nat} {address : String} {label : Label}
    (haddress : cache.addressAtLine? context line = some address)
    (hlabel : cache.get? address = some label) (name : String) :
    (cache.rename context line name).1 = some label.displayName ∧
      ∀ other, (cache.rename context line name).2.get? other =
        if other = address then some { label with userLabel := some name }
        else cache.get? other := by
  refine ⟨?_, fun other => ?_⟩
  · rw [rename, haddress]
    simp only [hlabel, Option.map_some]
  · rw [get?_rename, haddress]
    by_cases heq : other = address
    · rw [heq, if_pos rfl, if_pos rfl, hlabel, Option.map_some]
    · rw [if_neg heq, if_neg fun hsome => heq (Option.some.inj hsome).symm]

/-- Whatever happened before, in a document that was rendered again every label of the document is
found, by that label's own lines: each jump that shows it and its last definition. It can be renamed
there, and no other label changes. No lookup answers with a label that the line does not have. The
labels of a document are those that were made by rendering it, now or before. -/
theorem labelAtLine?_of_document (operations : List Operation) (lines : List String)
    (context : String) :
    let history := operations ++ [.resetStatistics context, .decompile lines context]
    let rendered := ((after operations).resetStatistics context).decompile lines context
    let outline := rendered.2.outline lines
    rendered.1 = outline.map (OutputLine.text (nameOf rendered.2.get?)) ∧
    (∀ position address, Block.addressAt? outline position = some address →
      ∃ label, rendered.2.get? address = some label ∧
        (label.context = context →
          rendered.2.labelAtLine? context position = some label ∧
          ∀ name,
            let renamed := rendered.2.rename context position name
            renamed.1 = some label.displayName ∧
            ∀ other, renamed.2.get? other =
              if other = address then some { label with userLabel := some name }
              else rendered.2.get? other)) ∧
    (∀ position label, rendered.2.labelAtLine? context position = some label →
      ∃ address, Block.addressAt? outline position = some address ∧
        rendered.2.get? address = some label) ∧
    ∀ address label, rendered.2.get? address = some label →
      ∃ origin made, MadeAt history origin address ∧
        history[origin]? = some (.decompile made label.context) := by
  intro history rendered outline
  have hlookup : ∀ position, rendered.2.addressAtLine? context position =
      rendered.2.ownAddressAt? context outline position :=
    addressAtLine?_decompile_resetStatistics (nodup_keys_after operations) lines context
  refine ⟨(decompile_outline _ lines context).1, ?_, ?_, ?_⟩
  · intro position address haddress
    obtain ⟨output, houtput, hnamed⟩ := Block.exists_output_of_addressAt? haddress
    obtain ⟨label, hlabel⟩ := exists_label_of_mem_outline _ lines context houtput hnamed
    refine ⟨label, hlabel, fun hcontext => ?_⟩
    have hfound : rendered.2.addressAtLine? context position = some address := by
      rw [hlookup, ownAddressAt?_eq_some_iff]
      exact ⟨haddress, label, hlabel, hcontext⟩
    refine ⟨?_, rename_of_addressAtLine? hfound hlabel⟩
    rw [labelAtLine?_eq_bind, hfound]
    exact hlabel
  · intro position label hlabel
    rw [labelAtLine?_eq_bind, Option.bind_eq_some_iff] at hlabel
    obtain ⟨address, haddress, hlabel⟩ := hlabel
    rw [hlookup, ownAddressAt?_eq_some_iff] at haddress
    exact ⟨address, haddress.1, hlabel⟩
  · intro address label hlabel
    have hhistory : after history = rendered.2 := by
      simp only [history, after, List.foldl_append, List.foldl_cons, List.foldl_nil]
      rfl
    rw [← hhistory] at hlabel
    obtain ⟨origin, hmade, -⟩ :=
      existsUnique_madeAt (Option.isSome_iff_exists.mpr ⟨label, hlabel⟩)
    obtain ⟨made, horigin⟩ := exists_decompile_of_madeAt hmade hlabel
    exact ⟨origin, made, hmade, horigin⟩

/-- A document with a label of its own next to one of another document. -/
theorem labelAtLine?_of_shared_document :
    let earlier := [
      "0x10                          00 jmp 0x12",
      "0x12                          00 ret",
      ""]
    let lines := [
      "0x10                          00 jz 0x11",
      "0x11                          00 jmp 0x12",
      "0x12                          00 ret",
      ""]
    let operations := [Operation.decompile earlier "a.asm"]
    let rendered := ((after operations).resetStatistics "b.asm").decompile lines "b.asm"
    let label : Label := ⟨0, some 1, 1, [0], none, "b.asm", false, true⟩
    Block.addressAt? (rendered.2.outline lines) 1 = some "0x11" ∧
      label.context = "b.asm" ∧
      rendered.2.labelAtLine? "b.asm" 1 = some label ∧
      (rendered.2.rename "b.asm" 1 "again").1 = some "skip0" := by
  intro earlier lines operations rendered label
  obtain ⟨haddress, hlabel⟩ :
      Block.addressAt? (rendered.2.outline lines) 1 = some "0x11" ∧
        rendered.2.get? "0x11" = some label := by
    decide +kernel
  have hname : label.displayName = "skip0" := by decide +kernel
  obtain ⟨-, hfound, -, -⟩ := labelAtLine?_of_document operations lines "b.asm"
  obtain ⟨found, hthere, hown⟩ := hfound 1 "0x11" haddress
  obtain rfl : found = label := Option.some.inj (hthere.symm.trans hlabel)
  obtain ⟨hlookup, hrenamed⟩ := hown rfl
  exact ⟨haddress, rfl, hlookup, (hrenamed "again").1.trans (congrArg some hname)⟩

/-- A label of another document, here of the same code under an address in other letters, is not
found. -/
theorem labelAtLine?_of_other_document :
    ¬ ∀ (operations : List Operation) (lines : List String) (context : String),
      let rendered := ((after operations).resetStatistics context).decompile lines context
      ∀ position address label,
        Block.addressAt? (rendered.2.outline lines) position = some address →
        rendered.2.get? address = some label →
        rendered.2.labelAtLine? context position = some label := by
  intro hfound
  let lines := [
    "0x10                          00 nop",
    "0x11                          00 jnz 0x10",
    ""]
  let rendered :=
    ((after [.decompile lines "0xA.asm"]).resetStatistics "0xa.asm").decompile lines "0xa.asm"
  obtain ⟨haddress, hlabel, hnone⟩ :
      Block.addressAt? (rendered.2.outline lines) 0 = some "0x10" ∧
        rendered.2.get? "0x10" = some ⟨0, some 0, 2, [2, 2], none, "0xA.asm", true, false⟩ ∧
        rendered.2.labelAtLine? "0xa.asm" 0 = none := by
    decide +kernel
  have hlookup := hfound [.decompile lines "0xA.asm"] lines "0xa.asm" 0 "0x10" _ haddress hlabel
  cases hnone.symm.trans hlookup

end LabelCache

end JitTrace
