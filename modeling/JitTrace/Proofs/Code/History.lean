import JitTrace.Proofs.Code.Lookup

/-! # Labels over many renderings

A cache of labels comes about by renderings, by renaming and forgetting, and by clearing. A label
keeps its identifier until it is cleared away, and each rendering numbers its new labels from zero.
So labels that one rendering made are told apart by their deduced names wherever they meet, and
labels that different renderings made need not be.
-/

namespace JitTrace

namespace OutputLine

/-- The address whose label an output line names. -/
def address? : OutputLine → Option String
  | definition address => some address
  | toLabel _ target => some target
  | _ => none

theorem exists_eq_toLabel {output : OutputLine} {address : String}
    (houtput : output.isDefinition = false) (haddress : output.address? = some address) :
    ∃ mnemonic, output = .toLabel mnemonic address := by
  cases output with
  | definition other => cases houtput
  | plain instruction => cases haddress
  | indirect mnemonic operand => cases haddress
  | toLabel mnemonic target =>
      cases haddress
      exact ⟨mnemonic, rfl⟩
  | outside mnemonic target => cases haddress

end OutputLine

namespace LabelCache

/-- What lines of a block are written as, with the labels of a cache. -/
def outline (cache : LabelCache) (lines : List String) : List OutputLine :=
  Block.outline lines (fun address => (cache.get? address).isSome) lines

/-! ## Sequences of operations -/

/-- What can be done to a cache. -/
inductive Operation where
  | decompile (lines : List String) (context : String)
  | rename (context : String) (line : Nat) (name : String)
  | resetStatistics (context : String)
  | clear

/-- The cache after an operation. -/
def perform (cache : LabelCache) : Operation → LabelCache
  | .decompile lines context => (cache.decompile lines context).2
  | .rename context line name => (cache.rename context line name).2
  | .resetStatistics context => cache.resetStatistics context
  | .clear => ∅

/-- The cache after operations that start with an empty one. -/
def after (operations : List Operation) : LabelCache :=
  operations.foldl perform ∅

theorem after_concat (operations : List Operation) (operation : Operation) :
    after (operations ++ [operation]) = (after operations).perform operation :=
  List.foldl_concat ..

variable {cache : LabelCache}

theorem nodup_keys_perform (hdistinct : cache.labels.keys.Nodup) (operation : Operation) :
    (cache.perform operation).labels.keys.Nodup := by
  cases operation with
  | decompile lines context => exact nodup_keys_decompile context hdistinct lines
  | rename context line name =>
      rw [perform, rename]
      split
      next => exact hdistinct
      next address _ => exact (Index.keys_modify cache.labels address _).symm ▸ hdistinct
  | resetStatistics context =>
      have hkeys : (cache.resetStatistics context).labels.keys = cache.labels.keys := by
        simp [resetStatistics, Index.keys, Index.mapValues]
      exact hkeys ▸ hdistinct
  | clear => exact List.nodup_nil

theorem nodup_keys_after (operations : List Operation) :
    (after operations).labels.keys.Nodup := by
  induction operations using List.reverseRecOn with
  | nil => exact List.nodup_nil
  | append_singleton operations operation ih =>
      rw [after_concat]
      exact nodup_keys_perform ih operation

/-! ## One rendering in any cache -/

/-- A rendering writes the outline that its labels have in the end, under the names that they have
in the end. -/
theorem decompile_outline (cache : LabelCache) (lines : List String) (context : String) :
    let rendered := cache.decompile lines context
    rendered.1 =
        (rendered.2.outline lines).map (OutputLine.text (nameOf rendered.2.get?)) ∧
      Places (cache.discovered? context (Block.jumps lines)) (rendered.2.outline lines)
        rendered.2 := by
  intro rendered
  obtain ⟨htext, hplaces⟩ := cache.decompile_spec lines context
  have houtline : rendered.2.outline lines = Block.outline lines
      (fun address => (cache.discovered? context (Block.jumps lines) address).isSome) lines := by
    refine congrArg (Block.outline lines · lines) (funext fun address => ?_)
    rw [Bool.eq_iff_iff]
    exact hplaces.isSome_iff address
  rw [houtline, hplaces.nameOf_eq]
  exact ⟨htext, hplaces⟩

/-- Every label that a document names is there. -/
theorem exists_label_of_mem_outline (cache : LabelCache) (lines : List String) (context : String)
    {output : OutputLine} {address : String}
    (houtput : output ∈ (cache.decompile lines context).2.outline lines)
    (haddress : output.address? = some address) :
    ∃ label, (cache.decompile lines context).2.get? address = some label := by
  rw [← Option.isSome_iff_exists]
  obtain ⟨line, hline, hwritten⟩ := List.mem_flatMap.mp houtput
  unfold Block.outlineOfLine at hwritten
  split at hwritten
  next => cases hwritten
  next =>
    rw [List.mem_append, List.mem_ite_nil_right, List.mem_singleton, List.mem_singleton] at hwritten
    rcases hwritten with ⟨hlabelled, rfl⟩ | hwritten
    · cases haddress
      exact hlabelled
    · obtain ⟨mnemonic, rfl⟩ := OutputLine.exists_eq_toLabel
        (hwritten ▸ Block.isDefinition_outputOf lines _) haddress
      obtain ⟨jump, hmem, rfl⟩ := Block.exists_jump_of_toLabel hline hwritten.symm
      rw [(cache.decompile_outline lines context).2.isSome_iff]
      exact cache.isSome_discovered?_of_mem context hmem

/-! ## Identifiers and documents -/

theorem identity_decompile {lines : List String} {context address : String} {label later : Label}
    (hbefore : cache.get? address = some label)
    (hafter : (cache.decompile lines context).2.get? address = some later) :
    later.id = label.id ∧ later.context = label.context := by
  rw [(cache.decompile_outline lines context).2 address, discovered?, hbefore] at hafter
  cases hafter
  exact ⟨rfl, rfl⟩

/-- A rendering makes a new label for its document, and numbers it by how many other new targets
are reached before it. -/
theorem identity_decompile_new {lines : List String} {context address : String} {label : Label}
    (hbefore : cache.get? address = none)
    (hafter : (cache.decompile lines context).2.get? address = some label) :
    address ∈ cache.newTargets (Block.jumps lines) ∧
      label.id = (cache.newTargets
        ((Block.jumps lines).takeWhile fun jump => jump.target ≠ address)).card ∧
      label.context = context := by
  rw [(cache.decompile_outline lines context).2 address, discovered?, hbefore] at hafter
  dsimp only at hafter
  split at hafter
  next htarget =>
    cases hafter
    exact ⟨(mem_newTargets ..).mpr ⟨hbefore, htarget⟩, rfl, rfl⟩
  next => cases hafter

theorem get?_rename (cache : LabelCache) (context : String) (line : Nat) (name address : String) :
    (cache.rename context line name).2.get? address =
      if cache.addressAtLine? context line = some address then
        (cache.get? address).map fun label => { label with userLabel := some name }
      else cache.get? address := by
  unfold rename
  cases hfound : cache.addressAtLine? context line with
  | none => rfl
  | some found =>
      refine (Index.get?_modify cache.labels found address _).trans ?_
      by_cases heq : address = found
      · simp [heq, get?]
      · simp [heq, Ne.symm heq, get?]

theorem get?_resetStatistics (cache : LabelCache) (context address : String) :
    (cache.resetStatistics context).get? address =
      (cache.get? address).map fun label =>
        if label.context = context then label.resetStatistics else label :=
  Index.get?_mapValues cache.labels _ address

/-- A label keeps its identifier and its document as long as it is there. -/
theorem identity_perform {operation : Operation} {address : String} {label later : Label}
    (hbefore : cache.get? address = some label)
    (hafter : (cache.perform operation).get? address = some later) :
    later.id = label.id ∧ later.context = label.context := by
  cases operation with
  | decompile lines context => exact identity_decompile hbefore hafter
  | rename context line name =>
      rw [perform, get?_rename, hbefore] at hafter
      split at hafter
      next =>
        cases hafter
        exact ⟨rfl, rfl⟩
      next =>
        cases hafter
        exact ⟨rfl, rfl⟩
  | resetStatistics context =>
      rw [perform, get?_resetStatistics, hbefore, Option.map_some, Option.some.injEq] at hafter
      rw [← hafter]
      split
      next => exact ⟨rfl, rfl⟩
      next => exact ⟨rfl, rfl⟩
  | clear => cases hafter

/-- Only a rendering makes labels, and it makes them for its document. -/
theorem exists_decompile_of_new {operation : Operation} {address : String} {label : Label}
    (hnew : cache.get? address = none)
    (hlabel : (cache.perform operation).get? address = some label) :
    ∃ lines, operation = .decompile lines label.context := by
  cases operation with
  | decompile lines context =>
      obtain ⟨-, -, rfl⟩ := identity_decompile_new hnew hlabel
      exact ⟨lines, rfl⟩
  | rename context line name =>
      rw [perform, get?_rename, hnew] at hlabel
      split at hlabel
      next => cases hlabel
      next => cases hlabel
  | resetStatistics context =>
      rw [perform, get?_resetStatistics, hnew] at hlabel
      cases hlabel
  | clear => cases hlabel

theorem address_eq_of_id_perform_eq {operation : Operation} {address other : String}
    {label otherLabel : Label}
    (hnew : cache.get? address = none) (hother : cache.get? other = none)
    (hlabel : (cache.perform operation).get? address = some label)
    (hotherLabel : (cache.perform operation).get? other = some otherLabel)
    (hid : label.id = otherLabel.id) : address = other := by
  obtain ⟨lines, rfl⟩ := exists_decompile_of_new hnew hlabel
  obtain ⟨htarget, hrank, -⟩ := identity_decompile_new hnew hlabel
  obtain ⟨hotherTarget, hotherRank, -⟩ := identity_decompile_new hother hotherLabel
  rw [hrank, hotherRank] at hid
  exact cache.card_newTargets_takeWhile_inj htarget hotherTarget hid

/-! ## Where labels come from -/

/-- The operation at a position made the label that an address has in the end: there was none
before it, and there has been one ever since. -/
def MadeAt (operations : List Operation) (position : Nat) (address : String) : Prop :=
  (after (operations.take position)).get? address = none ∧
    ∀ later, position < later → later ≤ operations.length →
      ((after (operations.take later)).get? address).isSome

variable {operations : List Operation} {operation : Operation} {position : Nat}
  {address other : String}

theorem MadeAt.of_concat (hmade : MadeAt (operations ++ [operation]) position address)
    (hposition : position < operations.length) : MadeAt operations position address := by
  obtain ⟨hnone, hsince⟩ := hmade
  rw [List.take_append_of_le_length (Nat.le_of_lt hposition)] at hnone
  refine ⟨hnone, fun later hlater hlength => ?_⟩
  have hsome := hsince later hlater (by rw [List.length_append]; omega)
  rw [List.take_append_of_le_length hlength] at hsome
  exact hsome

theorem MadeAt.concat (hmade : MadeAt operations position address)
    (hposition : position < operations.length)
    (hstays : ((after (operations ++ [operation])).get? address).isSome) :
    MadeAt (operations ++ [operation]) position address := by
  obtain ⟨hnone, hsince⟩ := hmade
  refine ⟨?_, fun later hlater hlength => ?_⟩
  · rw [List.take_append_of_le_length (Nat.le_of_lt hposition)]
    exact hnone
  rcases Nat.lt_or_ge operations.length later with hlast | hearlier
  · rw [List.take_of_length_le (by rw [List.length_append]; exact hlast)]
    exact hstays
  · rw [List.take_append_of_le_length hearlier]
    exact hsince later hlater hearlier

theorem MadeAt.lt_length (hmade : MadeAt operations position address)
    (hlabel : ((after operations).get? address).isSome) : position < operations.length := by
  by_contra hge
  rw [MadeAt, List.take_of_length_le (Nat.le_of_not_lt hge)] at hmade
  rw [hmade.1] at hlabel
  cases hlabel

theorem MadeAt.isSome_of_lt (hmade : MadeAt (operations ++ [operation]) position address)
    (hposition : position < operations.length) : ((after operations).get? address).isSome := by
  have hsome := hmade.2 operations.length hposition (by simp)
  rwa [List.take_left] at hsome

theorem MadeAt.get?_length_eq_none
    (hmade : MadeAt (operations ++ [operation]) operations.length address) :
    (after operations).get? address = none := by
  have hnone := hmade.1
  rwa [List.take_left] at hnone

/-- Every label was made by one operation. -/
theorem existsUnique_madeAt (hlabel : ((after operations).get? address).isSome) :
    ∃! position, MadeAt operations position address := by
  refine existsUnique_of_exists_of_unique ?_ ?_
  · induction operations using List.reverseRecOn with
    | nil => cases hlabel
    | append_singleton operations operation ih =>
        cases hbefore : (after operations).get? address with
        | none =>
            refine ⟨operations.length, ?_, fun later hlater hlength => ?_⟩
            · rw [List.take_left]
              exact hbefore
            · rw [List.take_of_length_le (by rw [List.length_append]; exact hlater)]
              exact hlabel
        | some label =>
            have hthere : ((after operations).get? address).isSome := by
              rw [hbefore]
              rfl
            obtain ⟨position, hmade⟩ := ih hthere
            exact ⟨position, hmade.concat (hmade.lt_length hthere) hlabel⟩
  · intro first second hfirst hsecond
    -- between two such positions the label would be there and not be there
    have hnot : ∀ {earlier later}, MadeAt operations earlier address →
        MadeAt operations later address → ¬ earlier < later := by
      intro earlier later hearlier hlater hlt
      have hsome := hearlier.2 later hlt (Nat.le_of_lt (hlater.lt_length hlabel))
      rw [hlater.1] at hsome
      cases hsome
    exact Nat.le_antisymm (Nat.le_of_not_lt (hnot hsecond hfirst))
      (Nat.le_of_not_lt (hnot hfirst hsecond))

/-- A label was made by a rendering of the document that it belongs to. -/
theorem exists_decompile_of_madeAt {label : Label} (hmade : MadeAt operations position address)
    (hlabel : (after operations).get? address = some label) :
    ∃ lines, operations[position]? = some (.decompile lines label.context) := by
  induction operations using List.reverseRecOn generalizing label with
  | nil => cases hlabel
  | append_singleton operations operation ih =>
      have hlt := hmade.lt_length (by rw [hlabel]; rfl)
      rw [after_concat] at hlabel
      rw [List.length_append, List.length_singleton] at hlt
      rcases Nat.lt_or_ge position operations.length with hearlier | hlast
      · obtain ⟨before, hbefore⟩ := Option.isSome_iff_exists.mp (hmade.isSome_of_lt hearlier)
        rw [(identity_perform hbefore hlabel).2, List.getElem?_append_left hearlier]
        exact ih (hmade.of_concat hearlier) hbefore
      · obtain rfl : position = operations.length := Nat.le_antisymm (Nat.le_of_lt_succ hlt) hlast
        obtain ⟨lines, rfl⟩ := exists_decompile_of_new hmade.get?_length_eq_none hlabel
        exact ⟨lines, List.getElem?_concat_length⟩

/-- Labels that one operation made have different identifiers ever after. -/
theorem address_eq_of_id_eq {label otherLabel : Label}
    (hmade : MadeAt operations position address) (hotherMade : MadeAt operations position other)
    (hlabel : (after operations).get? address = some label)
    (hotherLabel : (after operations).get? other = some otherLabel)
    (hid : label.id = otherLabel.id) : address = other := by
  induction operations using List.reverseRecOn generalizing label otherLabel with
  | nil => cases hlabel
  | append_singleton operations operation ih =>
      rw [after_concat] at hlabel hotherLabel
      have hlt : position < (operations ++ [operation]).length :=
        hmade.lt_length (by rw [after_concat, hlabel]; rfl)
      rw [List.length_append, List.length_singleton] at hlt
      rcases Nat.lt_or_ge position operations.length with hearlier | hlast
      · -- both were there before, with the identifiers that they still have
        obtain ⟨before, hbefore⟩ := Option.isSome_iff_exists.mp (hmade.isSome_of_lt hearlier)
        obtain ⟨otherBefore, hotherBefore⟩ :=
          Option.isSome_iff_exists.mp (hotherMade.isSome_of_lt hearlier)
        rw [(identity_perform hbefore hlabel).1, (identity_perform hotherBefore hotherLabel).1]
          at hid
        exact ih (hmade.of_concat hearlier) (hotherMade.of_concat hearlier) hbefore hotherBefore hid
      · obtain rfl : position = operations.length := Nat.le_antisymm (Nat.le_of_lt_succ hlt) hlast
        exact address_eq_of_id_perform_eq hmade.get?_length_eq_none
          hotherMade.get?_length_eq_none hlabel hotherLabel hid

/-! ## Names in one document -/

/-- A document shows the label of an address under a name that was deduced. -/
def ShowsDeduced (cache : LabelCache) (lines : List String) (address name : String) : Prop :=
  (∃ output ∈ cache.outline lines, output.address? = some address) ∧
    ∃ label, cache.get? address = some label ∧ label.userLabel = none ∧ label.displayName = name

/-- Whatever happened before, a document never shows two labels that one rendering made, this one
or an earlier one, under one deduced name. Every label that it shows was made by exactly one
operation, which is a rendering of the document that the label belongs to. -/
theorem deduced_names_of_one_rendering (operations : List Operation) (lines : List String)
    (context : String) :
    let rendered := (after operations).decompile lines context
    let history := operations ++ [.decompile lines context]
    rendered.1 = (rendered.2.outline lines).map (OutputLine.text (nameOf rendered.2.get?)) ∧
    (∀ output ∈ rendered.2.outline lines, ∀ address, output.address? = some address →
      ∃ label, rendered.2.get? address = some label ∧
        nameOf rendered.2.get? address = label.displayName ∧
        (∃! position, MadeAt history position address) ∧
        ∀ position, MadeAt history position address →
          ∃ made, history[position]? = some (.decompile made label.context)) ∧
    ∀ address other name otherName, ShowsDeduced rendered.2 lines address name →
      ShowsDeduced rendered.2 lines other otherName → address ≠ other →
      ∀ position, MadeAt history position address → MadeAt history position other →
        name ≠ otherName := by
  intro rendered history
  have hhistory : after history = rendered.2 := after_concat operations _
  refine ⟨((after operations).decompile_outline lines context).1, ?_, ?_⟩
  · intro output houtput address haddress
    obtain ⟨label, hlabel⟩ :=
      (after operations).exists_label_of_mem_outline lines context houtput haddress
    have hthere : (after history).get? address = some label := hhistory ▸ hlabel
    refine ⟨label, hlabel, nameOf_eq hlabel, existsUnique_madeAt ?_, ?_⟩
    · rw [hthere, Option.isSome_some]
    · intro position hmade
      exact exists_decompile_of_madeAt hmade hthere
  · rintro address other name otherName ⟨-, label, hlabel, hdeduced, rfl⟩
      ⟨-, otherLabel, hotherLabel, hotherDeduced, rfl⟩ hne position hmade hotherMade hname
    rw [Label.displayName, Label.displayName, hdeduced, hotherDeduced] at hname
    rw [← hhistory] at hlabel hotherLabel
    exact hne (address_eq_of_id_eq hmade hotherMade hlabel hotherLabel
      (Label.id_eq_of_deducedName_eq hname))

/-- Two labels of one rendering next to one of an earlier rendering. -/
theorem deduced_names_of_mixed_labels :
    let earlier := [
      "0x10                          00 jz 0x12",
      "0x12                          00 ret",
      ""]
    let lines := [
      "0x10                          00 jz 0x11",
      "0x11                          00 jz 0x12",
      "0x12                          00 jz 0x13",
      "0x13                          00 ret",
      ""]
    let operations := [Operation.decompile earlier "a.asm"]
    let rendered := (after operations).decompile lines "b.asm"
    let history := operations ++ [.decompile lines "b.asm"]
    ShowsDeduced rendered.2 lines "0x11" "skip0" ∧ ShowsDeduced rendered.2 lines "0x13" "skip1" ∧
      MadeAt history 1 "0x11" ∧ MadeAt history 1 "0x13" ∧ "skip0" ≠ "skip1" := by
  intro earlier lines operations rendered history
  obtain ⟨houtline, hlabel, hotherLabel, hnone, hotherNone⟩ :
      rendered.2.outline lines = [
        .toLabel "jz" "0x11", .definition "0x11",
        .toLabel "jz" "0x12", .definition "0x12",
        .toLabel "jz" "0x13", .definition "0x13",
        .plain "ret"] ∧
      rendered.2.get? "0x11" = some ⟨0, some 1, 1, [0], none, "b.asm", false, true⟩ ∧
      rendered.2.get? "0x13" = some ⟨1, some 5, 1, [4], none, "b.asm", false, true⟩ ∧
      (after operations).get? "0x11" = none ∧ (after operations).get? "0x13" = none := by
    decide +kernel
  have hshown : ShowsDeduced rendered.2 lines "0x11" "skip0" :=
    ⟨⟨.definition "0x11", by simp [houtline], rfl⟩, _, hlabel, rfl, by decide +kernel⟩
  have hotherShown : ShowsDeduced rendered.2 lines "0x13" "skip1" :=
    ⟨⟨.definition "0x13", by simp [houtline], rfl⟩, _, hotherLabel, rfl, by decide +kernel⟩
  have hmade : ∀ address, (after operations).get? address = none →
      (rendered.2.get? address).isSome → MadeAt history 1 address := by
    intro address hnone hsome
    refine ⟨hnone, fun later hlater hlength => ?_⟩
    obtain rfl : later = 2 := Nat.le_antisymm hlength hlater
    exact hsome
  have hmadeFirst := hmade "0x11" hnone (by rw [hlabel]; rfl)
  have hmadeOther := hmade "0x13" hotherNone (by rw [hotherLabel]; rfl)
  obtain ⟨-, -, hnames⟩ := deduced_names_of_one_rendering operations lines "b.asm"
  exact ⟨hshown, hotherShown, hmadeFirst, hmadeOther,
    hnames _ _ _ _ hshown hotherShown (by decide) 1 hmadeFirst hmadeOther⟩

/-- Labels of different renderings may share a deduced name, since each rendering numbers its new
labels from zero and the others keep their identifiers. -/
theorem deduced_names_repeat :
    ¬ ∀ (operations : List Operation) (lines : List String) (context : String),
      let rendered := (after operations).decompile lines context
      ∀ address other name otherName, ShowsDeduced rendered.2 lines address name →
        ShowsDeduced rendered.2 lines other otherName → address ≠ other → name ≠ otherName := by
  intro hnames
  let earlier := [
    "0x10                          00 jmp 0x12",
    "0x12                          00 ret",
    ""]
  let lines := [
    "0x10                          00 jz 0x11",
    "0x11                          00 jmp 0x12",
    "0x12                          00 ret",
    ""]
  let rendered := (after [.decompile earlier "a.asm"]).decompile lines "a.asm"
  obtain ⟨houtline, hlabel, hotherLabel⟩ :
      rendered.2.outline lines = [
        .toLabel "jz" "0x11", .definition "0x11",
        .toLabel "jmp" "0x12", .definition "0x12",
        .plain "ret"] ∧
      rendered.2.get? "0x11" = some ⟨0, some 1, 1, [0], none, "a.asm", false, true⟩ ∧
      rendered.2.get? "0x12" = some ⟨0, some 3, 2, [0, 2], none, "a.asm", false, true⟩ := by
    decide +kernel
  have hnew : ShowsDeduced rendered.2 lines "0x11" "skip0" :=
    ⟨⟨.definition "0x11", by simp [houtline], rfl⟩, _, hlabel, rfl, by decide +kernel⟩
  have hkept : ShowsDeduced rendered.2 lines "0x12" "skip0" :=
    ⟨⟨.definition "0x12", by simp [houtline], rfl⟩, _, hotherLabel, rfl, by decide +kernel⟩
  exact hnames [.decompile earlier "a.asm"] lines "a.asm" "0x11" "0x12" _ _ hnew hkept
    (by decide) rfl

end LabelCache

end JitTrace
