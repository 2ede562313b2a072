import JitTrace.Command.Run
import JitTrace.Proofs.Code.Lookup
import Mathlib.Logic.Function.Basic

/-! # Renaming labels of a document

A document is rendered, labels are renamed by output line, the statistics are forgotten, and the
document is rendered again. The names that users gave are all that this changes: positions that
the first rendering left are the ones by which labels are found, and the second rendering counts
and places everything anew from the same block.
-/

namespace JitTrace

/-! ## Names given to addresses -/

namespace Block

/-- The last name that requests give to the label of an address. -/
def lastName? (outline : List OutputLine) (renames : List Rename) (address : String) :
    Option String :=
  ((renames.filter fun rename => addressAt? outline rename.position = some address).getLast?).map
    Rename.name

theorem lastName?_concat (outline : List OutputLine) (renames : List Rename) (rename : Rename) :
    lastName? outline (renames ++ [rename]) =
      match addressAt? outline rename.position with
      | none => lastName? outline renames
      | some address => Function.update (lastName? outline renames) address (some rename.name) := by
  funext other
  unfold lastName?
  rw [List.filter_append]
  cases haddress : addressAt? outline rename.position with
  | none => simp [haddress]
  | some address =>
      by_cases heq : other = address
      · simp [haddress, heq]
      · simp [haddress, heq, Ne.symm heq]

/-- The labels of a block with names given by the user. -/
def renamedLabels? (lines : List String) (context : String) (given? : String → Option String)
    (address : String) : Option Label :=
  (labels? lines context address).map fun label => { label with userLabel := given? address }

theorem renamedLabels?_none (lines : List String) (context : String) :
    renamedLabels? lines context (fun _ => none) = labels? lines context := by
  funext address
  unfold renamedLabels?
  cases hlabel : labels? lines context address with
  | none => rfl
  | some label =>
      obtain ⟨id, rfl⟩ := exists_label_eq hlabel
      rfl

end Block

/-! ## Renaming one label -/

namespace LabelCache

/-- A cache holds the labels of a document, as they were placed by rendering it, with names given
by the user. -/
structure Renamed (lines : List String) (context : String) (given? : String → Option String)
    (cache : LabelCache) : Prop where
  places : Places (Block.renamedLabels? lines context given?) (Block.document lines) cache
  distinct : cache.labels.keys.Nodup

variable {lines : List String} {context : String} {given? : String → Option String}
  {cache : LabelCache}

theorem renamed_decompile_empty (lines : List String) (context : String) :
    Renamed lines context (fun _ => none) ((∅ : LabelCache).decompile lines context).2 where
  places := by
    rw [Block.renamedLabels?_none]
    exact (decompile_empty_spec lines context).2
  distinct := by
    have hempty : (∅ : LabelCache).labels.keys.Nodup := List.nodup_nil
    exact nodup_keys_decompile context hempty lines

namespace Renamed

/-- The label that a line touches is found at the address that the outline has there. -/
theorem addressAtLine?_eq (hrenamed : Renamed lines context given? cache) (position : Nat) :
    cache.addressAtLine? context position =
      Block.addressAt? (Block.document lines) position := by
  refine LabelCache.addressAtLine?_eq context hrenamed.distinct fun address => ?_
  rw [hrenamed.places address, Block.renamedLabels?]
  cases hlabel : Block.labels? lines context address with
  | none =>
      refine iff_of_false (by rintro ⟨label, ⟨⟩, -⟩) fun haddress => ?_
      have htarget := Block.mem_targets_of_addressAt? haddress
      rw [← Block.isSome_labels?_iff lines context, hlabel] at htarget
      cases htarget
  | some label =>
      obtain ⟨id, rfl⟩ := Block.exists_label_eq hlabel
      have htouches := Label.touchesLine_place_iff
        { (Label.fresh id context).countJumps address (Block.jumps lines) with
          userLabel := given? address }
        rfl rfl address (Block.document lines) position
      constructor
      · rintro ⟨label, hfound, -, htouch⟩
        cases hfound
        exact htouches.mp htouch
      · intro haddress
        exact ⟨_, rfl, rfl, htouches.mpr haddress⟩

theorem exists_label (hrenamed : Renamed lines context given? cache) {address : String}
    (haddress : address ∈ Block.targets lines) : ∃ label, cache.get? address = some label := by
  rw [← Option.isSome_iff_exists, hrenamed.places.isSome_iff, Block.renamedLabels?,
    Option.isSome_map, Block.isSome_labels?_iff]
  exact haddress

/-- What renaming does: it gives the label of one address a name, or nothing. -/
theorem rename_eq (hrenamed : Renamed lines context given? cache) (position : Nat) (name : String) :
    cache.rename context position name =
      match Block.addressAt? (Block.document lines) position with
      | none => (none, cache)
      | some address =>
        ((cache.get? address).map Label.displayName,
          cache.modify address fun label => { label with userLabel := some name }) := by
  rw [← hrenamed.addressAtLine?_eq]
  rfl

/-- The label that is renamed is there, answers with the name before, and is the only one that
changes. -/
theorem exists_renamed (hrenamed : Renamed lines context given? cache) {position : Nat}
    {address : String}
    (haddress : Block.addressAt? (Block.document lines) position = some address) (name : String) :
    ∃ label, cache.get? address = some label ∧
      (cache.rename context position name).1 = some label.displayName ∧
      ∀ other, (cache.rename context position name).2.get? other =
        if other = address then some { label with userLabel := some name }
        else cache.get? other := by
  obtain ⟨label, hlabel⟩ := hrenamed.exists_label (Block.mem_targets_of_addressAt? haddress)
  have hanswer := hrenamed.rename_eq position name
  rw [haddress] at hanswer
  dsimp only at hanswer
  refine ⟨label, hlabel, ?_, fun other => ?_⟩
  · rw [hanswer, hlabel, Option.map_some]
  · rw [hanswer]
    refine (Index.get?_modify cache.labels address other _).trans ?_
    rw [← LabelCache.get?, hlabel]
    rfl

theorem modify (hrenamed : Renamed lines context given? cache) (address name : String) :
    Renamed lines context (Function.update given? address (some name))
      (cache.modify address fun label => { label with userLabel := some name }) where
  places := by
    intro other
    refine (Index.get?_modify cache.labels address other _).trans ?_
    by_cases heq : other = address
    · subst heq
      refine (if_pos rfl).trans ((congrArg _ (hrenamed.places other)).trans ?_)
      simp only [Block.renamedLabels?, Function.update_self, Option.map_map]
      rfl
    · refine (if_neg heq).trans ((hrenamed.places other).trans ?_)
      simp only [Block.renamedLabels?, Function.update_of_ne heq]
  distinct := (Index.keys_modify cache.labels address _).symm ▸ hrenamed.distinct

end Renamed

/-- Carries out requests to rename labels of a document. -/
def renameAll (context : String) (cache : LabelCache) (renames : List Rename) : LabelCache :=
  renames.foldl (fun cache rename => (cache.rename context rename.position rename.name).2) cache

theorem renameAll_concat (context : String) (cache : LabelCache) (renames : List Rename)
    (rename : Rename) :
    cache.renameAll context (renames ++ [rename]) =
      ((cache.renameAll context renames).rename context rename.position rename.name).2 :=
  List.foldl_concat _ cache rename renames

namespace Renamed

/-- Each address keeps the last name that it was given. -/
theorem renameAll (hrenamed : Renamed lines context (fun _ => none) cache)
    (renames : List Rename) :
    Renamed lines context (Block.lastName? (Block.document lines) renames)
      (cache.renameAll context renames) := by
  induction renames using List.reverseRecOn with
  | nil => exact hrenamed
  | append_singleton renames rename ih =>
      rw [renameAll_concat, ih.rename_eq, Block.lastName?_concat]
      cases Block.addressAt? (Block.document lines) rename.position with
      | none => exact ih
      | some address => exact ih.modify address rename.name

/-! ## Rendering again -/

end Renamed

end LabelCache

/-! ## The command -/

namespace Command

variable (session : Session Unit) (context : String)

end Command

namespace LabelCache

-- the jump is on the third line and the definition on the first, so the second name stays
example :
    let lines := [
      "0x10                          00 addq rax,1",
      "0x14                          00 jna 0x10",
      ""]
    let first := (∅ : LabelCache).decompile lines "code"
    let renamed := first.2.renameAll "code" [⟨3, "back"⟩, ⟨2, "none"⟩, ⟨1, "again"⟩]
    ((renamed.resetStatistics "code").decompile lines "code").1 =
      ["again:", "  addq rax,1", "  jna again"] := by
  decide +kernel

end LabelCache

end JitTrace
