import JitTrace.Code.Decompile
import JitTrace.Proofs.Index
import Mathlib.Data.Finset.Card
import Mathlib.Data.List.Induction
import Mathlib.Data.List.TakeWhile

/-! # The labels of the jumps of a block

The first pass over a block goes from line to line and changes the labels as it meets jumps. Here
its outcome is described address by address, from the list of the jumps in range: which addresses
have a label in the end, how new labels are numbered, and what has been counted for each.
-/

namespace JitTrace

/-- A jump from the line at one address to another address that it names. -/
structure DirectJump where
  source : String
  target : String
  deriving DecidableEq, Repr

/-- The direct jump on a line. -/
def DirectJump.ofLine? (line : String) : Option DirectJump :=
  match Jump.ofInstruction? (InstructionLine.instructionOf line) with
  | some (.direct _ target) => some ⟨InstructionLine.addressOf line, target⟩
  | _ => none

/-! ## Jumps in range -/

namespace Block

/-- An address is in range if it lies, as text, between the addresses of the first line and of
the last line but one. -/
def InRange (lines : List String) (address : String) : Prop :=
  ∃ hlines : 2 ≤ lines.length,
    InstructionLine.addressOf lines[0] ≤ address ∧
      address ≤ InstructionLine.addressOf lines[lines.length - 2]

instance (lines : List String) : DecidablePred (InRange lines) :=
  fun _ => inferInstanceAs (Decidable (∃ _ : _, _))

/-- The direct jumps of a block whose targets are in range, in the order of the lines. -/
def jumps (lines : List String) : List DirectJump :=
  (lines.filterMap DirectJump.ofLine?).filter fun jump => InRange lines jump.target

theorem ofBlock?_eq {lines : List String} (hlines : 2 ≤ lines.length) :
    CodeRange.ofBlock? lines =
      some ⟨InstructionLine.addressOf lines[0],
        InstructionLine.addressOf lines[lines.length - 2]⟩ := by
  have hfirst : lines.head? = some lines[0] := by
    rw [List.head?_eq_getElem?, List.getElem?_eq_getElem]
  have hlast : lines.dropLast.getLast? = some lines[lines.length - 2] := by
    rw [List.getLast?_dropLast, if_neg (by omega), List.getElem?_eq_getElem]
  unfold CodeRange.ofBlock?
  rw [hfirst, hlast]
  rfl

theorem ofBlock?_eq_none {lines : List String} (hlines : ¬ 2 ≤ lines.length) :
    CodeRange.ofBlock? lines = none := by
  have hlast : lines.dropLast.getLast? = none := by
    rw [List.getLast?_dropLast, if_pos (by omega)]
  unfold CodeRange.ofBlock?
  rw [hlast]
  cases lines.head? <;> rfl

/-- The range that both passes compare with holds the addresses in range. -/
theorem any_contains_ofBlock? (lines : List String) (address : String) :
    ((CodeRange.ofBlock? lines).any fun range => range.contains address) =
      decide (InRange lines address) := by
  by_cases hlines : 2 ≤ lines.length
  · rw [ofBlock?_eq hlines]
    rw [Option.any_some, Bool.eq_iff_iff]
    simp only [CodeRange.contains, InRange, hlines, exists_true_left, Bool.not_eq_true',
      Bool.or_eq_false_iff, decide_eq_false_iff_not, decide_eq_true_eq, String.not_lt]
    exact and_comm
  · rw [ofBlock?_eq_none hlines]
    simp [InRange, hlines]

end Block

/-! ## Counting jumps -/

/-- The label of an address with all the jumps to it counted. -/
def Label.countJumps (label : Label) (address : String) (jumps : List DirectJump) : Label :=
  let reaching := jumps.filter fun jump => jump.target = address
  { label with
    jumpCount := label.jumpCount + UInt32.ofNat reaching.length
    backward := label.backward || reaching.any fun jump => address < jump.source
    forward := label.forward || reaching.any fun jump => jump.source < address }

namespace Label

variable (label : Label) (address : String) (jumps : List DirectJump)

theorem countJumps_concat_of_ne {jump : DirectJump} (hne : jump.target ≠ address) :
    label.countJumps address (jumps ++ [jump]) = label.countJumps address jumps := by
  simp [countJumps, List.filter_append, hne]

theorem countJumps_concat (jump : DirectJump) :
    label.countJumps jump.target (jumps ++ [jump]) =
      (label.countJumps jump.target jumps).countJump jump.source jump.target := by
  simp [countJumps, countJump, List.filter_append, UInt32.ofNat_add, UInt32.add_assoc,
    Bool.or_assoc]

/-- Nothing is counted for an address that no jump reaches. -/
theorem countJumps_of_not_mem (hnot : address ∉ jumps.map DirectJump.target) :
    label.countJumps address jumps = label := by
  have hnone : (jumps.filter fun jump => jump.target = address) = [] := by
    rw [List.filter_eq_nil_iff]
    intro jump hjump heq
    exact hnot (List.mem_map.mpr ⟨jump, hjump, of_decide_eq_true heq⟩)
  simp [countJumps, hnone]

end Label

/-- The jumps before the first one to an address stay the same behind such a jump. -/
theorem takeWhile_concat_of_mem {jumps : List DirectJump} {address : String}
    (hmem : address ∈ jumps.map DirectJump.target) (jump : DirectJump) :
    (jumps ++ [jump]).takeWhile (fun jump => jump.target ≠ address) =
      jumps.takeWhile fun jump => jump.target ≠ address := by
  obtain ⟨reaching, hreaching, htarget⟩ := List.mem_map.mp hmem
  rw [List.takeWhile_append, if_neg]
  intro hlength
  have hall := (List.takeWhile_prefix fun jump : DirectJump =>
    decide (jump.target ≠ address)).eq_of_length hlength
  rw [List.takeWhile_eq_self_iff] at hall
  exact of_decide_eq_true (hall reaching hreaching) htarget

/-- All jumps but the last come before the first one to an address that only the last reaches. -/
theorem takeWhile_concat_of_not_mem {jumps : List DirectJump} {jump : DirectJump}
    (hnot : jump.target ∉ jumps.map DirectJump.target) :
    (jumps ++ [jump]).takeWhile (fun other => other.target ≠ jump.target) = jumps := by
  rw [List.takeWhile_append_of_pos]
  · simp
  · intro other hother
    exact decide_eq_true fun heq => hnot (List.mem_map.mpr ⟨other, hother, heq⟩)

namespace LabelCache

variable (cache : LabelCache) (context : String) (jumps : List DirectJump)

/-- The targets of jumps that have no label yet. -/
def newTargets (cache : LabelCache) (jumps : List DirectJump) : Finset String :=
  ((jumps.map DirectJump.target).filter fun target => cache.get? target = none).toFinset

/-- The label of an address after the first pass. A label that is there is kept; a new one is
numbered by how many other new targets are reached before its own. -/
def discovered? (cache : LabelCache) (context : String) (jumps : List DirectJump)
    (address : String) : Option Label :=
  match cache.get? address with
  | some label => some (label.countJumps address jumps)
  | none =>
    if address ∈ jumps.map DirectJump.target then
      let earlier := jumps.takeWhile fun jump => jump.target ≠ address
      let label := Label.fresh (cache.newTargets earlier).card context
      some (label.countJumps address jumps)
    else none

theorem mem_newTargets (address : String) :
    address ∈ cache.newTargets jumps ↔
      cache.get? address = none ∧ address ∈ jumps.map DirectJump.target := by
  simp only [newTargets, List.mem_toFinset, List.mem_filter, decide_eq_true_eq]
  exact and_comm

theorem discovered?_eq_none_iff (address : String) :
    cache.discovered? context jumps address = none ↔
      cache.get? address = none ∧ address ∉ jumps.map DirectJump.target := by
  unfold discovered?
  cases hfound : cache.get? address with
  | some label => simp
  | none =>
      by_cases hmem : address ∈ jumps.map DirectJump.target
      · simp [hmem]
      · simp [hmem]

theorem discovered?_concat_of_ne {jump : DirectJump} {address : String}
    (hne : jump.target ≠ address) :
    cache.discovered? context (jumps ++ [jump]) address =
      cache.discovered? context jumps address := by
  have hmem : address ∈ (jumps ++ [jump]).map DirectJump.target ↔
      address ∈ jumps.map DirectJump.target := by
    simp [Ne.symm hne]
  unfold discovered?
  cases hfound : cache.get? address with
  | some label => simp only [Label.countJumps_concat_of_ne label address jumps hne]
  | none =>
      simp only [hmem, Label.countJumps_concat_of_ne _ address jumps hne]
      by_cases hreached : address ∈ jumps.map DirectJump.target
      · rw [if_pos hreached, if_pos hreached, takeWhile_concat_of_mem hreached]
      · rw [if_neg hreached, if_neg hreached]

/-- The label that a further jump reaches is the one before it with this jump counted, or the
next new one. -/
theorem discovered?_concat (jump : DirectJump) :
    cache.discovered? context (jumps ++ [jump]) jump.target =
      some (((cache.discovered? context jumps jump.target).getD
        (.fresh (cache.newTargets jumps).card context)).countJump jump.source jump.target) := by
  have hlast : jump.target ∈ (jumps ++ [jump]).map DirectJump.target := by
    simp
  unfold discovered?
  cases hfound : cache.get? jump.target with
  | some label => simp only [Label.countJumps_concat, Option.getD_some]
  | none =>
      simp only [if_pos hlast, Label.countJumps_concat]
      -- a target that was reached before got its number there
      by_cases hreached : jump.target ∈ jumps.map DirectJump.target
      · rw [if_pos hreached, takeWhile_concat_of_mem hreached, Option.getD_some]
      · rw [if_neg hreached, takeWhile_concat_of_not_mem hreached, Option.getD_none,
          Label.countJumps_of_not_mem _ jump.target jumps hreached]

theorem newTargets_concat (jump : DirectJump) :
    cache.newTargets (jumps ++ [jump]) =
      if cache.get? jump.target = none then insert jump.target (cache.newTargets jumps)
      else cache.newTargets jumps := by
  ext address
  split
  next hnew =>
    simp only [mem_newTargets, Finset.mem_insert, List.map_append, List.mem_append, List.map_cons,
      List.map_nil, List.mem_singleton]
    constructor
    · rintro ⟨hnone, hmem | heq⟩
      · exact Or.inr ⟨hnone, hmem⟩
      · exact Or.inl heq
    · rintro (rfl | ⟨hnone, hmem⟩)
      · exact ⟨hnew, Or.inr rfl⟩
      · exact ⟨hnone, Or.inl hmem⟩
  next hold =>
    simp only [mem_newTargets, List.map_append, List.mem_append, List.map_cons, List.map_nil,
      List.mem_singleton]
    refine and_congr_right fun hnone => or_iff_left ?_
    rintro rfl
    exact hold hnone

/-- Counts one jump whose target is in range. -/
def countJump (context : String) (cache : LabelCache) (jump : DirectJump) : LabelCache :=
  (cache.ensure jump.target context).modify jump.target fun label =>
    label.countJump jump.source jump.target

theorem get?_countJump (jump : DirectJump) (address : String) :
    (cache.countJump context jump).get? address =
      if address = jump.target then
        some (((cache.get? jump.target).getD (.fresh cache.nextId context)).countJump jump.source
          jump.target)
      else cache.get? address := by
  have hensure : ∀ address, (cache.ensure jump.target context).get? address =
      if address = jump.target then
        some ((cache.get? jump.target).getD (.fresh cache.nextId context))
      else cache.get? address := by
    intro address
    unfold ensure
    split
    next label hfound =>
      rw [hfound, Option.getD_some]
      split
      next heq => rw [heq, hfound]
      next => rfl
    next hnone =>
      rw [hnone, Option.getD_none]
      exact Index.get?_insert cache.labels jump.target address _
  refine (Index.get?_modify _ jump.target address _).trans ?_
  split
  next heq => exact (congrArg _ (hensure jump.target)).trans (by rw [if_pos rfl, Option.map_some])
  next hne => exact (hensure address).trans (if_neg hne)

theorem nextId_countJump (jump : DirectJump) :
    (cache.countJump context jump).nextId =
      if cache.get? jump.target = none then cache.nextId + 1 else cache.nextId := by
  unfold countJump ensure
  cases hfound : cache.get? jump.target with
  | some label => rfl
  | none => rfl

theorem countLine_eq (range : CodeRange) (line : String) :
    countLine range context cache line =
      ((DirectJump.ofLine? line).filter fun jump => range.contains jump.target).elim cache
        (cache.countJump context) := by
  simp only [countLine, DirectJump.ofLine?, InstructionLine.ofLine]
  cases Jump.ofInstruction? (InstructionLine.instructionOf line) with
  | none => rfl
  | some jump =>
      cases jump with
      | indirect mnemonic operand => rfl
      | direct mnemonic target =>
          by_cases hrange : range.contains target
          · simp [Option.filter, hrange, countJump]
          · simp [Option.filter, hrange]

/-- The first pass counts the jumps in range, in the order of their lines. -/
theorem discover_eq (lines : List String) :
    cache.discover (CodeRange.ofBlock? lines) context lines =
      (Block.jumps lines).foldl (countJump context) cache := by
  unfold Block.jumps discover
  simp only [← Block.any_contains_ofBlock?]
  cases CodeRange.ofBlock? lines with
  | none => simp
  | some range =>
      simp only [Option.any_some]
      rw [List.filter_filterMap, List.foldl_filterMap]
      congr 1
      funext cache line
      rw [countLine_eq]
      cases (DirectJump.ofLine? line).filter fun jump => range.contains jump.target <;> rfl

/-- Counting jumps one by one, with identifiers from zero, finds the labels that the jumps
together call for. -/
theorem foldl_countJump (hnext : cache.nextId = 0) :
    (∀ address, (jumps.foldl (countJump context) cache).get? address =
      cache.discovered? context jumps address) ∧
    (jumps.foldl (countJump context) cache).nextId = (cache.newTargets jumps).card := by
  induction jumps using List.reverseRecOn with
  | nil =>
      refine ⟨fun address => ?_, hnext⟩
      unfold discovered?
      cases hfound : cache.get? address with
      | some label => simp [hfound, Label.countJumps_of_not_mem]
      | none => simp [hfound]
  | append_singleton jumps jump ih =>
      -- the next identifier is the number of new targets, and so the rank of the next one
      obtain ⟨hlabels, hnumber⟩ := ih
      rw [List.foldl_append, List.foldl_cons, List.foldl_nil]
      constructor
      · intro address
        rw [get?_countJump, hlabels, hlabels, hnumber]
        by_cases heq : address = jump.target
        · rw [if_pos heq, heq, discovered?_concat]
        · rw [if_neg heq, discovered?_concat_of_ne cache context jumps (Ne.symm heq)]
      · rw [nextId_countJump, hlabels, hnumber, newTargets_concat]
        by_cases hreached : jump.target ∈ cache.newTargets jumps
        · have hnew := (mem_newTargets cache jumps jump.target).mp hreached
          rw [if_neg (by simp [discovered?_eq_none_iff, hnew.2]), if_pos hnew.1,
            Finset.insert_eq_of_mem hreached]
        · have hiff : cache.discovered? context jumps jump.target = none ↔
              cache.get? jump.target = none := by
            rw [discovered?_eq_none_iff, and_iff_left_iff_imp]
            exact fun hnone hmem => hreached ((mem_newTargets ..).mpr ⟨hnone, hmem⟩)
          by_cases hnone : cache.get? jump.target = none
          · rw [if_pos (hiff.mpr hnone), if_pos hnone, Finset.card_insert_of_notMem hreached]
          · rw [if_neg (mt hiff.mp hnone), if_neg hnone]

end LabelCache

end JitTrace
