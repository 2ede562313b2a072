import JitTrace.Transcript
import JitTrace.Workspace
import Mathlib.Data.List.DropRight

/-! # Files that were written

A file that was written is found at its path. The way to it leads through directories that were
there before, and the new file is none of them, so the path leads the same way afterwards.
-/

namespace JitTrace.Workspace

variable {tree next : Workspace}

/-! ## Entries -/

theorem lookup_filter_ne {target location : List String} (hne : location ≠ target)
    (entries : List (List String × Entry)) :
    (entries.filter fun held => held.1 ≠ target).lookup location = entries.lookup location := by
  induction entries with
  | nil => rfl
  | cons held rest ih =>
      obtain ⟨place, entry⟩ := held
      by_cases hplace : place = target
      · have hother : (location == place) = false := by
          rw [hplace]
          exact beq_eq_false_iff_ne.mpr hne
        rw [List.filter_cons_of_neg (by simpa using hplace), ih, List.lookup_cons, hother]
      · rw [List.filter_cons_of_pos (by simpa using hplace), List.lookup_cons, List.lookup_cons, ih]

theorem entryAt?_put_self {target : List String} (htarget : target ≠ []) (entry : Entry) :
    (tree.put target entry).entryAt? target = some entry := by
  rw [entryAt?, if_neg (by simpa using htarget), put, List.lookup_cons, beq_self_eq_true]

theorem entryAt?_put_of_ne {target location : List String} (hne : location ≠ target)
    (entry : Entry) : (tree.put target entry).entryAt? location = tree.entryAt? location := by
  rw [entryAt?, entryAt?, put, List.lookup_cons, beq_eq_false_iff_ne.mpr hne]
  dsimp only
  rw [lookup_filter_ne hne]

theorem checkDirectory_eq_ok_iff {location : List String} :
    tree.checkDirectory location = .ok () ↔ tree.entryAt? location = some .directory := by
  unfold checkDirectory
  split
  next hnone => simp [hnone]
  next hfile => simp [hfile]
  next hdirectory => simp [hdirectory]

/-! ## Walking -/

/-- Where one part of a path leads from a location. -/
def step (tree : Workspace) (location : List String) (part : String) :
    Except IoFault (List String) := do
  tree.checkDirectory location
  if Path.isIdle part then return location
  else if part = ".." then return location.dropLast
  else child location part

theorem walk_cons (tree : Workspace) (location : List String) (part : String)
    (rest : List String) :
    tree.walk location (part :: rest) =
      tree.step location part >>= fun inner => tree.walk inner rest := by
  rw [walk, step]
  cases tree.checkDirectory location with
  | error fault => rfl
  | ok _ =>
      simp only [bind, Except.bind]
      split
      next => rfl
      next =>
        split
        next => rfl
        next => rfl

theorem walk_append (tree : Workspace) (location front rest : List String) :
    tree.walk location (front ++ rest) =
      tree.walk location front >>= fun folder => tree.walk folder rest := by
  induction front generalizing location with
  | nil => rfl
  | cons part front ih =>
      rw [List.cons_append, walk_cons, walk_cons]
      cases tree.step location part with
      | error fault => rfl
      | ok inner => exact ih inner

section

variable {target : List String} (htarget : tree.entryAt? target ≠ some .directory) (entry : Entry)

include htarget

theorem step_put {location inner : List String} {part : String}
    (hstep : tree.step location part = .ok inner) :
    (tree.put target entry).step location part = .ok inner := by
  cases hcheck : tree.checkDirectory location with
  | error fault =>
      rw [step, hcheck] at hstep
      cases hstep
  | ok _ =>
      have hdirectory := checkDirectory_eq_ok_iff.mp hcheck
      have hne : location ≠ target := fun hsame => htarget (hsame ▸ hdirectory)
      have hput : (tree.put target entry).checkDirectory location = .ok () := by
        rw [checkDirectory_eq_ok_iff, entryAt?_put_of_ne hne, hdirectory]
      rw [step, hcheck] at hstep
      rw [step, hput]
      exact hstep

/-- A way through directories stays the same when a file is put where none of them is. -/
theorem walk_put {location parts folder : List String}
    (hwalk : tree.walk location parts = .ok folder) :
    (tree.put target entry).walk location parts = .ok folder := by
  induction parts generalizing location with
  | nil => exact hwalk
  | cons part rest ih =>
      rw [walk_cons] at hwalk ⊢
      cases hstep : tree.step location part with
      | error fault =>
          rw [hstep] at hwalk
          cases hwalk
      | ok inner =>
          rw [hstep] at hwalk
          rw [step_put htarget entry hstep]
          exact ih hwalk

end

/-! ## Names -/

/-- The name that a path ends with is its last part. -/
theorem parts_of_splitName {parts front : List String} {name : String}
    (hsplit : splitName parts = (front, some name, false)) :
    parts = front ++ [name] ∧ Path.isIdle name = false ∧ name ≠ ".." := by
  unfold splitName at hsplit
  dsimp only at hsplit
  split at hsplit
  next => cases hsplit
  next last hlast =>
    split at hsplit
    next => cases hsplit
    next hnamed =>
      simp only [Prod.mk.injEq, Option.some.injEq, decide_eq_false_iff_not, Nat.not_lt,
        List.length_reverse] at hsplit
      obtain ⟨hfront, rfl, hlength⟩ := hsplit
      rw [← List.length_reverse] at hlength
      -- nothing is dropped from the end, so the last part is not empty
      have hkept : parts.reverse.dropWhile (fun part => decide (part = "")) = parts.reverse :=
        (List.dropWhile_suffix _).eq_of_length_le hlength
      rw [hkept, List.reverse_reverse] at hlast hfront
      have hparts : parts = front ++ [last] := by
        rw [← hfront, List.dropLast_append_getLast? last hlast]
      have hsome : last ≠ "" := by
        rintro rfl
        rw [hparts, List.reverse_append, List.reverse_singleton, List.singleton_append,
          List.dropWhile_cons_of_pos (by simp)] at hkept
        have hsuffix : front.reverse.dropWhile (fun part => decide (part = "")) <:+
            front.reverse := List.dropWhile_suffix _
        have hshort := hsuffix.length_le
        rw [hkept, List.length_cons] at hshort
        exact Nat.not_succ_le_self _ hshort
      simp only [Bool.or_eq_true, decide_eq_true_eq, not_or] at hnamed
      refine ⟨hparts, ?_, hnamed.2⟩
      rw [Path.isIdle, Bool.or_eq_false_iff, decide_eq_false_iff_not, decide_eq_false_iff_not]
      exact ⟨hsome, hnamed.1⟩

/-! ## Files -/

/-- How a file is made: its path leads to a directory, and the name in it is not that of another
directory. -/
inductive Writes (tree : Workspace) (path : String) (content : ByteArray) : Workspace → Prop where
  | intro {location front folder : List String} {name : String}
      (hstart : tree.start path = .ok (location, front ++ [name]))
      (hidle : Path.isIdle name = false) (hup : name ≠ "..")
      (hwalk : tree.walk location front = .ok folder)
      (hdirectory : tree.checkDirectory folder = .ok ())
      (hchild : child folder name = .ok (folder ++ [name]))
      (hfree : tree.entryAt? (folder ++ [name]) ≠ some .directory) :
      Writes tree path content (tree.put (folder ++ [name]) (.file content))

theorem exists_of_bind_eq_ok {α β ε : Type} {first : Except ε α} {second : α → Except ε β}
    {result : β} (hbind : first >>= second = .ok result) :
    ∃ value, first = .ok value ∧ second value = .ok result := by
  cases first with
  | error fault => cases hbind
  | ok value => exact ⟨value, rfl, hbind⟩

theorem eq_of_child {folder target : List String} {name : String}
    (hchild : child folder name = .ok target) : target = folder ++ [name] := by
  unfold child at hchild
  split at hchild
  next => cases hchild
  next => exact (Except.ok.inj hchild).symm

theorem writes_of_writeFile {path : String} {content : ByteArray}
    (hwrite : tree.writeFile path content = .ok next) : tree.Writes path content next := by
  obtain ⟨⟨location, parts⟩, hstart, hwrite⟩ := exists_of_bind_eq_ok hwrite
  rcases hsplit : splitName parts with ⟨front, name, trailing⟩
  dsimp only at hwrite
  rw [hsplit] at hwrite
  obtain ⟨folder, hwalk, hwrite⟩ := exists_of_bind_eq_ok hwrite
  obtain ⟨⟨⟩, hdirectory, hwrite⟩ := exists_of_bind_eq_ok hwrite
  cases name with
  | none => cases hwrite
  | some name =>
      cases trailing with
      | true => cases hwrite
      | false =>
          obtain ⟨target, hchild, hwrite⟩ := exists_of_bind_eq_ok hwrite
          obtain rfl := eq_of_child hchild
          obtain ⟨rfl, hidle, hup⟩ := parts_of_splitName hsplit
          split at hwrite
          next => cases hwrite
          next hfree =>
            obtain rfl := Except.ok.inj hwrite
            exact .intro hstart hidle hup hwalk hdirectory hchild hfree

/-- A file that was written is found at its path. -/
theorem openFile_of_writeFile {path : String} {content : ByteArray}
    (hwrite : tree.writeFile path content = .ok next) :
    next.openFile path = .ok (.ofBytes content.toList) := by
  cases writes_of_writeFile hwrite with
  | @intro location front folder name hstart hidle hup hwalk hdirectory hchild hfree =>
      have htarget : folder ++ [name] ≠ [] := by simp
      have hstep : tree.step folder name = .ok (folder ++ [name]) := by
        rw [step, hdirectory]
        simp [hidle, hup, hchild, bind, Except.bind]
      have hway : tree.walk location (front ++ [name]) = .ok (folder ++ [name]) := by
        rw [walk_append, hwalk]
        exact (walk_cons tree folder name []).trans (by rw [hstep]; rfl)
      have hafter := walk_put hfree (.file content) hway
      have hresolve : (tree.put (folder ++ [name]) (.file content)).resolve path =
          .ok (folder ++ [name], .file content) := by
        rw [resolve, show (tree.put (folder ++ [name]) (.file content)).start path = _ from hstart]
        simp only [bind, Except.bind, hafter, entryAt?_put_self htarget]
        rfl
      rw [openFile, hresolve]

/-! ## Actions on a tree -/

section

variable {α β ε : Type}

/-- The answer of an action on a file tree, with the transcript and the tree behind it. -/
def run (tree : Workspace) (transcript : Transcript)
    (action : ExceptT ε (Recorded (StateM Workspace)) α) :
    (Except ε α × Transcript) × Workspace :=
  StateT.run (StateT.run action.run transcript) tree

theorem run_bind (tree : Workspace) (transcript : Transcript)
    (first : ExceptT ε (Recorded (StateM Workspace)) α)
    (second : α → ExceptT ε (Recorded (StateM Workspace)) β) :
    tree.run transcript (first >>= second) =
      match tree.run transcript first with
      | ((.ok value, middle), between) => between.run middle (second value)
      | ((.error fault, middle), between) => ((.error fault, middle), between) := by
  simp only [run, ExceptT.run_bind, StateT.run_bind]
  rcases StateT.run (StateT.run first.run transcript) tree with ⟨⟨answer, middle⟩, between⟩
  cases answer <;> rfl

theorem exists_of_run_bind {tree next : Workspace} {transcript later : Transcript}
    {first : ExceptT ε (Recorded (StateM Workspace)) α}
    {second : α → ExceptT ε (Recorded (StateM Workspace)) β} {result : β}
    (hrun : tree.run transcript (first >>= second) = ((.ok result, later), next)) :
    ∃ value middle between, tree.run transcript first = ((.ok value, middle), between) ∧
      between.run middle (second value) = ((.ok result, later), next) := by
  rw [run_bind] at hrun
  split at hrun
  next value middle between hfirst => exact ⟨value, middle, between, hfirst, hrun⟩
  next => cases hrun

theorem run_writeFile (tree : Workspace) (transcript : Transcript) (path text : String) :
    tree.run transcript
        (FileSystem.writeFile path text : ExceptT ε (Recorded (StateM Workspace)) _) =
      match tree.writeFile path text.toUTF8 with
      | .ok next => ((.ok (.ok ()), transcript), next)
      | .error fault => ((.ok (.error fault), transcript), tree) := by
  show ((Except.ok (StateT.run (commit (tree.writeFile path text.toUTF8)) tree).1, transcript),
    (StateT.run (commit (tree.writeFile path text.toUTF8)) tree).2) = _
  cases tree.writeFile path text.toUTF8 <;> rfl

theorem run_openFile (tree : Workspace) (transcript : Transcript) (path : String) :
    tree.run transcript (FileSystem.openFile path : ExceptT ε (Recorded (StateM Workspace)) _) =
      ((.ok (tree.openFile path), transcript), tree) := rfl

theorem run_remark (tree : Workspace) (transcript : Transcript) (message : Message) :
    tree.run transcript (remark message : ExceptT ε (Recorded (StateM Workspace)) Unit) =
      ((.ok (), { transcript with messages := transcript.messages ++ [message] }), tree) := rfl

theorem run_require {δ : Type} (tree : Workspace) (transcript : Transcript) (wrap : δ → ε)
    (answer : Except δ α) :
    tree.run transcript (require wrap answer : ExceptT ε (Recorded (StateM Workspace)) α) =
      ((answer.mapError wrap, transcript), tree) := by
  cases answer <;> rfl

end

end JitTrace.Workspace
