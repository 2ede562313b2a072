import JitTrace.Proofs.Json.Document
import JitTrace.Report.Read
import JitTrace.Report.Write

/-! # Decoding what reports are written from

Every part of a report is decoded from the node of its value, wherever the part stands deep enough
below the limit. Its members come in the order in which they were written, each of them once, so
each one fills the field of its name and the draft is complete at the end.
-/

namespace JitTrace

namespace Json

theorem once_ok {α : Type} (value : α) : once none (.ok value) = .ok (some value) := rfl

theorem asNat_node {bound value : Nat} (hlt : value < bound) (hbound : bound ≤ UInt64.size) :
    (Value.number value).node.asNat bound = .ok value := by
  rw [Value.node, numeralOfNat_of_lt (Nat.lt_of_lt_of_le hlt hbound)]
  exact if_pos hlt

theorem exists_fault_of_asNat {bound value : Nat} (hle : bound ≤ value) :
    ∃ fault, (Value.number value).node.asNat bound = .error fault := by
  rw [Value.node]
  cases hnumeral : numeralOfNat value with
  | natural found =>
      obtain rfl := eq_of_numeralOfNat hnumeral
      exact ⟨.mismatch, if_neg (Nat.not_lt.mpr hle)⟩
  | other => exact ⟨.mismatch, rfl⟩
  | tooLarge => exact ⟨.malformed, rfl⟩

theorem asUInt64_node (value : UInt64) :
    (Value.number value.toNat).node.asUInt64 = .ok value := by
  rw [Node.asUInt64, asNat_node value.toNat_lt_size (Nat.le_refl _)]
  exact congrArg Except.ok UInt64.ofNat_toNat

theorem asUInt32_node (value : UInt32) :
    (Value.number value.toNat).node.asUInt32 = .ok value := by
  rw [Node.asUInt32, asNat_node value.toNat_lt_size (by decide)]
  exact congrArg Except.ok UInt32.ofNat_toNat

theorem mapM_nodes {α : Type} {decode : Node → Except Fault α} {encode : α → Value}
    {items : List α} (hdecode : ∀ item ∈ items, decode (encode item).node = .ok item) :
    (Value.nodes (items.map encode)).mapM decode = .ok items := by
  induction items with
  | nil => rfl
  | cons item rest ih =>
      obtain ⟨hitem, hrest⟩ := List.forall_mem_cons.mp hdecode
      rw [List.map_cons, Value.nodes, List.mapM_cons, hitem, ih hrest]
      rfl

/-- A written list is decoded if each of its items is, one level deeper. -/
theorem asList_node {α : Type} {decode : Nat → Node → Except Fault α} {encode : α → Value}
    {depth : Nat} {items : List α}
    (hdecode : ∀ item ∈ items, decode depth (encode item).node = .ok item) (hdepth : 0 < depth) :
    (Value.array (items.map encode)).node.asList decode (depth + 1) = .ok items := by
  rw [Value.node, Node.asList, if_neg (by omega), Nat.add_sub_cancel, mapM_nodes hdecode]
  rfl

theorem foldMembers_node {σ : Type} {step : σ → String → Node → Except Fault σ}
    {state next : σ} {key : String} {value : Value}
    (hstep : step state key value.node = .ok next) (rest : List (String × Value)) :
    Node.foldMembers step state (Value.memberNodes ((key, value) :: rest)) =
      Node.foldMembers step next (Value.memberNodes rest) := by
  rw [Value.memberNodes, Node.foldMembers, hstep]
  rfl

theorem foldObject_node {σ : Type} (step : Nat → σ → String → Node → Except Fault σ) (state : σ)
    {depth : Nat} (hdepth : 0 < depth) (members : List (String × Value)) :
    (Value.object members).node.foldObject step state (depth + 1) =
      Node.foldMembers (step depth) state (Value.memberNodes members) := by
  rw [Value.node, Node.foldObject, if_neg (by omega), Nat.add_sub_cancel]
  cases Node.foldMembers (step depth) state (Value.memberNodes members) <;> rfl

theorem foldRecord_node {σ : Type} (names : List String)
    (step : Nat → σ → String → Node → Except Fault σ) (state : σ)
    {depth : Nat} (hdepth : 0 < depth) (members : List (String × Value)) :
    (Value.object members).node.foldRecord names step state (depth + 1) =
      Node.foldMembers (step depth) state (Value.memberNodes members) := by
  rw [← foldObject_node step state hdepth members]
  rfl

end Json

open Json

theorem MemoryArea.ofJson_node (memory : MemoryArea) {depth : Nat} (hdepth : 0 < depth) :
    MemoryArea.ofJson (depth + 1) memory.toJson.node = .ok memory := by
  rw [MemoryArea.ofJson, MemoryArea.toJson, foldRecord_node _ _ _ hdepth]
  have hstart : MemoryDraft.step depth ⟨none, none⟩ "start" (Value.string memory.start).node =
      .ok ⟨some memory.start, none⟩ := rfl
  have hsize : MemoryDraft.step depth ⟨some memory.start, none⟩ "size"
      (Value.number memory.size.toNat).node = .ok ⟨some memory.start, some memory.size⟩ := by
    simp only [MemoryDraft.step, asUInt64_node]
    rfl
  rw [foldMembers_node hstart, foldMembers_node hsize]
  rfl

/-! ## Events -/

theorem MemoryArea.settle_node (memory : MemoryArea) {depth : Nat} (hdepth : 1 < depth) :
    memory.toJson.node.settle depth = .ok () := by
  have hsize : numeralOfNat memory.size.toNat = .natural memory.size.toNat :=
    numeralOfNat_of_lt memory.size.toNat_lt_size
  rw [MemoryArea.toJson, Value.node, Node.settle, if_neg (by omega)]
  simp only [Value.memberNodes, Value.node, hsize]
  rfl

/-- The members in which kinds of events differ are of a shape that can be kept. -/
theorem EventKind.members_kept (kind : EventKind) {depth : Nat} (hdepth : 1 < depth) :
    ∀ member ∈ kind.members, member.1 ≠ "at" ∧ member.2.node.settle depth = .ok () := by
  cases kind with
  | parse memory =>
      rw [members, List.forall_mem_singleton]
      exact ⟨by simp, memory.settle_node hdepth⟩
  | compileStart => exact List.forall_mem_nil _
  | compileEnd memory =>
      rw [members, List.forall_mem_singleton]
      exact ⟨by simp, memory.settle_node hdepth⟩
  | deoptimize reason position =>
      rw [members, List.forall_mem_cons, List.forall_mem_singleton]
      exact ⟨⟨by simp, rfl⟩, ⟨by simp, rfl⟩⟩

/-- Members other than the time are kept in order. -/
theorem EventDraft.foldMembers_kept {depth : Nat} (draft : EventDraft)
    {members : List (String × Value)}
    (hkept : ∀ member ∈ members, member.1 ≠ "at" ∧ member.2.node.settle depth = .ok ()) :
    Node.foldMembers (EventDraft.step depth) draft (Value.memberNodes members) =
      .ok ⟨draft.time, draft.members ++ members.map fun member => (member.1, member.2.node)⟩ := by
  induction members generalizing draft with
  | nil =>
      rw [List.map_nil, List.append_nil]
      rfl
  | cons member rest ih =>
      obtain ⟨key, value⟩ := member
      obtain ⟨⟨hkey, hvalue⟩, hrest⟩ := List.forall_mem_cons.mp hkept
      have hstep : EventDraft.step depth draft key value.node =
          .ok { draft with members := draft.members ++ [(key, value.node)] } := by
        unfold EventDraft.step
        split
        next => exact absurd rfl hkey
        next =>
          rw [hvalue]
          rfl
      rw [foldMembers_node hstep, ih _ hrest, List.append_assoc]
      rfl

/-- Two members of the keys of an event with a memory area. -/
theorem soleMember_pair (first second : Node) :
    soleMember "name" [("name", first), ("memory", second)] = .ok first ∧
      soleMember "memory" [("name", first), ("memory", second)] = .ok second :=
  ⟨rfl, rfl⟩

theorem EventKind.ofMembers_node (kind : EventKind) :
    EventKind.ofMembers (("name", (Value.string kind.label).node) ::
      kind.members.map fun member => (member.1, member.2.node)) = .ok kind := by
  have hmemory : ∀ memory : MemoryArea,
      MemoryArea.ofJson depthLimit memory.toJson.node = .ok memory :=
    fun memory => memory.ofJson_node (by decide)
  cases kind with
  | parse memory =>
      obtain ⟨hname, hsole⟩ := soleMember_pair (Value.string "parse").node memory.toJson.node
      simp only [ofMembers, members, label, List.map_cons, List.map_nil, hname, hsole, bind,
        Except.bind, hmemory]
      rfl
  | compileStart => rfl
  | compileEnd memory =>
      obtain ⟨hname, hsole⟩ := soleMember_pair (Value.string "compile-end").node
        memory.toJson.node
      simp only [ofMembers, members, label, List.map_cons, List.map_nil, hname, hsole, bind,
        Except.bind, hmemory]
      rfl
  | deoptimize reason position => rfl

theorem Event.ofJson_node (event : Event) {depth : Nat} (hdepth : 1 < depth) :
    Event.ofJson (depth + 1) event.toJson.node = .ok event := by
  have htime : EventDraft.step depth ⟨none, []⟩ "at" (Value.number event.time.toNat).node =
      .ok ⟨some event.time, []⟩ := by
    simp only [EventDraft.step, asUInt64_node]
    rfl
  have hkept : ∀ member ∈ ("name", Value.string event.label) :: event.kind.members,
      member.1 ≠ "at" ∧ member.2.node.settle depth = .ok () :=
    List.forall_mem_cons.mpr ⟨⟨by simp, rfl⟩, event.kind.members_kept hdepth⟩
  rw [Event.ofJson, Event.toJson, foldObject_node _ _ (by omega), foldMembers_node htime,
    EventDraft.foldMembers_kept _ hkept]
  show EventDraft.finish ⟨some event.time, ("name", (Value.string event.kind.label).node) ::
    event.kind.members.map fun member => (member.1, member.2.node)⟩ = _
  rw [EventDraft.finish, EventKind.ofMembers_node]
  rfl

/-! ## Records -/

theorem Declaration.ofJson_node (declaration : Declaration) {depth : Nat} (hdepth : 0 < depth) :
    Declaration.ofJson (depth + 1) declaration.toJson.node = .ok declaration := by
  rw [Declaration.ofJson, Declaration.toJson, foldRecord_node _ _ _ hdepth]
  simp only [Value.memberNodes, Node.foldMembers, DeclarationDraft.step, asUInt32_node, once_ok]
  rfl

theorem FunctionInsight.ofJson_node (function : FunctionInsight) {depth : Nat}
    (hdepth : 3 < depth) :
    FunctionInsight.ofJson (depth + 1) function.toJson.node = .ok function := by
  obtain ⟨inner, rfl⟩ : ∃ inner, depth = inner + 2 := ⟨depth - 2, by omega⟩
  have hinner : 1 < inner := by omega
  have hdeclaration := function.declaration.ofJson_node (Nat.succ_pos inner)
  have hevents : (Value.array (function.events.map Event.toJson)).node.asList Event.ofJson
      (inner + 2) = .ok function.events :=
    asList_node (fun event _ => event.ofJson_node hinner) (Nat.succ_pos inner)
  rw [FunctionInsight.ofJson, FunctionInsight.toJson, foldRecord_node _ _ _ (by omega)]
  obtain ⟨name, declaration, events, isCompiled, wasDeoptimized, compileTime⟩ := function
  cases compileTime with
  | none =>
      simp only [compileTimeMember, List.append_nil, Value.memberNodes, Node.foldMembers,
        FunctionDraft.step, hdeclaration, hevents]
      rfl
  | some time =>
      have htime : (Value.number time.toNat).node.asOption Node.asUInt64 = .ok (some time) := by
        show (some <$> (Value.number time.toNat).node.asUInt64) = _
        rw [asUInt64_node]
        rfl
      simp only [compileTimeMember, List.cons_append, List.nil_append, Value.memberNodes,
        Node.foldMembers, FunctionDraft.step, hdeclaration, hevents, htime]
      rfl

theorem FileInsight.ofJson_node (file : FileInsight) {depth : Nat} (hdepth : 5 < depth) :
    FileInsight.ofJson (depth + 1) file.toJson.node = .ok file := by
  obtain ⟨inner, rfl⟩ : ∃ inner, depth = inner + 2 := ⟨depth - 2, by omega⟩
  have hinner : 3 < inner := by omega
  have hfunctions : (Value.array (file.functions.map FunctionInsight.toJson)).node.asList
      FunctionInsight.ofJson (inner + 2) = .ok file.functions :=
    asList_node (fun function _ => function.ofJson_node hinner) (Nat.succ_pos inner)
  rw [FileInsight.ofJson, FileInsight.toJson, foldRecord_node _ _ _ (by omega)]
  simp only [Value.memberNodes, Node.foldMembers, FileDraft.step, hfunctions]
  rfl

/-- A report whose counts fit 64 bits. -/
structure Report.Fits (report : Report) : Prop where
  functionCount_lt : report.functionCount < UInt64.size
  deoptimizedCount_lt : report.deoptimizedCount < UInt64.size

/-- A report is decoded exactly if its counts fit. -/
theorem Report.ofJson_node_iff (report other : Report) {depth : Nat} (hdepth : 7 < depth) :
    Report.ofJson (depth + 1) report.toJson.node = .ok other ↔ report.Fits ∧ other = report := by
  obtain ⟨inner, rfl⟩ : ∃ inner, depth = inner + 2 := ⟨depth - 2, by omega⟩
  have hinner : 5 < inner := by omega
  have hfiles : (Value.array (report.files.map FileInsight.toJson)).node.asList
      FileInsight.ofJson (inner + 2) = .ok report.files :=
    asList_node (fun file _ => file.ofJson_node hinner) (Nat.succ_pos inner)
  rw [Report.ofJson, Report.toJson, foldRecord_node _ _ _ (by omega)]
  simp only [Value.memberNodes, Node.foldMembers, ReportDraft.step, ReportDraft.count, hfiles]
  rcases Nat.lt_or_ge report.functionCount UInt64.size with hfunctions | hfunctions
  · rcases Nat.lt_or_ge report.deoptimizedCount UInt64.size with hdeoptimized | hdeoptimized
    · simp only [asNat_node hfunctions (Nat.le_refl _), asNat_node hdeoptimized (Nat.le_refl _)]
      have hread : Except.ok report = (Except.ok other : Except Fault Report) ↔ other = report :=
        ⟨fun hok => (Except.ok.inj hok).symm, fun hsame => hsame ▸ rfl⟩
      exact hread.trans (and_iff_right ⟨hfunctions, hdeoptimized⟩).symm
    · obtain ⟨fault, hfault⟩ := exists_fault_of_asNat hdeoptimized
      simp only [asNat_node hfunctions (Nat.le_refl _), hfault]
      exact iff_of_false (fun hok => by cases hok)
        (fun hfits => Nat.not_lt.mpr hdeoptimized hfits.1.deoptimizedCount_lt)
  · obtain ⟨fault, hfault⟩ := exists_fault_of_asNat hfunctions
    simp only [hfault]
    exact iff_of_false (fun hok => by cases hok)
      (fun hfits => Nat.not_lt.mpr hfunctions hfits.1.functionCount_lt)

end JitTrace
