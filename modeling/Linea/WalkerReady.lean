import Linea.Walker
import Linea.ValidateStructure

/-! Readiness as a property of the completed map, and the queue the walker keeps for it.
On a well-formed graph none of the walker's lookups throws as long as the recorded outputs of
branch nodes can be read. -/
namespace Linea.Walker
open ExceptLaws WorkflowGraph OrderedMap Validate

variable {g : WorkflowGraph} {c d : CompletedMap}

def IsBranch (g : WorkflowGraph) (id : String) : Prop :=
  ∃ node, g.findNode id = some node ∧ node.type = .branch

/-- The output names the edge: `output.branch === edge.condition`. -/
def Selects (output : Value) (edge : WorkflowEdge) : Prop :=
  ∃ branch, output.prop "branch" = some branch ∧ branch.strictEq edge.condition = true

def Activated (g : WorkflowGraph) (c : CompletedMap) (edge : WorkflowEdge) : Prop :=
  ∃ output, c.get? edge.source = some output ∧ (IsBranch g edge.source → Selects output edge)

def ReadyIn (g : WorkflowGraph) (c : CompletedMap) (id : String) : Prop :=
  ∀ edge ∈ g.incomingEdges id, Activated g c edge

/-- Recorded outputs of branch nodes with outgoing edges are objects one can read. -/
def Readable (g : WorkflowGraph) (c : CompletedMap) : Prop :=
  ∀ edge ∈ g.edges, ∀ output, c.get? edge.source = some output → IsBranch g edge.source →
    ∃ branch, output.prop "branch" = some branch

theorem Activated.mono {edge : WorkflowEdge} (h : Activated g c edge) (he : Extends c d) :
    Activated g d edge := by
  obtain ⟨o, ho, hb⟩ := h
  exact ⟨o, he _ _ ho, hb⟩

theorem ReadyIn.mono {id : String} (h : ReadyIn g c id) (he : Extends c d) : ReadyIn g d id :=
  fun edge hedge => (h edge hedge).mono he

theorem ReadyIn.source_mem {id : String} (h : ReadyIn g c id) {edge : WorkflowEdge}
    (he : edge ∈ g.incomingEdges id) : edge.source ∈ c.keys := by
  obtain ⟨o, ho, _⟩ := h edge he
  exact mem_keys_iff.mpr ⟨o, ho⟩

theorem lookup_of_get? {id : String} {v : Value} (h : c.get? id = some v) :
    lookup c id = v := by simp [lookup, h]

theorem readable_empty : Readable g OrderedMap.empty := by
  intro edge _ output h
  simp at h

open scoped Classical in
theorem isEdgeActivated_eq (hw : WellFormed g) (hr : Readable g c) {edge : WorkflowEdge}
    (he : edge ∈ g.edges) : isEdgeActivated g c edge = .ok (decide (Activated g c edge)) := by
  unfold isEdgeActivated
  by_cases hk : edge.source ∈ c.keys
  · obtain ⟨o, ho⟩ := mem_keys_iff.mp hk
    obtain ⟨node, hn⟩ := hw.source_node he
    rw [if_pos (has_iff.mpr hk)]
    simp only [getNode, hn, ok_bind, lookup_of_get? ho]
    by_cases hb : node.type = .branch
    · obtain ⟨b, hbr⟩ := hr edge he o ho ⟨node, hn, hb⟩
      have : Activated g c edge ↔ b.strictEq edge.condition = true := by
        constructor
        · rintro ⟨o', ho', hsel⟩
          obtain rfl : o = o' := Option.some.inj (ho.symm.trans ho')
          obtain ⟨b', hb', hs⟩ := hsel ⟨node, hn, hb⟩
          obtain rfl : b = b' := Option.some.inj (hbr.symm.trans hb')
          exact hs
        · exact fun hs => ⟨o, ho, fun _ => ⟨b, hbr, hs⟩⟩
      simp [hb, hbr, this]
    · have : Activated g c edge := by
        refine ⟨o, ho, ?_⟩
        rintro ⟨m, hm, hmb⟩
        rw [hn] at hm
        cases hm
        exact absurd hmb hb
      simp [hb, this]
  · have : ¬ Activated g c edge := by
      rintro ⟨o, ho, _⟩
      exact hk (mem_keys_iff.mpr ⟨o, ho⟩)
    simp [hk, this]

open scoped Classical in
theorem isReady_eq (hw : WellFormed g) (hr : Readable g c) (id : String) :
    isReady g c id = .ok (decide (ReadyIn g c id)) := by
  rw [isReady, allM_ok fun edge he => isEdgeActivated_eq hw hr (mem_incomingEdges.mp he).1]
  congr 1
  rw [Bool.eq_iff_iff]
  simp [ReadyIn]

/-- The input a node is given, read off the completed map. -/
def inputOf (g : WorkflowGraph) (triggerPayload : Value) (c : CompletedMap) (node : WorkflowNode) :
    Value :=
  if node.id = g.entryNodeId then triggerPayload
  else if node.type = .merge then
    .array ((g.incomingEdges node.id).map fun edge => lookup c edge.source)
  else ((g.incomingEdges node.id).head?.map fun edge => lookup c edge.source).getD .undefined

theorem resolveInput_eq (hw : WellFormed g) {node : WorkflowNode} (hn : node ∈ g.nodes)
    (payload : Value) : resolveInput g node c payload = .ok (inputOf g payload c node) := by
  unfold resolveInput inputOf
  split_ifs with he hm
  · rfl
  · rfl
  · obtain ⟨edge, hedge⟩ := List.length_eq_one_iff.mp (hw.singleIncoming node hn he hm)
    simp [hedge]

/-- The input depends on the outputs of the predecessors only. -/
theorem inputOf_congr {node : WorkflowNode} (payload : Value)
    (hl : ∀ edge ∈ g.incomingEdges node.id, lookup d edge.source = lookup c edge.source) :
    inputOf g payload d node = inputOf g payload c node := by
  unfold inputOf
  split_ifs
  · rfl
  · rw [List.map_congr_left hl]
  · cases hi : g.incomingEdges node.id with
    | nil => rfl
    | cons edge rest => simp [hl edge (by simp [hi])]

/-- And it shows each of them. -/
theorem lookup_of_inputOf (hw : WellFormed g) {node : WorkflowNode} (hn : node ∈ g.nodes)
    {payload : Value} (h : inputOf g payload d node = inputOf g payload c node)
    {edge : WorkflowEdge} (he : edge ∈ g.incomingEdges node.id) :
    lookup d edge.source = lookup c edge.source := by
  unfold inputOf at h
  split_ifs at h with hentry hmerge
  · rw [hentry, hw.entryIncoming] at he
    cases he
  · exact List.map_inj_left.mp (Value.array.inj h) edge he
  · obtain ⟨only, honly⟩ := List.length_eq_one_iff.mp (hw.singleIncoming node hn hentry hmerge)
    rw [honly, List.mem_singleton] at he
    rw [he]
    simpa [honly] using h

/-- Later completions do not change the input of a node that was ready. -/
theorem inputOf_stable {node : WorkflowNode} (hr : ReadyIn g c node.id) (he : Extends c d)
    (payload : Value) : inputOf g payload d node = inputOf g payload c node := by
  refine inputOf_congr payload fun edge hedge => ?_
  obtain ⟨o, ho, _⟩ := hr edge hedge
  rw [lookup_of_get? ho, lookup_of_get? (he _ _ ho)]

/-- What the ready queue holds: distinct, known, uncompleted nodes that are ready. -/
structure QueueInv (g : WorkflowGraph) (s : WalkState) : Prop where
  queued : ∀ id, id ∈ s.queued ↔ id ∈ s.ready
  nodup : s.ready.Nodup
  fresh : ∀ id ∈ s.ready, id ∉ s.completed.keys
  known : ∀ id ∈ s.ready, id ∈ g.nodeIds
  ready : ∀ id ∈ s.ready, ReadyIn g s.completed id

/-- Nothing ready is missing from the queue. -/
def Full (g : WorkflowGraph) (s : WalkState) : Prop :=
  ∀ id ∈ g.nodeIds, ReadyIn g s.completed id → id ∈ s.completed.keys ∨ id ∈ s.ready

/-- `enqueue` adds an uncompleted, unqueued, ready node at the end and is otherwise idle. -/
theorem enqueue_spec (hw : WellFormed g) {s : WalkState} (hr : Readable g s.completed)
    (hq : QueueInv g s) {id : String} (hid : id ∈ g.nodeIds) :
    ∃ t, enqueue g s id = .ok t ∧ t.completed = s.completed ∧ QueueInv g t ∧
      (t.ready = s.ready ∨ t.ready = s.ready ++ [id]) ∧
      (ReadyIn g s.completed id → id ∈ s.completed.keys ∨ id ∈ t.ready) := by
  classical
  unfold enqueue
  by_cases hskip : s.completed.has id ∨ id ∈ s.queued
  · rw [if_pos hskip]
    refine ⟨s, rfl, rfl, hq, Or.inl rfl, fun _ => ?_⟩
    rcases hskip with h | h
    · exact Or.inl (has_iff.mp h)
    · exact Or.inr ((hq.queued id).mp h)
  · rw [if_neg hskip, isReady_eq hw hr, ok_bind]
    rw [not_or, has_iff, hq.queued] at hskip
    by_cases hready : ReadyIn g s.completed id
    · simp only [hready, decide_true, if_true]
      refine ⟨_, rfl, rfl, ⟨?_, ?_, ?_, ?_, ?_⟩, Or.inr rfl, fun _ => Or.inr (by simp)⟩
      · intro n
        simp [hq.queued n, or_comm]
      · exact hq.nodup.append (by simp) (by simpa using hskip.2)
      all_goals
        intro n hn
        rw [List.mem_append, List.mem_singleton] at hn
        rcases hn with hn | rfl
      · exact hq.fresh n hn
      · exact hskip.1
      · exact hq.known n hn
      · exact hid
      · exact hq.ready n hn
      · exact hready
    · simp only [hready, decide_false, Bool.false_eq_true, if_false]
      exact ⟨s, rfl, rfl, hq, Or.inl rfl, fun h => h.elim⟩

theorem enqueueAll_spec (hw : WellFormed g) {s : WalkState} (hr : Readable g s.completed)
    (hq : QueueInv g s) {ids : List String} (hids : ∀ id ∈ ids, id ∈ g.nodeIds) :
    ∃ t, enqueueAll g s ids = .ok t ∧ t.completed = s.completed ∧ QueueInv g t ∧
      s.ready <+: t.ready ∧
      ∀ id ∈ ids, ReadyIn g s.completed id → id ∈ s.completed.keys ∨ id ∈ t.ready := by
  induction ids generalizing s with
  | nil => exact ⟨s, rfl, rfl, hq, List.prefix_rfl, by simp⟩
  | cons id ids ih =>
    obtain ⟨t, ht, htc, htq, hgrow, hadd⟩ := enqueue_spec hw hr hq (hids id List.mem_cons_self)
    obtain ⟨u, hu, huc, huq, hpre, hall⟩ := ih (s := t) (by rw [htc]; exact hr) htq
      fun n hn => hids n (List.mem_cons_of_mem id hn)
    have hst : s.ready <+: t.ready := by
      rcases hgrow with h | h <;> simp [h]
    refine ⟨u, ?_, huc.trans htc, huq, hst.trans hpre, ?_⟩
    · rw [enqueueAll, List.foldlM_cons, ht, ok_bind]
      exact hu
    · rw [htc] at hall
      intro n hn hrn
      rcases List.mem_cons.mp hn with rfl | hn
      · exact (hadd hrn).imp_right (hpre.subset ·)
      · exact hall n hn hrn

open scoped Classical in
/-- The start-up scan queues the ready, uncompleted nodes in node-list order. -/
theorem enqueueAll_scan (hw : WellFormed g) {s : WalkState} (hr : Readable g s.completed)
    (hq : QueueInv g s) {ids : List String} (hids : ∀ id ∈ ids, id ∈ g.nodeIds)
    (hn : ids.Nodup) (hd : ∀ id ∈ ids, id ∉ s.ready) :
    ∃ t, enqueueAll g s ids = .ok t ∧ t.completed = s.completed ∧ QueueInv g t ∧
      t.ready = s.ready ++ ids.filter fun id => id ∉ s.completed.keys ∧ ReadyIn g s.completed id := by
  induction ids generalizing s with
  | nil => exact ⟨s, rfl, rfl, hq, by simp⟩
  | cons id ids ih =>
    obtain ⟨t, ht, htc, htq, hgrow, hadd⟩ := enqueue_spec hw hr hq (hids id List.mem_cons_self)
    have hnid := (List.nodup_cons.mp hn).1
    have hdt : ∀ n ∈ ids, n ∉ t.ready := by
      intro n hmem
      have hns := hd n (List.mem_cons_of_mem id hmem)
      rcases hgrow with h | h
      · rwa [h]
      · rw [h, List.mem_append, List.mem_singleton, not_or]
        exact ⟨hns, fun e => hnid (e ▸ hmem)⟩
    obtain ⟨u, hu, huc, huq, hread⟩ := ih (s := t) (by rw [htc]; exact hr) htq
      (fun n hmem => hids n (List.mem_cons_of_mem id hmem)) (List.nodup_cons.mp hn).2 hdt
    refine ⟨u, ?_, huc.trans htc, huq, ?_⟩
    · rw [enqueueAll, List.foldlM_cons, ht, ok_bind]
      exact hu
    · rw [hread, htc]
      by_cases hcase : id ∉ s.completed.keys ∧ ReadyIn g s.completed id
      · have hmem : id ∈ t.ready := (hadd hcase.2).resolve_left hcase.1
        have hns := hd id List.mem_cons_self
        rcases hgrow with h | h
        · exact absurd (h ▸ hmem) hns
        · simp [h, hcase]
      · rcases hgrow with h | h
        · rw [h, List.filter_cons_of_neg (by simpa using hcase)]
        · have hmem : id ∈ t.ready := by simp [h]
          refine absurd ⟨?_, ?_⟩ hcase
          · exact htc ▸ htq.fresh id hmem
          · exact htc ▸ htq.ready id hmem

end Linea.Walker
