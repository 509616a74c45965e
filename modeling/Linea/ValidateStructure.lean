import Linea.ExceptLaws
import Linea.Validate

/-! What the loops of `validateGraphStructure` over nodes and edges establish. -/
namespace Linea.Validate
open ExceptLaws WorkflowGraph

/-- The conditions on ids, edges and branch conditions that the validator enforces. -/
structure WellFormed (g : WorkflowGraph) : Prop where
  ids : g.nodeIds.Nodup
  entry : g.entryNodeId ∈ g.nodeIds
  ends : ∀ e ∈ g.edges, e.source ∈ g.nodeIds ∧ e.target ∈ g.nodeIds
  entryIncoming : g.incomingEdges g.entryNodeId = []
  singleIncoming : ∀ n ∈ g.nodes, n.id ≠ g.entryNodeId → n.type ≠ .merge →
    (g.incomingEdges n.id).length = 1
  mergeIncoming : ∀ n ∈ g.nodes, n.id ≠ g.entryNodeId → n.type = .merge →
    (g.incomingEdges n.id).length = 2 ∧
      ((g.incomingEdges n.id).map WorkflowEdge.source).Nodup
  endOutgoing : ∀ n ∈ g.nodes, n.type = .endNode → g.outgoingEdges n.id = []
  unconditioned : ∀ n ∈ g.nodes, n.type ≠ .branch →
    ∀ e ∈ g.outgoingEdges n.id, e.condition = none
  conditions : ∀ n ∈ g.nodes, n.type = .branch →
    none ∉ (g.outgoingEdges n.id).map WorkflowEdge.condition ∧
      ((g.outgoingEdges n.id).map WorkflowEdge.condition).Nodup

/-- Every node passes the schemas that apply to it. -/
def ConfigsAccepted (schemas : ConfigSchemas) (g : WorkflowGraph) : Prop :=
  ∀ n ∈ g.nodes, checkRetryPolicy schemas n = .ok () ∧
    checkConfig .extract "Extract" schemas.extract n = .ok () ∧
    checkConfig .connector "Connector" schemas.connector n = .ok () ∧
    checkConfig .evaluator "Evaluator" schemas.evaluator n = .ok ()

@[simp] theorem ensure_ok_iff {test : Bool} {e : GraphError} :
    ensure test e = .ok () ↔ test = true := by
  cases test <;> simp [ensure]

/-- A set built from a list is as large as the list exactly when nothing repeats. -/
theorem card_toFinset_eq_length_iff {α : Type} [DecidableEq α] {l : List α} :
    l.toFinset.card = l.length ↔ l.Nodup := by
  rw [List.card_toFinset]
  constructor
  · intro h
    have := l.dedup_sublist.eq_of_length h
    exact this ▸ l.nodup_dedup
  · exact fun h => by rw [h.dedup]

theorem checkEdgeEnds_ok_iff {g : WorkflowGraph} {e : WorkflowEdge} :
    checkEdgeEnds g e = .ok () ↔ e.source ∈ g.nodeIds ∧ e.target ∈ g.nodeIds := by
  simp [checkEdgeEnds, seq_ok_iff]

theorem checkMergeSources_ok_iff {g : WorkflowGraph} {n : WorkflowNode} :
    checkMergeSources g n = .ok () ↔
      (n.type = .merge → ((g.incomingEdges n.id).map WorkflowEdge.source).Nodup) := by
  unfold checkMergeSources
  split_ifs with h
  · simp [h, ← card_toFinset_eq_length_iff]
  · simp [h]

theorem checkIncoming_ok_iff {g : WorkflowGraph} {n : WorkflowNode} :
    checkIncoming g n = .ok () ↔
      (n.id = g.entryNodeId → g.incomingEdges n.id = []) ∧
      (n.id ≠ g.entryNodeId → n.type ≠ .merge → (g.incomingEdges n.id).length = 1) ∧
      (n.id ≠ g.entryNodeId → n.type = .merge → (g.incomingEdges n.id).length = 2 ∧
        ((g.incomingEdges n.id).map WorkflowEdge.source).Nodup) := by
  unfold checkIncoming
  by_cases he : n.id = g.entryNodeId
  · simp [he]
  · simp only [he, if_false, seq_ok_iff, ensure_ok_iff, decide_eq_true_eq,
      checkMergeSources_ok_iff]
    by_cases hm : n.type = .merge <;> simp [hm, he]

theorem checkDegrees_ok_iff {g : WorkflowGraph} {n : WorkflowNode} :
    checkDegrees g n = .ok () ↔ checkIncoming g n = .ok () ∧
      (n.type = .endNode → g.outgoingEdges n.id = []) := by
  rw [checkDegrees, seq_ok_iff, ensure_ok_iff, decide_eq_true_eq, or_iff_not_imp_left, not_not]

theorem checkStrayCondition_ok_iff {g : WorkflowGraph} {n : WorkflowNode} :
    checkStrayCondition g n = .ok () ↔
      (n.type ≠ .branch → ∀ e ∈ g.outgoingEdges n.id, e.condition = none) := by
  unfold checkStrayCondition
  by_cases hb : n.type = .branch
  · simp [hb]
  · rw [if_neg hb]
    cases hf : (g.outgoingEdges n.id).find? fun edge => edge.condition ≠ none with
    | none =>
      have := List.find?_eq_none.mp hf
      simpa [hb] using this
    | some e =>
      have he := List.mem_of_find?_eq_some hf
      have hc : e.condition ≠ none := by simpa using List.find?_some hf
      simp only [reduceCtorEq, false_iff]
      exact fun h => hc (h hb e he)

theorem checkConditions_ok_iff {g : WorkflowGraph} {n : WorkflowNode} :
    checkConditions g n = .ok () ↔
      (n.type = .branch → none ∉ (g.outgoingEdges n.id).map WorkflowEdge.condition ∧
        ((g.outgoingEdges n.id).map WorkflowEdge.condition).Nodup) := by
  unfold checkConditions
  by_cases hb : n.type = .branch
  · simp only [hb, if_true, seq_ok_iff, ensure_ok_iff, decide_eq_true_eq, Bool.not_eq_true',
      List.contains_eq_mem, decide_eq_false_iff_not, card_toFinset_eq_length_iff, forall_const]
  · simp [hb]

/-- The checks before the merge check pass exactly on well-formed graphs whose configurations
are accepted and whose depth-first search from the entry reaches every node. -/
theorem validateBeforeMerges_ok_iff {schemas : ConfigSchemas} {g : WorkflowGraph} :
    validateBeforeMerges schemas g = .ok () ↔
      WellFormed g ∧ ConfigsAccepted schemas g ∧
      ∃ marks, visit g (g.nodes.length + 1) ⟨∅, []⟩ g.entryNodeId = .ok marks ∧
        ∀ n ∈ g.nodes, n.id ∈ marks.visited := by
  have hlen : g.nodes.length = g.nodeIds.length := by simp [nodeIds]
  simp only [validateBeforeMerges, seq_ok_iff, forM_ok_iff, ensure_ok_iff, decide_eq_true_eq,
    checkEdgeEnds_ok_iff, checkDegrees_ok_iff, checkIncoming_ok_iff,
    checkStrayCondition_ok_iff, checkConditions_ok_iff]
  simp only [bind_ok_iff, forM_ok_iff, ensure_ok_iff, decide_eq_true_eq]
  rw [hlen, card_toFinset_eq_length_iff]
  constructor
  · rintro ⟨hids, hentry, hends, hdeg, hstray, hretry, hex, hcon, hev, hcond, hsearch⟩
    refine ⟨?_, fun n hn => ⟨hretry n hn, hex n hn, hcon n hn, hev n hn⟩, hsearch⟩
    obtain ⟨e, he, hid⟩ := List.mem_map.mp hentry
    exact
      { ids := hids, entry := hentry, ends := hends
        entryIncoming := hid ▸ (hdeg e he).1.1 hid
        singleIncoming := fun n hn => (hdeg n hn).1.2.1
        mergeIncoming := fun n hn => (hdeg n hn).1.2.2
        endOutgoing := fun n hn => (hdeg n hn).2
        unconditioned := hstray, conditions := hcond }
  · rintro ⟨hw, hc, hsearch⟩
    refine ⟨hw.ids, hw.entry, hw.ends, fun n hn => ⟨⟨?_, hw.singleIncoming n hn,
      hw.mergeIncoming n hn⟩, hw.endOutgoing n hn⟩, hw.unconditioned,
      fun n hn => (hc n hn).1, fun n hn => (hc n hn).2.1, fun n hn => (hc n hn).2.2.1,
      fun n hn => (hc n hn).2.2.2, hw.conditions, hsearch⟩
    intro hid
    rw [hid]
    exact hw.entryIncoming

theorem validateGraphStructure_ok_iff {schemas : ConfigSchemas} {g : WorkflowGraph} :
    validateGraphStructure schemas g = .ok () ↔
      validateBeforeMerges schemas g = .ok () ∧ validateMerges g = .ok () := seq_ok_iff

namespace WellFormed
variable {g : WorkflowGraph} (hw : WellFormed g)
include hw

theorem source_node {e : WorkflowEdge} (he : e ∈ g.edges) : ∃ n, g.findNode e.source = some n :=
  findNode_exists (hw.ends e he).1

/-- Only the entry node has no incoming edge. -/
theorem incoming_ne_nil {n : String} (hn : n ∈ g.nodeIds) (he : n ≠ g.entryNodeId) :
    g.incomingEdges n ≠ [] := by
  obtain ⟨node, hnode, rfl⟩ := List.mem_map.mp hn
  intro h
  by_cases hm : node.type = .merge
  · have := (hw.mergeIncoming node hnode he hm).1
    simp [h] at this
  · have := hw.singleIncoming node hnode he hm
    simp [h] at this

/-- Conditions tell the outgoing edges of a branch node apart. -/
theorem branch_edge_unique {n : WorkflowNode} (hn : n ∈ g.nodes) (hb : n.type = .branch)
    {e f : WorkflowEdge} (he : e ∈ g.outgoingEdges n.id) (hf : f ∈ g.outgoingEdges n.id)
    (hc : e.condition = f.condition) : e = f :=
  List.inj_on_of_nodup_map (hw.conditions n hn hb).2 he hf hc

theorem branch_condition {n : WorkflowNode} (hn : n ∈ g.nodes) (hb : n.type = .branch)
    {e : WorkflowEdge} (he : e ∈ g.outgoingEdges n.id) : ∃ c, e.condition = some c := by
  apply Option.ne_none_iff_exists'.mp
  intro h
  exact (hw.conditions n hn hb).1 (h ▸ List.mem_map_of_mem he)

end WellFormed
end Linea.Validate
