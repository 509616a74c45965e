import Linea.WalkerRun

/-! What a walk from the start does: it completes exactly the least set of nodes that contains
the entry and every node all of whose incoming edges are activated, each node once and after
its predecessors. -/
namespace Linea.Walker
open ExceptLaws WorkflowGraph OrderedMap Validate FiringRule

variable {g : WorkflowGraph} {c d : CompletedMap} {payload : Value}

/-- The completed map after the logged steps. -/
def completedAfter (c : CompletedMap) (history : History) : CompletedMap :=
  history.foldl (fun m p => match p.2 with
    | .output v => m.set p.1.nodeId v
    | .error _ => m) c

/-- An executor that never reports an error. -/
def errorFree (answer : History → StepToExecute → Value) : Executor :=
  fun history step => .output (answer history step)

/-- Outputs of branch nodes select an outgoing edge wherever there is one. -/
def BranchesMatch (g : WorkflowGraph) (answer : History → StepToExecute → Value) : Prop :=
  ∀ history step node, g.findNode step.nodeId = some node → Matches g node (answer history step)

/-- The least set containing the entry and closed under "every incoming edge is activated". -/
inductive Reached (g : WorkflowGraph) (out : String → Option Value) : String → Prop
  | entry : Reached g out g.entryNodeId
  | closed {id : String} (known : id ∈ g.nodeIds)
      (sources : ∀ edge ∈ g.incomingEdges id, Reached g out edge.source)
      (selected : ∀ edge ∈ g.incomingEdges id, IsBranch g edge.source →
        ∃ output, out edge.source = some output ∧ Selects output edge) : Reached g out id

/-- The input a step must carry, given the outputs recorded in the run. -/
def InputFrom (g : WorkflowGraph) (payload : Value) (out : String → Option Value)
    (step : StepToExecute) : Prop :=
  if step.nodeId = g.entryNodeId then step.input = payload
  else if step.nodeType = .merge then
    ∃ values, (g.incomingEdges step.nodeId).map (fun edge => out edge.source) = values.map some ∧
      step.input = .array values
  else ∃ edge value, g.incomingEdges step.nodeId = [edge] ∧ out edge.source = some value ∧
    step.input = value

@[simp] theorem stepOf_nodeId (id : String) : (stepOf g payload c id).nodeId = id := by
  unfold stepOf
  cases h : g.findNode id with
  | none => rfl
  | some node => simpa [stepAt] using (findNode_some h).2

@[simp] theorem logged_ids (fired : List (String × Value)) :
    (logged g payload c fired).map (fun p => p.1.nodeId) = fired.map Prod.fst := by
  simp [logged, Function.comp_def]

theorem completedAfter_logged {rule : FiringRule String Value} {fired : List (String × Value)}
    (h : Fired rule c fired d) (e : CompletedMap) :
    completedAfter c (logged g payload e fired) = d := by
  induction h with
  | nil => rfl
  | cons _ _ _ ih => simpa [completedAfter, logged] using ih

/-- An error-free executor with matching branch outputs drives every walk to completion. -/
theorem errorFree_completes (hw : WellFormed g) (payload : Value) (hr : Readable g c)
    {answer : History → StepToExecute → Value} (hb : BranchesMatch g answer) :
    ∃ fired d, Fired (walkRule g) c fired d ∧ Settled g d ∧
      Answered g payload (errorFree answer) [] d fired ∧
      driveWalk g c payload (errorFree answer) =
        (logged g payload d fired, .returned .completed) := by
  obtain ⟨fired, d, last, hf, hans, hend, hlog⟩ :=
    driveWalk_spec hw payload (errorFree answer) hr
  generalize driveWalk g c payload (errorFree answer) = run at hend hlog
  obtain ⟨log, outcome⟩ := run
  cases hend with
  | completed hset => exact ⟨fired, d, hf, hset, hans, by simpa using hlog⟩
  | failed _ _ _ answered => simp [errorFree] at answered
  | @threw node output _ hmem _ _ answered unmatched _ =>
    have : answer _ (stepAt g payload d node) = output := StepResult.output.inj answered
    exact absurd (this ▸ hb _ _ node (findNode_of_mem hw.ids hmem)) unmatched

/-- Nodes completed by a walk are reached. -/
theorem fired_reached {fired : List (String × Value)} (h : Fired (walkRule g) c fired d)
    {out : CompletedMap} (hout : Extends d out) (hc : ∀ id ∈ c.keys, Reached g out.get? id) :
    ∀ id ∈ d.keys, Reached g out.get? id := by
  induction h with
  | nil => exact hc
  | @cons m k v l m' new hrule rest ih =>
    obtain ⟨node, hn, hready, _⟩ := hrule
    obtain ⟨hmem, rfl⟩ := findNode_some hn
    refine ih hout fun id hid => ?_
    rcases mem_keys_set.mp hid with rfl | hid
    · have hext : Extends m out := ((extends_set new v).trans rest.extends).trans hout
      refine .closed (List.mem_map_of_mem hmem)
        (fun edge he => hc _ (hready.source_mem he)) fun edge he hbr => ?_
      obtain ⟨o, ho, hsel⟩ := hready edge he
      exact ⟨o, hext _ _ ho, hsel hbr⟩
    · exact hc id hid

theorem settled_entry (hw : WellFormed g) (hset : Settled g d) : g.entryNodeId ∈ d.keys := by
  apply hset _ hw.entry
  intro edge he
  simp [hw.entryIncoming] at he

/-- A settled map contains every reached node. -/
theorem reached_completed (hw : WellFormed g) (hset : Settled g d) {id : String}
    (h : Reached g d.get? id) : id ∈ d.keys := by
  induction h with
  | entry => exact settled_entry hw hset
  | closed known _ selected ih =>
    apply hset _ known
    intro edge he
    obtain ⟨o, ho⟩ := mem_keys_iff.mp (ih edge he)
    refine ⟨o, ho, fun hbr => ?_⟩
    obtain ⟨o', ho', hsel⟩ := selected edge he hbr
    obtain rfl : o = o' := Option.some.inj (ho.symm.trans ho')
    exact hsel

theorem inputOf_spec (hw : WellFormed g) {node : WorkflowNode} (hn : node ∈ g.nodes)
    (hready : ReadyIn g d node.id) : InputFrom g payload d.get? (stepAt g payload d node) := by
  have hl : ∀ edge ∈ g.incomingEdges node.id, d.get? edge.source = some (lookup d edge.source) := by
    intro edge he
    obtain ⟨o, ho, _⟩ := hready edge he
    rw [lookup_of_get? ho, ho]
  unfold InputFrom
  split_ifs with hent hm
  · simpa [stepAt, inputOf] using fun h => absurd hent h
  · have hent : node.id ≠ g.entryNodeId := hent
    have hm : node.type = .merge := hm
    refine ⟨(g.incomingEdges node.id).map fun edge => lookup d edge.source, ?_, ?_⟩
    · rw [List.map_map]
      exact List.map_congr_left hl
    · simp [stepAt, inputOf, hent, hm]
  · have hent : node.id ≠ g.entryNodeId := hent
    have hm : node.type ≠ .merge := hm
    obtain ⟨edge, hedge⟩ := List.length_eq_one_iff.mp (hw.singleIncoming node hn hent hm)
    exact ⟨edge, lookup d edge.source, hedge, hl edge (by simp [hedge]),
      by simp [stepAt, inputOf, hent, hm, hedge]⟩

/-- A node is completed only after the sources of its incoming edges. -/
theorem fired_after_sources {pre post : List (String × Value)} {id : String} {v : Value}
    (h : Fired (walkRule g) c (pre ++ (id, v) :: post) d) {edge : WorkflowEdge}
    (he : edge ∈ g.incomingEdges id) : edge.source ∈ c.keys ++ pre.map Prod.fst := by
  obtain ⟨m, hpre, hrest⟩ := h.split
  cases hrest with
  | cons _ hrule _ =>
    obtain ⟨_, _, hready, _⟩ := hrule
    rw [← hpre.keys]
    exact hready.source_mem he

/-- Meaning of a walk from the empty state. For every accepted graph and every error-free
executor whose branch outputs match, it ends with status completed, completes each node at
most once, exactly the reached nodes, never a node before its predecessors, and gives each
node the input its predecessors determine. -/
theorem walk_meaning (schemas : ConfigSchemas) (g : WorkflowGraph)
    (accepted : validateGraphStructure schemas g = .ok ()) (payload : Value)
    (answer : History → StepToExecute → Value) (hb : BranchesMatch g answer) :
    let run := driveWalk g OrderedMap.empty payload (errorFree answer)
    let ids := run.1.map fun p => p.1.nodeId
    let out := (completedAfter OrderedMap.empty run.1).get?
    run.2 = .returned .completed ∧ ids.Nodup ∧
      (∀ node ∈ g.nodes, node.id ∈ ids ↔ Reached g out node.id) ∧
      (∀ pre p post, run.1 = pre ++ p :: post → ∀ edge ∈ g.incomingEdges p.1.nodeId,
        edge.source ∈ pre.map fun q => q.1.nodeId) ∧
      ∀ p ∈ run.1, (∃ node ∈ g.nodes, node.id = p.1.nodeId ∧ node.type = p.1.nodeType) ∧
        InputFrom g payload out p.1 := by
  have hw := (validateBeforeMerges_ok_iff.mp (validateGraphStructure_ok_iff.mp accepted).1).1
  obtain ⟨fired, d, hf, hset, _, hrun⟩ :=
    errorFree_completes hw payload readable_empty hb
  have hkeys : d.keys = fired.map Prod.fst := by simpa using hf.keys
  intro run ids out
  have hids : ids = fired.map Prod.fst := by simp [ids, run, hrun]
  have hout : out = d.get? := by simp only [out, run, hrun, completedAfter_logged hf]
  have hlog : run.1 = logged g payload d fired := by simp [run, hrun]
  rw [hids, hout]
  refine ⟨by simp [run, hrun], hf.keys_nodup.1, fun node _ => ?_, fun pre p post heq edge he => ?_,
    fun p hp => ?_⟩
  · rw [← hkeys]
    exact ⟨fired_reached hf (Extends.refl d) (by simp) node.id, reached_completed hw hset⟩
  · rw [hlog] at heq
    obtain ⟨pre', rest, rfl, rfl, hrest⟩ := List.map_eq_append_iff.mp heq
    obtain ⟨q, post', rfl, rfl, _⟩ := List.map_eq_cons_iff.mp hrest
    simp only [stepOf_nodeId] at he
    have := fired_after_sources hf he
    simpa [Function.comp_def] using this
  · rw [hlog] at hp
    obtain ⟨q, hq, rfl⟩ := List.mem_map.mp hp
    obtain ⟨node, hn, hready, _⟩ := hf.justified walkRule_monotone q hq
    obtain ⟨hmem, hid⟩ := findNode_some hn
    rw [stepOf_eq hn]
    exact ⟨⟨node, hmem, rfl, rfl⟩, inputOf_spec hw hmem (hid.symm ▸ hready)⟩

/-- Schemas that accept every configuration. -/
def acceptAll : ConfigSchemas := ⟨fun _ => none, fun _ => none, fun _ => none, fun _ => none⟩

/-- A fan-out whose left arm goes through a branch before the two arms are merged. -/
def reviewGraph : WorkflowGraph where
  entryNodeId := "start"
  nodes := [⟨"joined", .merge, []⟩, ⟨"start", .start, []⟩, ⟨"decide", .branch, []⟩,
    ⟨"right", .transform, []⟩, ⟨"accept", .transform, []⟩, ⟨"reject", .endNode, []⟩]
  edges := [⟨"start", "decide", none⟩, ⟨"start", "right", none⟩,
    ⟨"decide", "accept", some "yes"⟩, ⟨"decide", "reject", some "no"⟩,
    ⟨"right", "joined", none⟩, ⟨"accept", "joined", none⟩]

/-- Every node passes its input on, the branch node answers `branch`. -/
def takeBranch (branch : String) (step : StepToExecute) : Value :=
  if step.nodeId = "decide" then .object [("branch", .string branch)] else step.input

theorem takeBranch_matches : BranchesMatch reviewGraph fun _ => takeBranch "yes" := by
  intro history step node hn hb _
  obtain ⟨hmem, hid⟩ := findNode_some hn
  have hd : node.id = "decide" := by
    simp only [reviewGraph, List.mem_cons, List.not_mem_nil, or_false] at hmem
    rcases hmem with rfl | rfl | rfl | rfl | rfl | rfl <;> simp_all
  refine ⟨⟨"decide", "accept", some "yes"⟩, by simp [hd, reviewGraph], .string "yes", ?_, rfl⟩
  simp [takeBranch, ← hid, hd, Value.prop, Value.field]

theorem walk_meaning_reviewGraph :
    (driveWalk reviewGraph OrderedMap.empty .null (errorFree fun _ => takeBranch "yes")).2 =
      .returned .completed :=
  (walk_meaning acceptAll reviewGraph rfl .null (fun _ => takeBranch "yes") takeBranch_matches).1

end Linea.Walker
