import Linea.ValidateChoices
import Linea.WalkerMeaning

/-! Required choices against the walk: the branch outputs the validator computes for a node are
exactly those under which a walk that runs to its end completes the node. -/
namespace Linea.Walker
open ExceptLaws WorkflowGraph OrderedMap Validate FiringRule

variable {g : WorkflowGraph} {d : CompletedMap} {payload : Value}

/-- Every branch node of the choices has given the output recorded for it. -/
def Holds (choices : BranchChoices) (out : String → Option Value) : Prop :=
  ∀ b c, choices.get? b = some c →
    ∃ output, out b = some output ∧ output.prop "branch" = some (.string c)

theorem selects_iff {output : Value} {edge : WorkflowEdge} {c : String}
    (hc : edge.condition = some c) :
    Selects output edge ↔ output.prop "branch" = some (.string c) := by
  simp [Selects, hc, Value.strictEq_some]

theorem branch_or_other (hw : WellFormed g) {edge : WorkflowEdge} (he : edge ∈ g.edges) :
    ∃ node, g.findNode edge.source = some node ∧
      (node.type ≠ .branch ∨ node.type = .branch ∧ ∃ c, edge.condition = some c) := by
  obtain ⟨node, hn⟩ := hw.source_node he
  obtain ⟨hmem, hid⟩ := findNode_some hn
  refine ⟨node, hn, ?_⟩
  by_cases hb : node.type = .branch
  · exact Or.inr ⟨hb, hw.branch_condition hmem hb (mem_outgoingEdges.mpr ⟨he, hid.symm⟩)⟩
  · exact Or.inl hb

theorem holds_withEdge (hw : WellFormed g) {edge : WorkflowEdge} (he : edge ∈ g.edges)
    {a : BranchChoices} (hact : Activated g d edge) (ha : Holds a d.get?) :
    Holds (withEdge g a edge) d.get? := by
  obtain ⟨node, hn, hb | ⟨hb, c, hc⟩⟩ := branch_or_other hw he
  · rwa [withEdge_other hn hb]
  · rw [withEdge_branch hn hb hc]
    intro k v hk
    rw [get?_set] at hk
    split_ifs at hk with heq
    · cases hk
      obtain ⟨output, ho, hsel⟩ := hact
      exact ⟨output, heq ▸ ho, (selects_iff hc).mp (hsel ⟨node, hn, hb⟩)⟩
    · exact ha k v hk

theorem activated_of_selects (hw : WellFormed g) {edge : WorkflowEdge} (he : edge ∈ g.edges)
    (hkey : edge.source ∈ d.keys)
    (hsel : ∀ node c, g.findNode edge.source = some node → node.type = .branch →
      edge.condition = some c → ∃ output, d.get? edge.source = some output ∧
        output.prop "branch" = some (.string c)) : Activated g d edge := by
  obtain ⟨node, hn, hb | ⟨hb, c, hc⟩⟩ := branch_or_other hw he
  · obtain ⟨output, ho⟩ := mem_keys_iff.mp hkey
    refine ⟨output, ho, ?_⟩
    rintro ⟨node', hn', hb'⟩
    rw [hn] at hn'
    cases hn'
    exact absurd hb' hb
  · obtain ⟨output, ho, hp⟩ := hsel node c hn hb hc
    exact ⟨output, ho, fun _ => (selects_iff hc).mpr hp⟩

theorem activated_of_holds (hw : WellFormed g) {edge : WorkflowEdge} (he : edge ∈ g.edges)
    {a : BranchChoices} (ha : Holds a d.get? → edge.source ∈ d.keys)
    (h : Holds (withEdge g a edge) d.get?) : Activated g d edge := by
  have hsel : ∀ node c, g.findNode edge.source = some node → node.type = .branch →
      edge.condition = some c → ∃ output, d.get? edge.source = some output ∧
        output.prop "branch" = some (.string c) := by
    intro node c hn hb hc
    rw [withEdge_branch hn hb hc] at h
    exact h edge.source c (get?_set_self _ _ _)
  refine activated_of_selects hw he ?_ hsel
  obtain ⟨node, hn, hb | ⟨hb, c, hc⟩⟩ := branch_or_other hw he
  · rw [withEdge_other hn hb] at h
    exact ha h
  · obtain ⟨output, ho, _⟩ := hsel node c hn hb hc
    exact mem_keys_iff.mpr ⟨output, ho⟩

/-- A node that got ready had every choice it requires made. -/
theorem holds_of_ready (hw : WellFormed g) (hd : ∀ id ∈ d.keys, ReadyIn g d id) {id : String}
    {m : BranchChoices} (h : Requires g id m) (hready : ReadyIn g d id) : Holds m d.get? := by
  induction h with
  | entry =>
    intro b c hb
    simp at hb
  | @single id edge a _ incoming _ ih =>
    have he : edge ∈ g.incomingEdges id := by simp [incoming]
    exact holds_withEdge hw (mem_incomingEdges.mp he).1 (hready edge he)
      (ih (hd _ (hready.source_mem he)))
  | @merge id first second rest a b m _ incoming _ _ combined ihl ihr =>
    have h1 : first ∈ g.incomingEdges id := by simp [incoming]
    have h2 : second ∈ g.incomingEdges id := by simp [incoming]
    have hl := holds_withEdge hw (mem_incomingEdges.mp h1).1 (hready first h1)
      (ihl (hd _ (hready.source_mem h1)))
    have hr := holds_withEdge hw (mem_incomingEdges.mp h2).1 (hready second h2)
      (ihr (hd _ (hready.source_mem h2)))
    intro k v hk
    rcases (combineChoices_ok combined k v).mp hk with hk | hk
    · exact hl k v hk
    · exact hr k v hk

/-- A node is ready once both of its incoming edges are activated. -/
theorem ready_of_two (hw : WellFormed g) {id : String} (hid : id ∈ g.nodeIds)
    (hne : id ≠ g.entryNodeId) {first second : WorkflowEdge} {rest : List WorkflowEdge}
    (hin : g.incomingEdges id = first :: second :: rest) (h1 : Activated g d first)
    (h2 : Activated g d second) : ReadyIn g d id := by
  obtain ⟨node, hn, rfl⟩ := List.mem_map.mp hid
  have hrest : rest = [] := by
    by_cases hm : node.type = .merge
    · simpa [hin] using (hw.mergeIncoming node hn hne hm).1
    · simpa [hin] using hw.singleIncoming node hn hne hm
  intro edge he
  rw [hin, hrest] at he
  simp only [List.mem_cons, List.not_mem_nil, or_false] at he
  rcases he with rfl | rfl
  · exact h1
  · exact h2

/-- Where nothing ready is left, a node whose required choices were made is completed. -/
theorem completed_of_holds (hw : WellFormed g) (hset : Settled g d) {id : String}
    {m : BranchChoices} (h : Requires g id m) (hid : id ∈ g.nodeIds) (hm : Holds m d.get?) :
    id ∈ d.keys := by
  induction h with
  | entry => exact settled_entry hw hset
  | @single id edge a _ incoming _ ih =>
    have he := (mem_incomingEdges.mp (by simp [incoming] : edge ∈ g.incomingEdges id)).1
    apply hset id hid
    intro e hmem
    rw [incoming, List.mem_singleton] at hmem
    exact hmem ▸ activated_of_holds hw he (ih (hw.ends edge he).1) hm
  | @merge id first second rest a b m other incoming _ _ combined ihl ihr =>
    have h1 := (mem_incomingEdges.mp (by simp [incoming] : first ∈ g.incomingEdges id)).1
    have h2 := (mem_incomingEdges.mp (by simp [incoming] : second ∈ g.incomingEdges id)).1
    have hcomb := combineChoices_ok combined
    apply hset id hid
    refine ready_of_two hw hid other incoming ?_ ?_
    · exact activated_of_holds hw h1 (ihl (hw.ends first h1).1) fun k v hk =>
        hm k v ((hcomb k v).mpr (Or.inl hk))
    · exact activated_of_holds hw h2 (ihr (hw.ends second h2).1) fun k v hk =>
        hm k v ((hcomb k v).mpr (Or.inr hk))

/-- Conflicting inputs never get a merge node ready. -/
theorem conflict_not_ready (hw : WellFormed g) (hd : ∀ id ∈ d.keys, ReadyIn g d id) {id : String}
    (h : Conflict g id) : ¬ ReadyIn g d id := by
  obtain ⟨_, first, second, rest, a, b, e, hin, ha, hb, herr⟩ := h
  intro hready
  have h1 : first ∈ g.incomingEdges id := by simp [hin]
  have h2 : second ∈ g.incomingEdges id := by simp [hin]
  have hl := holds_withEdge hw (mem_incomingEdges.mp h1).1 (hready first h1)
    (holds_of_ready hw hd ha (hd _ (hready.source_mem h1)))
  have hr := holds_withEdge hw (mem_incomingEdges.mp h2).1 (hready second h2)
    (holds_of_ready hw hd hb (hd _ (hready.source_mem h2)))
  obtain ⟨k, v, w, hv, hw', hne⟩ := combineChoices_error herr
  obtain ⟨o, ho, hp⟩ := hl k v hv
  obtain ⟨o', ho', hp'⟩ := hr k w hw'
  rw [ho] at ho'
  cases ho'
  rw [hp] at hp'
  cases hp'
  exact hne rfl

/-- What holds of the completed map after any walk from the start. -/
theorem walk_ready (hw : WellFormed g) (payload : Value) (execute : Executor) :
    let run := driveWalk g OrderedMap.empty payload execute
    let d := completedAfter OrderedMap.empty run.1
    (∀ id ∈ d.keys, ReadyIn g d id) ∧
      (∀ id ∈ run.1.map fun p => p.1.nodeId, ReadyIn g d id) ∧
      (run.2 = .returned .completed →
        Settled g d ∧ ∀ id ∈ d.keys, id ∈ run.1.map fun p => p.1.nodeId) := by
  obtain ⟨fired, d, last, hf, _, hend, hlog⟩ := driveWalk_spec hw payload execute readable_empty
  have hkeys : d.keys = fired.map Prod.fst := by simpa using hf.keys
  have hready : ∀ id ∈ d.keys, ReadyIn g d id := by
    intro id hid
    obtain ⟨p, hp, rfl⟩ := List.mem_map.mp (hkeys ▸ hid)
    obtain ⟨_, _, hr, _⟩ := hf.justified walkRule_monotone p hp
    exact hr
  have hafter : completedAfter _ (logged g payload d _) = d := completedAfter_logged hf d
  generalize driveWalk g OrderedMap.empty payload execute = run at *
  obtain ⟨log, outcome⟩ := run
  replace hlog : log = logged g payload d fired ++ last := by simpa using hlog
  have hids : log.map (fun p => p.1.nodeId) = d.keys ++ last.map fun p => p.1.nodeId := by
    rw [hlog, List.map_append, logged_ids, hkeys]
  intro run e
  cases hend with
  | completed hset =>
    have he : e = d := by simp only [e, run, hlog, List.append_nil, hafter]
    simp only [run, hids, he, List.map_nil, List.append_nil]
    exact ⟨hready, hready, fun _ => ⟨hset, fun _ h => h⟩⟩
  | @failed node message _ _ hnode _ =>
    have he : e = d := by
      simp only [completedAfter] at hafter
      simp [e, run, hlog, completedAfter, List.foldl_append, hafter]
    simp only [run, hids, he]
    refine ⟨hready, fun id hid => ?_, by simp⟩
    rcases List.mem_append.mp hid with hid | hid
    · exact hready id hid
    · obtain rfl : id = node.id := by simpa [stepAt] using hid
      exact hnode
  | @threw node output error _ hnew hnode _ _ _ =>
    have he : e = d.set node.id output := by
      simp only [completedAfter] at hafter
      simp [e, run, hlog, completedAfter, List.foldl_append, hafter, stepAt]
    have hext := extends_set hnew output
    simp only [run, hids, he]
    refine ⟨fun id hid => ?_, fun id hid => ?_, by simp⟩
    · rcases mem_keys_set.mp hid with rfl | hid
      · exact hnode.mono hext
      · exact (hready id hid).mono hext
    · rcases List.mem_append.mp hid with hid | hid
      · exact (hready id hid).mono hext
      · obtain rfl : id = node.id := by simpa [stepAt] using hid
        exact hnode.mono hext

/-- The branch taken by an executor that follows the given choices. -/
def chosenBranch (g : WorkflowGraph) (choices : BranchChoices) (id : String) : String :=
  match choices.get? id with
  | some c => c
  | none => ((g.outgoingEdges id).head?.bind WorkflowEdge.condition).getD ""

def follow (g : WorkflowGraph) (choices : BranchChoices) (step : StepToExecute) : Value :=
  .object [("branch", .string (chosenBranch g choices step.nodeId))]

theorem follow_branch (choices : BranchChoices) (step : StepToExecute) :
    (follow g choices step).prop "branch" = some (.string (chosenBranch g choices step.nodeId)) := by
  simp [follow, Value.prop, Value.field]

theorem follow_matches (hw : WellFormed g) {rank : String → ℕ} (hrank : Ranking g rank)
    {id : String} {m : BranchChoices} (hm : Requires g id m) :
    BranchesMatch g fun _ => follow g m := by
  intro _ step node hn hb hne
  obtain ⟨hmem, hid⟩ := findNode_some hn
  have hedge : ∃ edge ∈ g.outgoingEdges node.id,
      edge.condition = some (chosenBranch g m node.id) := by
    unfold chosenBranch
    cases hget : m.get? node.id with
    | some c =>
      obtain ⟨⟨edge, he, hs, hc⟩, _⟩ := hm.choice hrank hget
      exact ⟨edge, mem_outgoingEdges.mpr ⟨he, hs⟩, hc⟩
    | none =>
      cases hout : g.outgoingEdges node.id with
      | nil => exact absurd hout hne
      | cons edge rest =>
        obtain ⟨c, hc⟩ := hw.branch_condition hmem hb (by simp [hout] : edge ∈ _)
        exact ⟨edge, List.mem_cons_self, by simp [hc]⟩
  obtain ⟨edge, he, hc⟩ := hedge
  exact ⟨edge, he, (selects_iff hc).mpr (by rw [follow_branch, hid])⟩

theorem withEdge_keeps {a : BranchChoices} {edge : WorkflowEdge} {b c : String}
    (h : a.get? b = some c) (hne : b ≠ edge.source) : (withEdge g a edge).get? b = some c := by
  unfold withEdge
  split
  · split_ifs
    · rwa [get?_set_of_ne _ hne]
    · exact h
  · exact h

/-- Following the choices of one edge activates it, once its source is completed. -/
theorem activated_of_follow (hw : WellFormed g) {m a : BranchChoices}
    (hout : ∀ id v, d.get? id = some v → v.prop "branch" = some (.string (chosenBranch g m id)))
    {edge : WorkflowEdge} (he : edge ∈ g.edges) (hkey : edge.source ∈ d.keys)
    (hagree : ∀ b c, (withEdge g a edge).get? b = some c → chosenBranch g m b = c) :
    Activated g d edge := by
  refine activated_of_selects hw he hkey fun node c hn hb hc => ?_
  obtain ⟨output, ho⟩ := mem_keys_iff.mp hkey
  refine ⟨output, ho, ?_⟩
  rw [hout _ _ ho, hagree edge.source c]
  rw [withEdge_branch hn hb hc]
  exact get?_set_self _ _ _

/-- A settled walk that follows choices agreeing with those of a node completes it. -/
theorem completed_of_follow (hw : WellFormed g) {rank : String → ℕ} (hrank : Ranking g rank)
    {m : BranchChoices} (hset : Settled g d)
    (hout : ∀ id v, d.get? id = some v → v.prop "branch" = some (.string (chosenBranch g m id)))
    {id : String} {n : BranchChoices} (h : Requires g id n) (hid : id ∈ g.nodeIds)
    (hagree : ∀ b c, n.get? b = some c → chosenBranch g m b = c) : id ∈ d.keys := by
  induction h with
  | entry => exact settled_entry hw hset
  | @single id edge a _ incoming source ih =>
    have he := (mem_incomingEdges.mp (by simp [incoming] : edge ∈ g.incomingEdges id)).1
    have hkey : edge.source ∈ d.keys := ih (hw.ends edge he).1 fun b c hb =>
      hagree b c (withEdge_keeps hb fun heq => by
        have := (source.choice hrank hb).2
        rw [heq] at this
        omega)
    apply hset id hid
    intro e hmem
    rw [incoming, List.mem_singleton] at hmem
    exact hmem ▸ activated_of_follow hw hout he hkey hagree
  | @merge id first second rest a b n other incoming left right combined ihl ihr =>
    have h1 := (mem_incomingEdges.mp (by simp [incoming] : first ∈ g.incomingEdges id)).1
    have h2 := (mem_incomingEdges.mp (by simp [incoming] : second ∈ g.incomingEdges id)).1
    have hcomb := combineChoices_ok combined
    have hk1 : first.source ∈ d.keys := ihl (hw.ends first h1).1 fun b c hb =>
      hagree b c ((hcomb b c).mpr (Or.inl (withEdge_keeps hb fun heq => by
        have := (left.choice hrank hb).2
        rw [heq] at this
        omega)))
    have hk2 : second.source ∈ d.keys := ihr (hw.ends second h2).1 fun b c hb =>
      hagree b c ((hcomb b c).mpr (Or.inr (withEdge_keeps hb fun heq => by
        have := (right.choice hrank hb).2
        rw [heq] at this
        omega)))
    apply hset id hid
    exact ready_of_two hw hid other incoming
      (activated_of_follow hw hout h1 hk1 fun b c hb => hagree b c ((hcomb b c).mpr (Or.inl hb)))
      (activated_of_follow hw hout h2 hk2 fun b c hb => hagree b c ((hcomb b c).mpr (Or.inr hb)))

/-- Following its own required choices leads to a node. -/
theorem follow_completes (hw : WellFormed g) {rank : String → ℕ} (hrank : Ranking g rank)
    {id : String} {m : BranchChoices} (hm : Requires g id m) (hid : id ∈ g.nodeIds)
    (payload : Value) :
    id ∈ (driveWalk g OrderedMap.empty payload (errorFree fun _ => follow g m)).1.map
      fun p => p.1.nodeId := by
  obtain ⟨fired, d, hf, hset, hans, hrun⟩ :=
    errorFree_completes hw payload readable_empty (follow_matches hw hrank hm)
  have hout : ∀ n v, d.get? n = some v → v.prop "branch" = some (.string (chosenBranch g m n)) := by
    intro n v hv
    have hmem : (n, v) ∈ fired := (hf.get?.mp hv).resolve_left (by simp)
    obtain ⟨pre, post, heq⟩ := List.append_of_mem hmem
    have hv' : follow g m (stepOf g payload d n) = v :=
      StepResult.output.inj (hans pre n v post heq)
    rw [← hv', follow_branch, stepOf_nodeId]
  have hkey := completed_of_follow hw hrank hset hout hm hid fun b c hb => by
    simp [chosenBranch, hb]
  rw [hrun]
  simpa [hf.keys] using hkey

/-- Only merge nodes can have conflicting inputs. -/
theorem conflict_merge (hw : WellFormed g) {node : WorkflowNode} (hn : node ∈ g.nodes)
    (h : Conflict g node.id) : node.type = .merge := by
  obtain ⟨hne, first, second, rest, _, _, _, hin, _⟩ := h
  by_contra hm
  have := hw.singleIncoming node hn hne hm
  simp [hin] at this

/-- Required choices are the condition for a node to run. On a graph that passes every check,
a walk yields a node only if each branch node of its required choices gave the recorded output,
a walk that ends with status completed yields every such node, and some executor reaches the
node. A graph that fails only the merge check has a merge node that no walk yields. -/
theorem requiredChoices_meaning (schemas : ConfigSchemas) (g : WorkflowGraph)
    (passed : validateBeforeMerges schemas g = .ok ()) :
    (validateMerges g = .ok () → ∀ node ∈ g.nodes, ∃ choices cache,
      requiredChoices g (g.nodes.length + 1) OrderedMap.empty node.id = .ok (choices, cache) ∧
      (∀ payload execute,
        let run := driveWalk g OrderedMap.empty payload execute
        let out := (completedAfter OrderedMap.empty run.1).get?
        let yielded := node.id ∈ run.1.map fun p => p.1.nodeId
        (yielded → Holds choices out) ∧
          (run.2 = .returned .completed → Holds choices out → yielded)) ∧
      ∀ payload, ∃ answer, BranchesMatch g answer ∧
        node.id ∈ (driveWalk g OrderedMap.empty payload (errorFree answer)).1.map
          fun p => p.1.nodeId) ∧
    ∀ e, validateMerges g = .error e → ∃ node ∈ g.nodes, node.type = .merge ∧
      ∀ payload execute, node.id ∉
        (driveWalk g OrderedMap.empty payload execute).1.map fun p => p.1.nodeId := by
  obtain ⟨hw, _, marks, hvisit, hall⟩ := validateBeforeMerges_ok_iff.mp passed
  have hrank := ranking_of_search hw hvisit hall
  refine ⟨fun hmerges node hn => ?_, fun e he => ?_⟩
  · have hid : node.id ∈ g.nodeIds := List.mem_map_of_mem hn
    obtain ⟨choices, cache, hcall, hreq⟩ := requiredChoices_returns hw hrank hmerges hid
    refine ⟨choices, cache, hcall, fun payload execute => ?_, fun payload =>
      ⟨_, follow_matches hw hrank hreq, follow_completes hw hrank hreq hid payload⟩⟩
    obtain ⟨hkeys, hyielded, hend⟩ := walk_ready hw payload execute
    refine ⟨fun hy => holds_of_ready hw hkeys hreq (hyielded _ hy), fun hcompleted hholds => ?_⟩
    obtain ⟨hset, hlogged⟩ := hend hcompleted
    exact hlogged _ (completed_of_holds hw hset hreq hid hholds)
  · obtain ⟨id, hid, hconf⟩ := validateMerges_error hw hrank he
    obtain ⟨node, hn, rfl⟩ := List.mem_map.mp hid
    refine ⟨node, hn, conflict_merge hw hn hconf, fun payload execute hy => ?_⟩
    obtain ⟨hkeys, hyielded, _⟩ := walk_ready hw payload execute
    exact conflict_not_ready hw hkeys hconf (hyielded _ hy)

theorem requiredChoices_meaning_reviewGraph :
    ∃ answer, BranchesMatch reviewGraph answer ∧
      "joined" ∈ (driveWalk reviewGraph OrderedMap.empty .null (errorFree answer)).1.map
        fun p => p.1.nodeId := by
  obtain ⟨_, _, _, _, h⟩ := (requiredChoices_meaning acceptAll reviewGraph rfl).1 rfl
    ⟨"joined", .merge, []⟩ (by simp [reviewGraph])
  exact h .null

/-- A branch node beside a node that requires no choice. -/
def besideGraph : WorkflowGraph where
  entryNodeId := "start"
  nodes := [⟨"start", .start, []⟩, ⟨"decide", .branch, []⟩, ⟨"accept", .endNode, []⟩,
    ⟨"side", .transform, []⟩]
  edges := [⟨"start", "decide", none⟩, ⟨"start", "side", none⟩,
    ⟨"decide", "accept", some "yes"⟩]

/-- An output that selects no edge stops the walk before nodes that require no choice. -/
theorem unmatched_branch_stops_side :
    validateGraphStructure acceptAll besideGraph = .ok () ∧
      (∃ cache, requiredChoices besideGraph 5 OrderedMap.empty "side" =
        .ok (OrderedMap.empty, cache)) ∧
      "side" ∉ (driveWalk besideGraph OrderedMap.empty .null
        (errorFree fun _ => takeBranch "no")).1.map fun p => p.1.nodeId := by
  refine ⟨rfl, ⟨_, rfl⟩, ?_⟩
  have hids : (driveWalk besideGraph OrderedMap.empty .null
      (errorFree fun _ => takeBranch "no")).1.map (fun p => p.1.nodeId) = ["start", "decide"] := rfl
  rw [hids]
  decide

end Linea.Walker
