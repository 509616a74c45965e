import Linea.Firing
import Linea.WalkerReady

/-! One call of the generator and whole walks. A walk fires nodes under `walkRule`; it stops
because nothing is ready any more, because a step failed, or because a branch output selects
no edge. -/
namespace Linea.Walker
open ExceptLaws WorkflowGraph OrderedMap Validate FiringRule

variable {g : WorkflowGraph} {c d : CompletedMap} {payload : Value}

/-- The output of a branch node with outgoing edges selects one of them. -/
def Matches (g : WorkflowGraph) (node : WorkflowNode) (output : Value) : Prop :=
  node.type = .branch → g.outgoingEdges node.id ≠ [] →
    ∃ edge ∈ g.outgoingEdges node.id, Selects output edge

/-- What a walk may do: complete a ready node, a branch node with a matching output. -/
def walkRule (g : WorkflowGraph) : FiringRule String Value := fun c id output =>
  ∃ node, g.findNode id = some node ∧ ReadyIn g c id ∧ Matches g node output

theorem walkRule_monotone : FiringRule.Monotone (walkRule g) := by
  rintro m n id v he ⟨node, hn, hr, hm⟩
  exact ⟨node, hn, hr.mono he, hm⟩

/-- The step the walker yields for a node. -/
def stepAt (g : WorkflowGraph) (payload : Value) (c : CompletedMap) (node : WorkflowNode) :
    StepToExecute :=
  ⟨node.id, node.type, inputOf g payload c node⟩

def stepOf (g : WorkflowGraph) (payload : Value) (c : CompletedMap) (id : String) :
    StepToExecute :=
  ((g.findNode id).map (stepAt g payload c)).getD ⟨id, .start, .undefined⟩

theorem stepOf_eq {id : String} {node : WorkflowNode} (h : g.findNode id = some node) :
    stepOf g payload c id = stepAt g payload c node := by simp [stepOf, h]

theorem stepAt_stable {node : WorkflowNode} (hr : ReadyIn g c node.id) (he : Extends c d) :
    stepAt g payload d node = stepAt g payload c node := by
  simp [stepAt, inputOf_stable hr he]

/-- Everything ready has been completed. -/
def Settled (g : WorkflowGraph) (c : CompletedMap) : Prop :=
  ∀ id ∈ g.nodeIds, ReadyIn g c id → id ∈ c.keys

/-- Where a generator stands whose completed map is `c`. -/
inductive Standing (g : WorkflowGraph) (payload : Value) (c : CompletedMap) : Progress → Prop
  | done : Settled g c → Standing g payload c (.returned .completed)
  | waiting {node : WorkflowNode} {queued : Finset String} {ready : List String}
      (mem : node ∈ g.nodes)
      (queue : QueueInv g ⟨c, insert node.id queued, node.id :: ready⟩)
      (full : Full g ⟨c, insert node.id queued, node.id :: ready⟩)
      (clean : node.id ∉ queued) :
      Standing g payload c (.yielded (stepAt g payload c node) node ⟨c, queued, ready⟩)

/-- The nodes a generator has still in its queue, the one it stands at first. -/
def queueOf : Progress → List String
  | .yielded _ node s => node.id :: s.ready
  | .returned _ => []

theorem QueueInv.head_erased {id : String} {queued : Finset String} {ready : List String}
    (hq : QueueInv g ⟨c, queued, id :: ready⟩) : insert id (queued.erase id) = queued :=
  Finset.insert_erase ((hq.queued id).mpr (by simp))

/-- From a sound and full queue the loop either yields the head or returns. -/
theorem advance_standing (hw : WellFormed g) (payload : Value) {s : WalkState} (hq : QueueInv g s)
    (hf : Full g s) :
    ∃ p, advance g payload s.completed s.ready s.queued = .ok p ∧
      Standing g payload s.completed p ∧ queueOf p = s.ready := by
  obtain ⟨c, queued, ready⟩ := s
  cases ready with
  | nil => exact ⟨_, rfl, .done fun id hid hr => (hf id hid hr).resolve_right (by simp), rfl⟩
  | cons id ready =>
    have hfresh : c.has id = false := by simpa [has] using hq.fresh id (by simp)
    obtain ⟨node, hn⟩ := findNode_exists (hq.known id (by simp))
    obtain ⟨hmem, rfl⟩ := findNode_some hn
    refine ⟨.yielded (stepAt g payload c node) node ⟨c, queued.erase node.id, ready⟩, ?_, ?_, rfl⟩
    · simp [advance, hfresh, getNode, hn, resolveInput_eq hw hmem, stepAt]
    · have he := hq.head_erased
      exact .waiting hmem (he.symm ▸ hq) (he.symm ▸ hf) (by simp)

theorem walk_standing (hw : WellFormed g) (payload : Value) (hr : Readable g c) :
    ∃ p, walk g c payload = .ok p ∧ Standing g payload c p := by
  have hq : QueueInv g ⟨c, ∅, []⟩ := ⟨by simp, by simp, by simp, by simp, by simp⟩
  obtain ⟨s, hs, hc, hsq, _, hall⟩ := enqueueAll_spec hw hr hq fun id h => h
  have hf : Full g s := by
    intro id hid hrd
    rw [hc] at hrd ⊢
    exact hall id hid hrd
  obtain ⟨p, hp, hst, _⟩ := advance_standing hw payload hsq hf
  rw [hc] at hst
  exact ⟨p, by rw [walk, hs, ok_bind, hp], hst⟩

/-- The nodes to try next include the target of every edge the output activates. -/
theorem nextNodeIds_spec (hw : WellFormed g) {node : WorkflowNode} (hn : node ∈ g.nodes)
    {output : Value} (hm : Matches g node output) :
    ∃ next, nextNodeIds g node output = .ok next ∧ (∀ id ∈ next, id ∈ g.nodeIds) ∧
      ∀ edge ∈ g.outgoingEdges node.id, (node.type = .branch → Selects output edge) →
        edge.target ∈ next := by
  have hknown : ∀ edge ∈ g.outgoingEdges node.id, edge.target ∈ g.nodeIds := fun edge he =>
    (hw.ends edge (mem_outgoingEdges.mp he).1).2
  unfold nextNodeIds
  by_cases h0 : g.outgoingEdges node.id = []
  · exact ⟨[], by simp [h0], by simp, by simp [h0]⟩
  · have hlen : (g.outgoingEdges node.id).length ≠ 0 := by simpa using h0
    simp only [hlen, if_false]
    by_cases hb : node.type = .branch
    · obtain ⟨edge, he, branch, hbr, hs⟩ := hm hb h0
      have hex : ∃ f, (g.outgoingEdges node.id).find?
          (fun e => branch.strictEq e.condition) = some f := by
        cases hf : (g.outgoingEdges node.id).find? fun e => branch.strictEq e.condition with
        | some f => exact ⟨f, rfl⟩
        | none => exact absurd hs (List.find?_eq_none.mp hf edge he)
      obtain ⟨f, hf⟩ := hex
      have hfm := List.mem_of_find?_eq_some hf
      have hfs : branch.strictEq f.condition = true := by simpa using List.find?_some hf
      refine ⟨[f.target], by simp [hb, hbr, hf], by simpa using hknown f hfm, ?_⟩
      intro e hmem hsel
      obtain ⟨b', hb', hs'⟩ := hsel hb
      obtain rfl : branch = b' := Option.some.inj (hbr.symm.trans hb')
      obtain ⟨ce, hce⟩ := hw.branch_condition hn hb hmem
      obtain ⟨cf, hcf⟩ := hw.branch_condition hn hb hfm
      rw [hce, Value.strictEq_some] at hs'
      rw [hcf, Value.strictEq_some] at hfs
      have : e = f := hw.branch_edge_unique hn hb hmem hfm (by
        rw [hce, hcf]
        exact congrArg some (Value.string.inj (hs'.symm.trans hfs)))
      simp [this]
    · refine ⟨(g.outgoingEdges node.id).map WorkflowEdge.target, by simp [hb], ?_, ?_⟩
      · intro id hid
        obtain ⟨edge, he, rfl⟩ := List.mem_map.mp hid
        exact hknown edge he
      · exact fun edge he _ => List.mem_map_of_mem he

/-- An output that selects no edge makes the walker throw. -/
theorem nextNodeIds_unmatched {node : WorkflowNode} {output : Value}
    (hm : ¬ Matches g node output) :
    (output.prop "branch" = none ∧
      nextNodeIds g node output = .error (.typeError output "branch")) ∨
    ∃ branch, output.prop "branch" = some branch ∧
      nextNodeIds g node output = .error (.unmatchedBranch node.id branch) := by
  simp only [Matches, Classical.not_imp, not_exists, not_and] at hm
  obtain ⟨hb, h0, hno⟩ := hm
  have hlen : (g.outgoingEdges node.id).length ≠ 0 := by simpa using h0
  unfold nextNodeIds
  simp only [hlen, if_false, hb, if_true]
  cases hp : output.prop "branch" with
  | none => exact Or.inl ⟨rfl, rfl⟩
  | some branch =>
    have hf : (g.outgoingEdges node.id).find? (fun e => branch.strictEq e.condition) = none := by
      rw [List.find?_eq_none]
      exact fun edge he hs => hno edge he ⟨branch, hp, hs⟩
    exact Or.inr ⟨branch, rfl, by simp [hf]⟩

/-- Recording an output whose `branch` can be read. -/
theorem Readable.set_of_prop (hr : Readable g c) {node : WorkflowNode}
    (hn : g.findNode node.id = some node) {output : Value}
    (hp : node.type = .branch → g.outgoingEdges node.id ≠ [] →
      ∃ branch, output.prop "branch" = some branch) : Readable g (c.set node.id output) := by
  intro edge he o ho hb
  rw [get?_set] at ho
  split_ifs at ho with heq
  · cases ho
    obtain ⟨m, hm', hmb⟩ := hb
    rw [heq, hn] at hm'
    cases hm'
    exact hp hmb (List.ne_nil_of_mem (mem_outgoingEdges.mpr ⟨he, heq⟩))
  · exact hr edge he o ho hb

theorem Readable.set (hr : Readable g c) {node : WorkflowNode} (hn : g.findNode node.id = some node)
    {output : Value} (hm : Matches g node output) : Readable g (c.set node.id output) := by
  refine hr.set_of_prop hn fun hb hne => ?_
  obtain ⟨_, _, branch, hbr, _⟩ := hm hb hne
  exact ⟨branch, hbr⟩

theorem Fired.readable {fired : List (String × Value)} (h : Fired (walkRule g) c fired d)
    (hr : Readable g c) : Readable g d := by
  induction h with
  | nil => exact hr
  | cons _ hrule _ ih =>
    obtain ⟨node, hn, _, hm⟩ := hrule
    obtain ⟨_, rfl⟩ := findNode_some hn
    exact ih (hr.set hn hm)

/-- A node that completing `node` made ready is the target of an edge the output activates. -/
theorem newly_ready (hu : g.nodeIds.Nodup) {node : WorkflowNode} (hn : node ∈ g.nodes)
    {output : Value} {id : String}
    (hr : ReadyIn g (c.set node.id output) id) (hnr : ¬ ReadyIn g c id) :
    ∃ edge ∈ g.outgoingEdges node.id, edge.target = id ∧
      (node.type = .branch → Selects output edge) := by
  simp only [ReadyIn, not_forall] at hnr
  obtain ⟨edge, he, hna⟩ := hnr
  obtain ⟨o, ho, hsel⟩ := hr edge he
  have hedge := mem_incomingEdges.mp he
  rw [get?_set] at ho
  split_ifs at ho with heq
  · cases ho
    refine ⟨edge, mem_outgoingEdges.mpr ⟨hedge.1, heq⟩, hedge.2, fun hb => ?_⟩
    exact hsel ⟨node, heq ▸ findNode_of_mem hu hn, hb⟩
  · exact absurd ⟨o, ho, hsel⟩ hna

/-- Feeding back a matching output completes the node and leaves the generator standing; nodes
that have become ready join the end of the queue. -/
theorem resume_standing (hw : WellFormed g) (hr : Readable g c) {step : StepToExecute}
    {node : WorkflowNode} {s : WalkState} (hst : Standing g payload c (.yielded step node s))
    {output : Value} (hm : Matches g node output) :
    ∃ p, resume g payload node s (.output output) = .ok p ∧
      Standing g payload (c.set node.id output) p ∧ s.ready <+: queueOf p := by
  cases hst with
  | @waiting _ queued ready hmem hq hf hclean =>
    have hnew : node.id ∉ c.keys := hq.fresh node.id (by simp)
    have hext := extends_set hnew output
    have hfind := findNode_of_mem hw.ids hmem
    obtain ⟨next, hnext, hknown, htargets⟩ := nextNodeIds_spec hw hmem hm
    have hnodup := List.nodup_cons.mp hq.nodup
    have hq' : QueueInv g ⟨c.set node.id output, queued, ready⟩ := by
      refine ⟨fun id => ?_, hnodup.2, fun id hid => ?_, fun id hid => ?_, fun id hid => ?_⟩
      · have := hq.queued id
        by_cases hid : id = node.id
        · subst hid
          exact ⟨fun h => absurd h hclean, fun h => absurd h hnodup.1⟩
        · simpa [hid] using this
      · rw [mem_keys_set, not_or]
        exact ⟨fun h => hnodup.1 (h ▸ hid), hq.fresh id (List.mem_cons_of_mem _ hid)⟩
      · exact hq.known id (List.mem_cons_of_mem _ hid)
      · exact (hq.ready id (List.mem_cons_of_mem _ hid)).mono hext
    obtain ⟨t, ht, htc, htq, hpre, hall⟩ := enqueueAll_spec hw (hr.set hfind hm) hq' hknown
    have htf : Full g t := by
      intro id hid hready
      rw [htc] at hready ⊢
      by_cases hold : ReadyIn g c id
      · rcases hf id hid hold with h | h
        · exact Or.inl (hext.keys h)
        · rcases List.mem_cons.mp h with rfl | h
          · exact Or.inl (by simp)
          · exact Or.inr (hpre.subset h)
      · obtain ⟨edge, he, rfl, hsel⟩ := newly_ready hw.ids hmem hready hold
        exact hall _ (htargets edge he hsel) hready
    obtain ⟨p, hp, hstand, hqueue⟩ := advance_standing hw payload htq htf
    rw [htc] at hstand
    refine ⟨p, ?_, hstand, hqueue ▸ hpre⟩
    simp only [resume, hnext, ok_bind, ht]
    exact hp

/-- The pairs of a firing run, as the driver logs them. -/
def logged (g : WorkflowGraph) (payload : Value) (c : CompletedMap) (fired : List (String × Value)) :
    History :=
  fired.map fun p => (stepOf g payload c p.1, .output p.2)

theorem logged_stable {fired : List (String × Value)} (h : Fired (walkRule g) c fired d)
    {e : CompletedMap} (he : Extends d e) : logged g payload e fired = logged g payload d fired := by
  apply List.map_congr_left
  intro p hp
  obtain ⟨node, hn, hready, _⟩ := h.justified walkRule_monotone p hp
  have hid := (findNode_some hn).2
  rw [stepOf_eq hn, stepOf_eq hn, stepAt_stable (hid.symm ▸ hready) he]

/-- Each logged output is the executor's answer to what was logged before it. -/
def Answered (g : WorkflowGraph) (payload : Value) (execute : Executor) (history : History)
    (c : CompletedMap) (fired : List (String × Value)) : Prop :=
  ∀ pre id v post, fired = pre ++ (id, v) :: post →
    execute (history ++ logged g payload c pre) (stepOf g payload c id) = .output v

/-- How a walk ends after firing its way to `d`. -/
inductive Ended (g : WorkflowGraph) (payload : Value) (execute : Executor) (history : History)
    (d : CompletedMap) : History → Outcome → Prop
  | completed : Settled g d → Ended g payload execute history d [] (.returned .completed)
  | failed {node : WorkflowNode} {message : String} (mem : node ∈ g.nodes)
      (fresh : node.id ∉ d.keys) (ready : ReadyIn g d node.id)
      (answer : execute history (stepAt g payload d node) = .error message) :
      Ended g payload execute history d [(stepAt g payload d node, .error message)]
        (.returned (.failed node.id message))
  | threw {node : WorkflowNode} {output : Value} {error : WalkError} (mem : node ∈ g.nodes)
      (fresh : node.id ∉ d.keys) (ready : ReadyIn g d node.id)
      (answer : execute history (stepAt g payload d node) = .output output)
      (unmatched : ¬ Matches g node output)
      (thrown : nextNodeIds g node output = .error error) :
      Ended g payload execute history d [(stepAt g payload d node, .output output)]
        (.threw error)

/-- Nodes not completed yet. -/
def remaining (g : WorkflowGraph) (c : CompletedMap) : ℕ :=
  (g.nodeIds.filter fun id => id ∉ c.keys).length

theorem remaining_set {id : String} (hid : id ∈ g.nodeIds) (hnew : id ∉ c.keys) (v : Value) :
    remaining g (c.set id v) < remaining g c := by
  have hsub : (g.nodeIds.filter fun n => n ∉ (c.set id v).keys).Sublist
      (g.nodeIds.filter fun n => n ∉ c.keys) := by
    apply List.monotone_filter_right
    intro n hn
    simp only [decide_eq_true_eq, mem_keys_set, not_or] at hn ⊢
    exact hn.2
  refine lt_of_le_of_ne hsub.length_le fun heq => ?_
  have hall := hsub.eq_of_length heq
  have hmem : id ∈ g.nodeIds.filter fun n => n ∉ c.keys := by simp [hid, hnew]
  rw [← hall] at hmem
  simp at hmem

theorem answered_nil (execute : Executor) (history : History) :
    Answered g payload execute history d [] := by
  intro pre id v post h
  simp at h

/-- The answers of a run, one step earlier. -/
theorem Answered.cons {execute : Executor} {history : History} {id : String} {output : Value}
    {fired : List (String × Value)}
    (first : execute history (stepOf g payload d id) = .output output)
    (rest : Answered g payload execute (history ++ logged g payload d [(id, output)]) d fired) :
    Answered g payload execute history d ((id, output) :: fired) := by
  intro pre n v post heq
  cases pre with
  | nil =>
    simp only [List.nil_append, List.cons.injEq, Prod.mk.injEq] at heq
    obtain ⟨⟨rfl, rfl⟩, _⟩ := heq
    simpa [logged] using first
  | cons q pre =>
    simp only [List.cons_append, List.cons.injEq] at heq
    obtain ⟨rfl, heq⟩ := heq
    simpa [logged] using rest pre n v post heq

/-- What `drive` logs from `p` on: the steps of a firing run, answered by the executor, and
then one of the three ends. -/
def Drives (g : WorkflowGraph) (payload : Value) (execute : Executor) (history : History)
    (c : CompletedMap) (result : History × Outcome) : Prop :=
  ∃ fired d last, Fired (walkRule g) c fired d ∧ Answered g payload execute history d fired ∧
    Ended g payload execute (history ++ logged g payload d fired) d last result.2 ∧
    result.1 = history ++ logged g payload d fired ++ last

/-- A walk that ends without completing another node. -/
theorem Drives.stop {execute : Executor} {history last : History} {outcome : Outcome}
    (hend : Ended g payload execute history c last outcome) :
    Drives g payload execute history c (history ++ last, outcome) :=
  ⟨[], c, last, .nil c, answered_nil execute history, by simpa [logged] using hend,
    by simp [logged]⟩

/-- A walk that completes `node` and goes on. -/
theorem Drives.step {execute : Executor} {history : History} {node : WorkflowNode}
    {output : Value} {result : History × Outcome} (hfind : g.findNode node.id = some node)
    (hnew : node.id ∉ c.keys) (hready : ReadyIn g c node.id) (hm : Matches g node output)
    (hans : execute history (stepAt g payload c node) = .output output)
    (h : Drives g payload execute (history ++ [(stepAt g payload c node, .output output)])
      (c.set node.id output) result) :
    Drives g payload execute history c result := by
  obtain ⟨fired, d, last, hfired, hansd, hend, hlog⟩ := h
  have hext : Extends c d := (extends_set hnew output).trans hfired.extends
  have hstep : stepOf g payload d node.id = stepAt g payload c node := by
    rw [stepOf_eq hfind, stepAt_stable hready hext]
  have hone : logged g payload d [(node.id, output)] =
      [(stepAt g payload c node, .output output)] := by simp [logged, hstep]
  have hcons : history ++ logged g payload d ((node.id, output) :: fired) =
      history ++ [(stepAt g payload c node, .output output)] ++ logged g payload d fired := by
    simp [logged, hstep]
  refine ⟨(node.id, output) :: fired, d, last, .cons hnew ⟨node, hfind, hready, hm⟩ hfired,
    ?_, ?_, ?_⟩
  · exact .cons (by rw [hstep]; exact hans) (hone ▸ hansd)
  · rw [hcons]
    exact hend
  · rw [hcons]
    exact hlog

/-- Whole walks, from a standing generator with enough fuel. -/
theorem drive_spec (hw : WellFormed g) (execute : Executor) {fuel : ℕ} {history : History}
    (hr : Readable g c) {p : Progress} (hst : Standing g payload c p)
    (hfuel : remaining g c ≤ fuel) :
    Drives g payload execute history c (drive g payload execute fuel history (.ok p)) := by
  induction fuel generalizing c history p with
  | zero =>
    cases hst with
    | done hset =>
      have h : Drives g payload execute history c (history ++ [], .returned .completed) :=
        .stop (.completed hset)
      simpa [drive] using h
    | @waiting node queued ready hmem hq _ _ =>
      have hnew : node.id ∉ c.keys := hq.fresh node.id (by simp)
      have hlt := remaining_set (g := g) (List.mem_map_of_mem hmem) hnew .undefined
      omega
  | succ fuel ih =>
    cases hst with
    | done hset =>
      have h : Drives g payload execute history c (history ++ [], .returned .completed) :=
        .stop (.completed hset)
      simpa [drive] using h
    | @waiting node queued ready hmem hq hf hclean =>
      have hnew : node.id ∉ c.keys := hq.fresh node.id (by simp)
      have hready : ReadyIn g c node.id := hq.ready node.id (by simp)
      have hfind := findNode_of_mem hw.ids hmem
      rw [drive]
      cases hans : execute history (stepAt g payload c node) with
      | error message =>
        have hres : drive g payload execute fuel
            (history ++ [(stepAt g payload c node, .error message)])
            (resume g payload node ⟨c, queued, ready⟩ (.error message)) =
            (history ++ [(stepAt g payload c node, .error message)],
              .returned (.failed node.id message)) := by cases fuel <;> rfl
        rw [hres]
        exact .stop (.failed hmem hnew hready hans)
      | output output =>
        by_cases hm : Matches g node output
        · obtain ⟨q, hq', hstq, _⟩ := resume_standing hw hr (.waiting hmem hq hf hclean) hm
          have hlt := remaining_set (g := g) (List.mem_map_of_mem hmem) hnew output
          rw [hq']
          exact .step hfind hnew hready hm hans (ih (hr.set hfind hm) hstq (by omega))
        · obtain ⟨error, hthrown⟩ : ∃ error, nextNodeIds g node output = .error error := by
            rcases nextNodeIds_unmatched hm with ⟨_, h⟩ | ⟨b, _, h⟩ <;> exact ⟨_, h⟩
          have hres : drive g payload execute fuel
              (history ++ [(stepAt g payload c node, .output output)])
              (resume g payload node ⟨c, queued, ready⟩ (.output output)) =
              (history ++ [(stepAt g payload c node, .output output)], .threw error) := by
            rw [resume, hthrown, error_bind]
            cases fuel <;> rfl
          rw [hres]
          exact .stop (.threw hmem hnew hready hans hm hthrown)

/-- The same for a walk from any readable completed map. -/
theorem driveWalk_spec (hw : WellFormed g) (payload : Value) (execute : Executor)
    (hr : Readable g c) :
    Drives g payload execute [] c (driveWalk g c payload execute) := by
  obtain ⟨p, hp, hst⟩ := walk_standing hw payload hr
  have hfuel : remaining g c ≤ g.nodes.length :=
    (List.length_filter_le _ _).trans (by simp [nodeIds])
  rw [driveWalk, hp]
  exact drive_spec hw execute hr hst hfuel

end Linea.Walker
