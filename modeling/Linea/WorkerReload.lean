import Linea.WorkerRecovery

/-! The same walk from another completed map. Two maps that the columns give back alike activate the
same edges, so that a walk takes the same nodes from the one as from the other; as long as they
agree on the outputs that a node still to come is given, its handlers see the same inputs and it
ends in the same way. -/
namespace Linea.Worker
open Walker OrderedMap ExecutionRecord RecordStepInput WorkflowGraph Validate Columns FiringRule
open ExceptLaws

variable {g : WorkflowGraph} {payload : Value} {c d : CompletedMap} {vars : Value}

/-- Handlers as functions of the node with its configuration, the input and the variables. -/
abbrev Handlers := WorkflowNode → Value → Value → StepResult

def answerOf (handlers : Handlers) (p : Pass) : StepResult := handlers p.node p.step.input p.vars

/-- A node that the walk may still come to: with some outputs of the nodes that become ready
before it, all of its incoming edges are activated. -/
def MayCome (g : WorkflowGraph) (c : CompletedMap) (id : String) : Prop :=
  ∃ fired d, Fired (walkRule g) c fired d ∧ id ∈ g.nodeIds ∧ id ∉ d.keys ∧ ReadyIn g d id

/-- The same pass over another completed map. -/
def Pass.reload (d : CompletedMap) (p : Pass) : Pass :=
  { p with walker := { p.walker with completed := d } }

theorem MayCome.of_set {node : WorkflowNode} {output : Value} {id : String}
    (h : MayCome g (c.set node.id output) id) (found : g.findNode node.id = some node)
    (fresh : node.id ∉ c.keys) (ready : ReadyIn g c node.id) (hm : Matches g node output) :
    MayCome g c id := by
  obtain ⟨fired, d, hf, rest⟩ := h
  exact ⟨_, d, .cons fresh ⟨node, found, ready, hm⟩ hf, rest⟩

/-- A generator at the same point over another completed map. -/
def reload (g : WorkflowGraph) (payload : Value) (d : CompletedMap) : Progress → Progress
  | .yielded _ node w => .yielded (stepAt g payload d node) node { w with completed := d }
  | .returned result => .returned result

@[simp] theorem queueOf_reload (progress : Progress) :
    queueOf (reload g payload d progress) = queueOf progress := by
  cases progress <;> rfl

/-- The same nodes are completed and the same nodes are ready. -/
structure SameNodes (g : WorkflowGraph) (c d : CompletedMap) : Prop where
  keys : d.keys = c.keys
  ready : ∀ id, ReadyIn g d id ↔ ReadyIn g c id
  readable : Readable g c
  readable' : Readable g d

theorem SameNodes.has (h : SameNodes g c d) (id : String) : d.has id = c.has id := by
  simp only [OrderedMap.has, h.keys]

theorem SameNodes.isReady (hw : WellFormed g) (h : SameNodes g c d) (id : String) :
    isReady g d id = isReady g c id := by
  classical
  rw [isReady_eq hw h.readable', isReady_eq hw h.readable]
  simp only [h.ready id]

theorem enqueue_reload (hw : WellFormed g) {w : WalkState} (h : SameNodes g w.completed d)
    (id : String) : enqueue g { w with completed := d } id =
      (enqueue g w id).map fun t => { t with completed := d } := by
  simp only [enqueue, h.has, h.isReady hw]
  split_ifs
  · rfl
  · cases isReady g w.completed id with
    | error e => rfl
    | ok ready => cases ready <;> rfl

theorem enqueueAll_reload (hw : WellFormed g) {w : WalkState} (h : SameNodes g w.completed d)
    (ids : List String) : enqueueAll g { w with completed := d } ids =
      (enqueueAll g w ids).map fun t => { t with completed := d } := by
  induction ids generalizing w with
  | nil => rfl
  | cons id ids ih =>
    simp only [enqueueAll, List.foldlM_cons, enqueue_reload hw h] at ih ⊢
    cases ht : enqueue g w id with
    | error e => rfl
    | ok t => exact ih ((enqueue_completed ht).symm ▸ h)

theorem advance_reload (hw : WellFormed g) (h : SameNodes g c d) (ready : List String)
    (queued : Finset String) : advance g payload d ready queued =
      (advance g payload c ready queued).map (reload g payload d) := by
  induction ready generalizing queued with
  | nil => rfl
  | cons id ready ih =>
    simp only [advance, h.has]
    split_ifs
    · exact ih _
    · unfold getNode
      cases hfound : g.findNode id with
      | none => rfl
      | some node =>
        have hmem := (findNode_some hfound).1
        simp only [ok_bind, resolveInput_eq hw hmem]
        rfl

theorem walk_reload (hw : WellFormed g) (payload : Value) (h : SameNodes g c d) :
    walk g d payload = (walk g c payload).map (reload g payload d) := by
  have hall := enqueueAll_reload hw (w := ⟨c, ∅, []⟩) h g.nodeIds
  simp only [walk, hall]
  cases ht : enqueueAll g ⟨c, ∅, []⟩ g.nodeIds with
  | error e => rfl
  | ok t =>
    obtain rfl : t.completed = c := enqueueAll_completed ht
    exact advance_reload hw h t.ready t.queued

theorem resume_reload (hw : WellFormed g) {node : WorkflowNode} {w : WalkState} {output : Value}
    (h : SameNodes g (w.completed.set node.id output) (d.set node.id output)) :
    resume g payload node { w with completed := d } (.output output) =
      (resume g payload node w (.output output)).map (reload g payload (d.set node.id output)) := by
  simp only [resume]
  cases nextNodeIds g node output with
  | error e => rfl
  | ok next =>
    have hall := enqueueAll_reload hw
      (w := { w with completed := w.completed.set node.id output }) h next
    simp only [ok_bind, hall]
    cases ht : enqueueAll g { w with completed := w.completed.set node.id output } next with
    | error e => rfl
    | ok t =>
      have hc : t.completed = w.completed.set node.id output := enqueueAll_completed ht
      rw [← hc] at h
      exact advance_reload hw h t.ready t.queued

section Reloads
variable [Columns] {vars' : Value} {handlers : Handlers} {executionId : String} {p : Pass}

theorem Storable.get? (h : Storable c vars) {id : String} {output : Value}
    (hget : c.get? id = some output) : takes output = true :=
  (h.context _ (get?_iff_mem.mp hget)).2

/-- The columns take a completed map with a new output if they take the output. -/
theorem Storable.takes_set (h : Storable c vars) {id : String} {output : Value}
    (fresh : id ∉ c.keys) (text : isText id = true) :
    takes (.object (c.set id output).entries) = takes output := by
  rw [Bool.eq_iff_iff]
  constructor
  · exact fun htakes => takes_member htakes (id, output) (by simp [entries_set_of_notMem fresh])
  · exact fun htakes => takes_object (h.set fresh text htakes h.vars).context

/-- Two completed maps that can be stored with the variables and that the columns give back
alike. -/
structure Reloaded (g : WorkflowGraph) (c d : CompletedMap) (vars : Value) : Prop where
  same : stored d = stored c
  storable : Storable c vars
  storable' : Storable d vars
  readable : Readable g c
  readable' : Readable g d

theorem Reloaded.symm (h : Reloaded g c d vars) : Reloaded g d c vars :=
  ⟨h.same.symm, h.storable', h.storable, h.readable', h.readable⟩

theorem Reloaded.keys (h : Reloaded g c d vars) : d.keys = c.keys := by
  rw [← keys_stored d, h.same, keys_stored]

theorem Reloaded.stored_set (h : Reloaded g c d vars) {id : String} (fresh : id ∉ c.keys)
    (output : Value) : stored (d.set id output) = stored (c.set id output) := by
  have fresh' : id ∉ d.keys := by rwa [h.keys]
  rw [Columns.stored_set fresh', Columns.stored_set fresh, h.same]

theorem Reloaded.set (h : Reloaded g c d vars) {node : WorkflowNode} {output : Value}
    (found : g.findNode node.id = some node) (fresh : node.id ∉ c.keys)
    (hm : Matches g node output) (text : isText node.id = true) (htakes : takes output = true)
    (hvars : takesVariables vars' = true) :
    Reloaded g (c.set node.id output) (d.set node.id output) vars' where
  same := h.stored_set fresh output
  storable := h.storable.set fresh text htakes hvars
  storable' := h.storable'.set (h.keys.symm ▸ fresh) text htakes hvars
  readable := h.readable.set found hm
  readable' := h.readable'.set found hm

/-- Which branch was taken is a text, and texts come back as they were. -/
theorem Reloaded.activated (hw : WellFormed g) (h : Reloaded g c d vars) {edge : WorkflowEdge}
    (he : edge ∈ g.edges) (ha : Activated g c edge) : Activated g d edge := by
  obtain ⟨output, hget, hsel⟩ := ha
  have hread := congrArg (fun m => OrderedMap.get? m edge.source) h.same
  simp only [get?_stored, hget, Option.map_some, Option.map_eq_some_iff] at hread
  obtain ⟨output', hget', heq⟩ := hread
  refine ⟨output', hget', fun hb => ?_⟩
  obtain ⟨branch, hprop, hstrict⟩ := hsel hb
  obtain ⟨node, hfound, htype⟩ := hb
  obtain ⟨hmem, hid⟩ := findNode_some hfound
  obtain ⟨condition, hcondition⟩ :=
    hw.branch_condition hmem htype (mem_outgoingEdges.mpr ⟨he, hid.symm⟩)
  rw [hcondition, Value.strictEq_some] at hstrict
  subst hstrict
  refine ⟨.string condition, ?_, by rw [hcondition, Value.strictEq_some]⟩
  rwa [← reads_text (h.storable'.get? hget'), heq, reads_text (h.storable.get? hget)]

theorem Reloaded.sameNodes (hw : WellFormed g) (h : Reloaded g c d vars) : SameNodes g c d where
  keys := h.keys
  ready := fun _ =>
    ⟨fun hr edge he => h.symm.activated hw (mem_incomingEdges.mp he).1 (hr edge he),
      fun hr edge he => h.activated hw (mem_incomingEdges.mp he).1 (hr edge he)⟩
  readable := h.readable
  readable' := h.readable'

/-- Whether the columns take a write depends on the completed map only through its column. -/
theorem accepted_reload (input : RecordStepInput) {completed : CompletedMap}
    (context : isText input.step.nodeId = true →
      takes (.object completed.entries) = takes (.object input.completed.entries)) :
    ({ input with completed := completed } : RecordStepInput).accepted = input.accepted := by
  by_cases text : isText input.step.nodeId = true
  · simp only [accepted, StepRow.accepted, CheckpointRow.accepted, stepRow, checkpointRow,
      context text]
  · simp [accepted, StepRow.accepted, stepRow, text]

theorem Reloaded.takes_set (h : Reloaded g c d vars) {id : String} (fresh : id ∉ c.keys)
    (output : Value) (text : isText id = true) :
    takes (.object (d.set id output).entries) = takes (.object (c.set id output).entries) := by
  rw [h.storable'.takes_set (h.keys.symm ▸ fresh) text, h.storable.takes_set fresh text]

theorem Reloaded.success (h : Reloaded g p.completed d p.vars)
    (yields : Yields g p.completed p.step p.node p.walker) (executionId : String)
    (output vars' : Value) : (successInput executionId (p.reload d) output vars').accepted =
      (successInput executionId p output vars').accepted :=
  accepted_reload (successInput executionId p output vars')
    (h.takes_set (yields.nodeId ▸ yields.fresh) output)

/-- A failed step leaves the same behind. -/
theorem Reloaded.leftBehind (h : Reloaded g p.completed d p.vars)
    (yields : Yields g p.completed p.step p.node p.walker) (executionId message : String)
    (entered : Option (Value × Value)) :
    leftBehind executionId (p.reload d) message entered =
      leftBehind executionId p message entered := by
  cases entered with
  | none =>
    rw [leftBehind_none, leftBehind_none]
    exact congrArg (Final.mk .failed · _) h.same
  | some pair =>
    have haccepted : (failureInput executionId (p.reload d) message (some pair)).accepted =
        (failureInput executionId p message (some pair)).accepted :=
      accepted_reload (failureInput executionId p message (some pair))
        (h.takes_set (yields.nodeId ▸ yields.fresh) pair.1)
    simp only [Worker.leftBehind, haccepted]
    split_ifs
    · exact congrArg (Final.mk .failed · _) (h.stored_set yields.fresh pair.1)
    · exact congrArg (Final.mk .failed · _) h.same

/-- The maps agree on every output that a node still to come is given. -/
def Agree (g : WorkflowGraph) (c d : CompletedMap) : Prop :=
  ∀ edge ∈ g.edges, MayCome g c edge.target → d.get? edge.source = c.get? edge.source

omit [Columns] in
theorem Agree.reload_yielded {step : StepToExecute} {node : WorkflowNode} {w : WalkState}
    (h : Agree g c d) (hst : Standing g payload c (.yielded step node w)) :
    reload g payload d (.yielded step node w) =
      .yielded step node { w with completed := d } := by
  obtain ⟨hmem, hfresh⟩ := standing_node hst
  have hcome : MayCome g c node.id :=
    ⟨[], c, .nil c, List.mem_map_of_mem hmem, hfresh, standing_ready hst⟩
  have hinput : inputOf g payload d node = inputOf g payload c node := by
    refine inputOf_congr payload fun edge he => ?_
    obtain ⟨hedge, htarget⟩ := mem_incomingEdges.mp he
    simp only [lookup, h edge hedge (htarget.symm ▸ hcome)]
  rw [reload, stepAt, hinput, (standing_pass hst).1]
  rfl

omit [Columns] in
theorem Agree.set (h : Agree g c d) {node : WorkflowNode} {output : Value}
    (found : g.findNode node.id = some node) (fresh : node.id ∉ c.keys)
    (ready : ReadyIn g c node.id) (hm : Matches g node output) :
    Agree g (c.set node.id output) (d.set node.id output) := by
  intro edge he hcome
  rw [get?_set, get?_set]
  split_ifs
  · rfl
  · exact h edge he (hcome.of_set found fresh ready hm)

/-- A walk ends over `d` as it does over `c`. -/
theorem Finishes.reload {progress : Progress} {final : Final} (hw : WellFormed g)
    (h : Finishes g payload (answerOf handlers) executionId c vars (.ok progress) final)
    (hst : Standing g payload c progress) (alike : Reloaded g c d vars) (agree : Agree g c d) :
    Finishes g payload (answerOf handlers) executionId d vars
      (.ok (Linea.Worker.reload g payload d progress)) final := by
  generalize hp : (Except.ok progress : Except WalkError Progress) = x at h
  induction h generalizing d progress with
  | threw => cases hp
  | completed =>
    cases hp
    rw [← alike.same]
    exact .completed
  | @failed c vars step node w message answered =>
    cases hp
    have yields := standing_yields hw hst
    obtain rfl := yields.completed
    rw [agree.reload_yielded hst, ← Reloaded.leftBehind (p := ⟨step, node, w, vars⟩) alike yields]
    exact .failed answered
  | @broken c vars step node w output answered unreadable =>
    cases hp
    have yields := standing_yields hw hst
    obtain rfl := yields.completed
    rw [agree.reload_yielded hst, ← Reloaded.leftBehind (p := ⟨step, node, w, vars⟩) alike yields]
    exact .broken answered unreadable
  | @refused c vars vars' step node w output answered adopted refused =>
    cases hp
    have yields := standing_yields hw hst
    obtain rfl := yields.completed
    have hsame := Reloaded.success (p := ⟨step, node, w, vars⟩) alike yields executionId output vars'
    rw [agree.reload_yielded hst, ← Reloaded.leftBehind (p := ⟨step, node, w, vars⟩) alike yields]
    exact .refused answered adopted (hsame.trans refused)
  | @committed c vars vars' step node w output final answered adopted accepted rest ih =>
    cases hp
    have yields := standing_yields hw hst
    have hready := standing_ready hst
    obtain rfl := yields.completed
    have hsame := Reloaded.success (p := ⟨step, node, w, vars⟩) alike yields executionId output vars'
    rw [agree.reload_yielded hst]
    refine .committed answered adopted (hsame.trans accepted) ?_
    by_cases hm : Matches g node output
    · obtain ⟨progress', hres, hst', _⟩ := resume_standing hw alike.readable hst hm
      obtain ⟨text, htakes, hvars⟩ := success_accepted accepted
      have alike' := alike.set yields.found yields.fresh hm (yields.nodeId ▸ text) htakes hvars
      rw [resume_reload hw (alike'.sameNodes hw), hres]
      exact ih hst' alike' (agree.set yields.found yields.fresh hready hm) hres.symm
    · obtain ⟨error, herror⟩ := resume_unmatched payload hm
      rw [herror] at rest ⊢
      cases rest
      rw [← alike.stored_set yields.fresh]
      exact .threw

end Reloads
end Linea.Worker
