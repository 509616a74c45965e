import Linea.WorkerReload

/-! Handlers that tell two walks apart: by the order in which the nodes are taken, by the variables
a handler sees, and by the input of a node the walk can be led to. -/
namespace Linea.Worker
open Walker OrderedMap ExecutionRecord RecordStepInput WorkflowGraph Validate Columns FiringRule

variable {g : WorkflowGraph} {payload : Value} {c d m : CompletedMap} {vars : Value}
  {progress : Progress} {final : Final}

/-- What a crash must not change: status, variables and the output of every node. -/
structure SameEnd (u v : Final) : Prop where
  status : v.status = u.status
  vars : v.vars = u.vars
  outputs : ∀ id, v.completed.get? id = u.completed.get? id

/-- The queue of a standing generator holds exactly the nodes that are ready. -/
theorem standing_queue (h : Standing g payload c progress) :
    (queueOf progress).Nodup ∧ ∀ id, id ∈ queueOf progress ↔
      id ∈ g.nodeIds ∧ id ∉ c.keys ∧ ReadyIn g c id := by
  cases h with
  | done hset =>
    refine ⟨List.nodup_nil, fun id => ⟨fun h => (by cases h), ?_⟩⟩
    rintro ⟨hid, hnew, hready⟩
    exact absurd (hset id hid hready) hnew
  | waiting _ queue full _ =>
    refine ⟨queue.nodup, fun id => ⟨fun h => ?_, fun h => ?_⟩⟩
    · exact ⟨queue.known id h, queue.fresh id h, queue.ready id h⟩
    · exact (full id h.1 h.2.2).resolve_left h.2.1

/-- An output that selects the edge and carries variables. -/
def selecting (edge : Option WorkflowEdge) : Value :=
  .object [("branch", (edge.bind WorkflowEdge.condition).elim .undefined .string),
    ("variables", .object [])]

theorem selecting_selects (edge : WorkflowEdge) : Selects (selecting (some edge)) edge := by
  refine ⟨edge.condition.elim .undefined .string, by simp [selecting, Value.prop, Value.field], ?_⟩
  cases edge.condition <;> simp [Value.strictEq]

/-- An outgoing edge of the node, if it has one. -/
def Outgoing (g : WorkflowGraph) (node : WorkflowNode) : Option WorkflowEdge → Prop
  | some edge => edge ∈ g.outgoingEdges node.id
  | none => g.outgoingEdges node.id = []

theorem outgoing_head (node : WorkflowNode) : Outgoing g node (g.outgoingEdges node.id).head? := by
  cases h : g.outgoingEdges node.id with
  | nil => exact h
  | cons edge rest => simp [Outgoing, h]

theorem selecting_matches {node : WorkflowNode} {edge : Option WorkflowEdge}
    (h : Outgoing g node edge) : Matches g node (selecting edge) := by
  intro _ hne
  cases edge with
  | none => exact absurd h hne
  | some edge => exact ⟨edge, h, selecting_selects edge⟩

/-- The first edge is selected. -/
def agreeable (g : WorkflowGraph) (node : WorkflowNode) : Value :=
  selecting (g.outgoingEdges node.id).head?

/-- Only the node `id` fails. -/
def failingAt (g : WorkflowGraph) (id : String) : Handlers := fun node _ _ =>
  if node.id = id then .error "failed" else .output (agreeable g node)

theorem first_difference {α : Type*} {l l' : List α} (hp : l.Perm l') (hne : l ≠ l') :
    ∃ pre x y rest rest', l = pre ++ x :: rest ∧ l' = pre ++ y :: rest' ∧ x ≠ y := by
  classical
  induction l generalizing l' with
  | nil => exact absurd (List.nil_perm.mp hp).symm hne
  | cons x l ih =>
    cases l' with
    | nil => exact absurd (List.perm_nil.mp hp) hne
    | cons y l' =>
      by_cases hxy : x = y
      · subst hxy
        obtain ⟨pre, u, v, rest, rest', hl, hl', huv⟩ :=
          ih (List.perm_cons x |>.mp hp) fun h => hne (by rw [h])
        exact ⟨x :: pre, u, v, rest, rest', by rw [hl]; rfl, by rw [hl']; rfl, huv⟩
      · exact ⟨[], x, y, l, l', rfl, rfl, hxy⟩

section Led
variable (led : CompletedMap)

open scoped Classical in
/-- An edge of the node that is activated in `led`, or its first edge. -/
noncomputable def ledEdge (g : WorkflowGraph) (node : WorkflowNode) : Option WorkflowEdge :=
  ((g.outgoingEdges node.id).find? fun edge => Activated g led edge).or
    (g.outgoingEdges node.id).head?

/-- Branch nodes answer as in `led`. -/
noncomputable def ledOutput (g : WorkflowGraph) (node : WorkflowNode) : Value :=
  selecting (ledEdge led g node)

variable {led}

theorem ledEdge_outgoing (node : WorkflowNode) : Outgoing g node (ledEdge led g node) := by
  classical
  unfold ledEdge
  cases h : (g.outgoingEdges node.id).find? fun edge => Activated g led edge with
  | none => exact outgoing_head node
  | some edge => exact List.mem_of_find?_eq_some h

/-- Two edges of a branch node are not activated at once. -/
theorem activated_unique (hw : WellFormed g) {node : WorkflowNode} (hn : node ∈ g.nodes)
    (hb : node.type = .branch) {e f : WorkflowEdge} (he : e ∈ g.outgoingEdges node.id)
    (hf : f ∈ g.outgoingEdges node.id) (hae : Activated g c e) (haf : Activated g c f) : e = f := by
  obtain ⟨_, hse⟩ := mem_outgoingEdges.mp he
  obtain ⟨_, hsf⟩ := mem_outgoingEdges.mp hf
  have hbranch : IsBranch g node.id := ⟨node, findNode_of_mem hw.ids hn, hb⟩
  obtain ⟨o, ho, hsel⟩ := hae
  obtain ⟨o', ho', hsel'⟩ := haf
  rw [hse] at ho hsel
  rw [hsf] at ho' hsel'
  obtain rfl : o = o' := Option.some.inj (ho.symm.trans ho')
  obtain ⟨b, hb₁, hs⟩ := hsel hbranch
  obtain ⟨b', hb₂, hs'⟩ := hsel' hbranch
  obtain rfl : b = b' := Option.some.inj (hb₁.symm.trans hb₂)
  obtain ⟨ce, hce⟩ := hw.branch_condition hn hb he
  obtain ⟨cf, hcf⟩ := hw.branch_condition hn hb hf
  rw [hce, Value.strictEq_some] at hs
  rw [hcf, Value.strictEq_some] at hs'
  refine hw.branch_edge_unique hn hb he hf ?_
  rw [hce, hcf, Value.string.inj (hs.symm.trans hs')]

theorem ledOutput_selects (hw : WellFormed g) {node : WorkflowNode} (hn : node ∈ g.nodes)
    (hb : node.type = .branch) {edge : WorkflowEdge} (he : edge ∈ g.outgoingEdges node.id)
    (ha : Activated g led edge) : Selects (ledOutput led g node) edge := by
  classical
  cases hfind : (g.outgoingEdges node.id).find? fun edge => Activated g led edge with
  | none => exact absurd ha (by simpa using List.find?_eq_none.mp hfind edge he)
  | some found =>
    have hfound : Activated g led found := by simpa using List.find?_some hfind
    have hsame := activated_unique hw hn hb (List.mem_of_find?_eq_some hfind) he hfound ha
    have hedge : ledEdge led g node = some edge := by
      unfold ledEdge
      rw [hfind, hsame, Option.some_or]
    rw [ledOutput, hedge]
    exact selecting_selects edge

end Led

section Apart
variable [Columns] {led : CompletedMap} {executionId id : String}

theorem selecting_adopted (edge : Option WorkflowEdge) (node : WorkflowNode) (vars : Value) :
    ∃ vars', adoptVars node (selecting edge) vars = some vars' ∧
      (takesVariables vars = true → takesVariables vars' = true) := by
  unfold adoptVars
  split_ifs
  · exact ⟨_, rfl, fun _ => takes_object (by simp)⟩
  · exact ⟨_, rfl, id⟩

theorem selecting_takes (columns : FromColumns g payload) {node : WorkflowNode}
    {edge : Option WorkflowEdge} (h : Outgoing g node edge) : takes (selecting edge) = true := by
  refine takes_object fun p hp => ?_
  simp only [List.mem_cons, List.not_mem_nil, or_false] at hp
  rcases hp with rfl | rfl
  · refine ⟨(by decide : isText "branch" = true), ?_⟩
    cases edge with
    | none => exact takes_undefined
    | some edge =>
      cases hcondition : edge.condition with
      | none => simpa [hcondition] using takes_undefined
      | some condition =>
        have hmem := (mem_outgoingEdges.mp h).1
        simpa [hcondition] using takes_string (columns.conditions edge hmem condition hcondition)
  · exact ⟨(by decide : isText "variables" = true), takes_object (by simp)⟩

theorem selecting_succeeds (columns : FromColumns g payload) {p : Pass}
    {edge : Option WorkflowEdge} (h : Outgoing g p.node edge) : Succeeds g p (selecting edge) where
  branch := selecting_matches h
  adopted := selecting_adopted edge p.node p.vars
  takes := selecting_takes columns h
  counts := fun _ hu => by cases hu

theorem agreeable_succeeds (columns : FromColumns g payload) (p : Pass) :
    Succeeds g p (agreeable g p.node) :=
  selecting_succeeds columns (outgoing_head p.node)

theorem ledOutput_succeeds (columns : FromColumns g payload) (p : Pass) :
    Succeeds g p (ledOutput led g p.node) :=
  selecting_succeeds columns (ledEdge_outgoing p.node)

/-- A walk that fails at a node of its queue has completed the nodes before it, and no others. -/
theorem failingAt_finishes (hw : WellFormed g) (columns : FromColumns g payload)
    (executionId : String) (vars : Value) {pre rest : List String} (hr : Readable g c)
    (hold : Storable c vars) (hst : Standing g payload c progress)
    (hqueue : queueOf progress = pre ++ id :: rest) (hpre : id ∉ pre) :
    ∃ final, Finishes g payload (answerOf (failingAt g id)) executionId c vars (.ok progress)
      final ∧ final.completed.keys = c.keys ++ pre := by
  induction pre generalizing c vars progress rest with
  | nil =>
    cases progress with
    | returned result => cases hqueue
    | yielded step' node w =>
      obtain ⟨hid, _⟩ := List.cons.inj hqueue
      refine ⟨_, .failed (if_pos hid), ?_⟩
      rw [leftBehind_none, keys_stored, Pass.completed, (standing_pass hst).2, List.append_nil]
  | cons q pre ih =>
    cases progress with
    | returned result => cases hqueue
    | yielded step' node w =>
      obtain ⟨hid, hready⟩ := List.cons.inj hqueue
      rw [List.mem_cons, not_or] at hpre
      obtain ⟨hmem, hfresh⟩ := standing_node hst
      have hsucc := agreeable_succeeds columns ⟨step', node, w, vars⟩
      obtain ⟨progress', hres, hst', ⟨more, hmore⟩⟩ := resume_standing hw hr hst hsucc.branch
      obtain ⟨vars', hvars, htakes⟩ := hsucc.adopted
      have htakes := htakes hold.vars
      have hne : node.id ≠ id := fun h => hpre.1 (h.symm.trans hid)
      have hqueue' : queueOf progress' = pre ++ id :: (rest ++ more) := by
        rw [← hmore, hready]
        simp
      obtain ⟨final, hf, hkeys⟩ := ih vars' (hr.set (findNode_of_mem hw.ids hmem) hsucc.branch)
        (hold.set hfresh (columns.ids node hmem) hsucc.takes htakes) hst' hqueue' hpre.2
      have haccepted := hold.accepted columns hst hsucc.takes hsucc.counts htakes executionId
      refine ⟨final, .committed (if_neg hne) hvars haccepted (by rw [hres]; exact hf), ?_⟩
      rw [hkeys, keys_set_of_notMem hfresh, ← hid]
      simp

/-- Two walks from maps that the columns give back alike, with different queues: some handlers tell
them apart. -/
theorem distinguished (hw : WellFormed g) (columns : FromColumns g payload)
    (executionId : String) {x y : Progress} (alike : Reloaded g c d vars)
    (hx : Standing g payload c x) (hy : Standing g payload d y) (hne : queueOf x ≠ queueOf y) :
    ∃ handlers u v, Finishes g payload (answerOf handlers) executionId c vars (.ok x) u ∧
      Finishes g payload (answerOf handlers) executionId d vars (.ok y) v ∧ ¬ SameEnd u v := by
  obtain ⟨hnx, hmx⟩ := standing_queue hx
  obtain ⟨hny, hmy⟩ := standing_queue hy
  have same := alike.sameNodes hw
  have hperm : (queueOf x).Perm (queueOf y) :=
    (List.perm_ext_iff_of_nodup hnx hny).mpr fun id => by
      rw [hmx, hmy, same.keys, same.ready]
  obtain ⟨pre, first, id, rest, rest', hqx, hqy, hdiff⟩ := first_difference hperm hne
  -- the node that comes first in `y` is the one that fails, so `y` never completes `first`
  have hidpre : id ∉ pre := by
    rw [hqy] at hny
    exact fun h => (List.nodup_append.mp hny).2.2 id h id List.mem_cons_self rfl
  have hidrest : id ∈ rest := by
    have hmem : id ∈ queueOf x := hperm.mem_iff.mpr (by rw [hqy]; simp)
    rw [hqx, List.mem_append, List.mem_cons] at hmem
    rcases hmem with h | h | h
    · exact absurd h hidpre
    · exact absurd h.symm hdiff
    · exact h
  have hnotfirst : first ∉ d.keys ++ pre := by
    have hfresh := ((hmx first).mp (by rw [hqx]; simp)).2.1
    rw [hqx] at hnx
    rw [same.keys, List.mem_append, not_or]
    exact ⟨hfresh, fun h => (List.nodup_append.mp hnx).2.2 first h first List.mem_cons_self rfl⟩
  obtain ⟨mid, tail, rfl⟩ := List.append_of_mem hidrest
  have hqx' : queueOf x = (pre ++ first :: mid) ++ id :: tail := by rw [hqx]; simp
  have hidmid : id ∉ pre ++ first :: mid := by
    rw [hqx'] at hnx
    exact fun h => (List.nodup_append.mp hnx).2.2 id h id List.mem_cons_self rfl
  obtain ⟨u, hu, huk⟩ := failingAt_finishes hw columns executionId vars alike.readable
    alike.storable hx hqx' hidmid
  obtain ⟨v, hv, hvk⟩ := failingAt_finishes hw columns executionId vars alike.readable'
    alike.storable' hy hqy hidpre
  refine ⟨failingAt g id, u, v, hu, hv, fun hsame => ?_⟩
  have hmem : first ∈ u.completed.keys := by rw [huk]; simp
  obtain ⟨value, hvalue⟩ := mem_keys_iff.mp hmem
  rw [← hsame.outputs] at hvalue
  have := mem_keys_iff.mpr ⟨value, hvalue⟩
  rw [hvk] at this
  exact hnotfirst this

/-- What has been completed stays so. -/
theorem Finishes.keys {answer : Pass → StepResult} {x : Except WalkError Progress}
    (h : Finishes g payload answer executionId c vars x final)
    (hheld : ∀ step node w, x = .ok (.yielded step node w) → w.completed = c)
    (hid : id ∈ c.keys) : id ∈ final.completed.keys := by
  induction h with
  | threw => rwa [keys_stored]
  | completed => rwa [keys_stored]
  | failed => exact leftBehind_keys _ _ _ _ (by rwa [Pass.completed, hheld _ _ _ rfl])
  | broken => exact leftBehind_keys _ _ _ _ (by rwa [Pass.completed, hheld _ _ _ rfl])
  | refused => exact leftBehind_keys _ _ _ _ (by rwa [Pass.completed, hheld _ _ _ rfl])
  | committed _ _ _ _ ih =>
    refine ih (fun _ _ _ hres => ?_) (mem_keys_set.mpr (Or.inr hid))
    rw [(resume_yields hres).completed, hheld _ _ _ rfl]

open scoped Classical in
/-- Every node fails that sees these variables. -/
noncomputable def failingWith (g : WorkflowGraph) (seen : Value) : Handlers := fun node _ vars =>
  if vars = seen then .error "failed" else .output (agreeable g node)

/-- A walk with other variables completes the node at which it stands. -/
theorem failingWith_finishes (hw : WellFormed g) (columns : FromColumns g payload)
    (executionId : String) {seen : Value} (hne : vars ≠ seen) (hr : Readable g c)
    (hold : Storable c vars) (hst : Standing g payload c progress) :
    ∃ final, Finishes g payload (answerOf (failingWith g seen)) executionId c vars (.ok progress)
      final ∧ (final.status = .failed → ∃ id ∈ final.completed.keys, id ∉ c.keys) := by
  cases progress with
  | returned result =>
    cases hst
    exact ⟨_, .completed, fun h => by cases h⟩
  | yielded step' node w =>
    obtain ⟨hmem, hfresh⟩ := standing_node hst
    have hsucc := agreeable_succeeds columns ⟨step', node, w, vars⟩
    obtain ⟨vars', hvars, htakes⟩ := hsucc.adopted
    have haccepted :=
      hold.accepted columns hst hsucc.takes hsucc.counts (htakes hold.vars) executionId
    obtain ⟨progress', hres, hst', _⟩ := resume_standing hw hr hst hsucc.branch
    obtain ⟨final, hf⟩ := finishes_exists hw (answerOf (failingWith g seen)) executionId vars'
      (hr.set (findNode_of_mem hw.ids hmem) hsucc.branch) hst'
    refine ⟨final, .committed (if_neg hne) hvars haccepted (by rw [hres]; exact hf),
      fun _ => ⟨node.id, ?_, hfresh⟩⟩
    refine hf.keys (fun step'' node'' w'' hprogress => ?_) (mem_keys_set.mpr (Or.inl rfl))
    cases hprogress
    exact (standing_pass hst').2

open scoped Classical in
/-- The node `target` fails where its input shows the outputs of `seen`; branch nodes lead the walk
where `led` was led. -/
noncomputable def noticing (g : WorkflowGraph) (payload : Value) (led seen : CompletedMap)
    (target : String) : Handlers := fun node input _ =>
  if node.id = target ∧ ∃ m, Extends seen m ∧ input = inputOf g payload m node then
    .error "failed"
  else .output (ledOutput led g node)

/-- A map that grew out of `c` on the way that leads to `led`. -/
structure Grown (g : WorkflowGraph) (led c m : CompletedMap) : Prop where
  grows : Extends c m
  outputs : ∀ id output, m.get? id = some output → c.get? id = some output ∨
    ∃ node ∈ g.nodes, node.id = id ∧ output = ledOutput led g node

omit [Columns] in
theorem Grown.activated (hw : WellFormed g) (h : Grown g led c m) (hled : Extends c led)
    {edge : WorkflowEdge} (he : edge ∈ g.edges) (ha : Activated g led edge)
    (hk : edge.source ∈ m.keys) : Activated g m edge := by
  obtain ⟨output, ho⟩ := mem_keys_iff.mp hk
  refine ⟨output, ho, fun hb => ?_⟩
  rcases h.outputs _ _ ho with hc | ⟨node, hn, hid, rfl⟩
  · obtain ⟨output', ho', hsel⟩ := ha
    obtain rfl : output = output' := Option.some.inj ((hled _ _ hc).symm.trans ho')
    exact hsel hb
  · obtain ⟨found, hfound, htype⟩ := hb
    rw [← hid, findNode_of_mem hw.ids hn] at hfound
    cases hfound
    exact ledOutput_selects hw hn htype (mem_outgoingEdges.mpr ⟨he, hid.symm⟩) ha

omit [Columns] in
/-- A walk that comes to its end on that way has completed all of `led`. -/
theorem Grown.covers {e : CompletedMap} {fired : List (String × Value)} (hw : WellFormed g)
    (hset : Settled g m) (hf : Fired (walkRule g) e fired led) (h : Grown g led c m)
    (hled : Extends c led) (he : ∀ id ∈ e.keys, id ∈ m.keys) : ∀ id ∈ led.keys, id ∈ m.keys := by
  induction hf with
  | nil => exact he
  | @cons e k v fired led new rule rest ih =>
    refine ih h hled fun id hid => ?_
    rcases mem_keys_set.mp hid with rfl | hid
    · obtain ⟨node, hfound, hready, _⟩ := rule
      obtain ⟨hmem, rfl⟩ := findNode_some hfound
      refine hset _ (List.mem_map_of_mem hmem) fun edge hedge => ?_
      have hext := (extends_set new v).trans rest.extends
      exact h.activated hw hled (mem_incomingEdges.mp hedge).1 ((hready edge hedge).mono hext)
        (he _ (hready.source_mem hedge))
    · exact he id hid

omit [Columns] in
theorem Grown.set (h : Grown g led c m) {node : WorkflowNode} (hn : node ∈ g.nodes)
    (fresh : node.id ∉ m.keys) : Grown g led c (m.set node.id (ledOutput led g node)) := by
  refine ⟨h.grows.trans (extends_set fresh _), fun id output ho => ?_⟩
  rw [get?_set] at ho
  split_ifs at ho with hid
  · exact Or.inr ⟨node, hn, hid.symm, (Option.some.inj ho).symm⟩
  · exact h.outputs id output ho

theorem leftBehind_failed (p : Pass) (message : String) (entered : Option (Value × Value)) :
    (leftBehind executionId p message entered).status = .failed := by
  simp only [leftBehind]
  split_ifs <;> rfl

/-- Led to a node that fails, the walk fails. -/
theorem noticing_fails {target : String} {fired : List (String × Value)} (hw : WellFormed g)
    (hf : Fired (walkRule g) c fired led) (known : target ∈ g.nodeIds)
    (ready : ReadyIn g led target)
    (h : Finishes g payload (answerOf (noticing g payload led c target)) executionId m vars
      (.ok progress) final)
    (grown : Grown g led c m) (fresh : target ∉ m.keys) (hr : Readable g m)
    (hst : Standing g payload m progress) : final.status = .failed := by
  generalize hp : (Except.ok progress : Except WalkError Progress) = x at h
  induction h generalizing progress with
  | threw => cases hp
  | completed =>
    cases hp
    cases hst with
    | done hset =>
      have hcover := grown.covers hw hset hf hf.extends fun id hid => grown.grows.keys hid
      refine absurd (hset _ known fun edge he => ?_) fresh
      exact grown.activated hw hf.extends (mem_incomingEdges.mp he).1 (ready edge he)
        (hcover _ (ready.source_mem he))
  | failed => exact leftBehind_failed _ _ _
  | broken => exact leftBehind_failed _ _ _
  | refused => exact leftBehind_failed _ _ _
  | @committed m vars vars' step node w output final answered _ _ _ ih =>
    cases hp
    obtain ⟨hmem, hnew⟩ := standing_node hst
    simp only [answerOf, noticing] at answered
    split_ifs at answered with hcase
    cases answered
    have hne : target ≠ node.id := fun htarget =>
      hcase ⟨htarget.symm, m, grown.grows, congrArg StepToExecute.input (standing_pass hst).1⟩
    have hm : Matches g node (ledOutput led g node) := selecting_matches (ledEdge_outgoing node)
    obtain ⟨progress', hres, hst', _⟩ := resume_standing hw hr hst hm
    refine ih (grown.set hmem hnew) ?_ (hr.set (findNode_of_mem hw.ids hmem) hm) hst' hres.symm
    rw [mem_keys_set, not_or]
    exact ⟨hne, fresh⟩

/-- An output that comes back changed is noticed at a node the walk can be led to. -/
theorem noticed (hw : WellFormed g) (columns : FromColumns g payload) (executionId : String)
    {x y : Progress} (alike : Reloaded g c d vars) (hx : Standing g payload c x)
    (hy : Standing g payload d y) {edge : WorkflowEdge} (he : edge ∈ g.edges)
    (come : MayCome g c edge.target) {output : Value} (ho : c.get? edge.source = some output)
    (hne : d.get? edge.source ≠ some output) :
    ∃ handlers u v, Finishes g payload (answerOf handlers) executionId c vars (.ok x) u ∧
      Finishes g payload (answerOf handlers) executionId d vars (.ok y) v ∧ ¬ SameEnd u v := by
  obtain ⟨fired, led, hf, known, hfresh, hready⟩ := come
  let handlers := noticing g payload led c edge.target
  obtain ⟨u, hu⟩ := finishes_exists hw (answerOf handlers) executionId vars alike.readable hx
  have hfailed := noticing_fails hw hf known hready hu
    ⟨Extends.refl c, fun _ _ h => Or.inl h⟩ (fun h => hfresh (hf.extends.keys h))
    alike.readable hx
  -- from `d` no input at the target shows the output that `c` holds
  have hans : ∀ p : Pass, p.node ∈ g.nodes → Extends d p.completed →
      p.step = stepAt g payload p.completed p.node →
      ∃ output, answerOf handlers p = .output output ∧ Succeeds g p output := by
    intro p hmem hext hstep
    refine ⟨_, if_neg ?_, ledOutput_succeeds columns p⟩
    rintro ⟨htarget, m, hm, hinput⟩
    rw [hstep] at hinput
    have hlookup := lookup_of_inputOf hw hmem hinput (mem_incomingEdges.mpr ⟨he, htarget.symm⟩)
    have hmem' : edge.source ∈ d.keys := by
      rw [alike.keys]
      exact mem_keys_iff.mpr ⟨output, ho⟩
    obtain ⟨output', ho'⟩ := mem_keys_iff.mp hmem'
    rw [lookup_of_get? (hext _ _ ho'), lookup_of_get? (hm _ _ ho)] at hlookup
    exact hne (hlookup ▸ ho')
  obtain ⟨v, hv, hsucceeded⟩ := finishes_succeeded hw columns hans executionId vars
    (Extends.refl d) alike.readable' alike.storable' hy
  refine ⟨handlers, u, v, hu, hv, fun hsame => ?_⟩
  have hstatus := hsame.status
  rw [hfailed, hsucceeded] at hstatus
  cases hstatus

end Apart
end Linea.Worker
