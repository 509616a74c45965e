import Linea.ValidateExact

/-! `isValidConnection` of the workflow builder's `connection-validation.ts`: which edges the canvas
lets through one by one, against what `validateGraphStructure` accepts as a whole. -/
namespace Linea.Canvas
open Validate WorkflowGraph Relation

/-- An edge of the canvas, or one to be drawn; a handle that is `null` or left out is `none`. -/
structure Connection where
  source : String
  target : String
  sourceHandle : Option String
  deriving DecidableEq

def Connection.toEdge (c : Connection) : WorkflowEdge := ⟨c.source,c.target,c.sourceHandle⟩

def Connection.ofEdge (edge : WorkflowEdge) : Connection :=
  ⟨edge.source,edge.target,edge.condition⟩

/-- The edges of `graphToFlow`. -/
def graphToFlow (g : WorkflowGraph) : List Connection := g.edges.map Connection.ofEdge

def flowToGraph (nodes : List WorkflowNode) (edges : List Connection) (entryNodeId : String) :
    WorkflowGraph :=
  ⟨entryNodeId,nodes,edges.map Connection.toEdge⟩

def nodeTypeById (nodes : List WorkflowNode) : OrderedMap String NodeType :=
  OrderedMap.ofList (nodes.map fun n => (n.id,n.type))

/-! ### The search for a cycle -/

/-- The loop of `createsCycle`; the head of the list is the top of the stack. -/
def cycleLoop (source : String) (edges : List Connection) :
    ℕ → Finset String → List String → Option Bool
  | 0,_,_ => none
  | _+1,_,[] => some false
  | fuel+1,visited,current :: stack =>
    if current = source then some true
    else if current ∈ visited then cycleLoop source edges fuel visited stack
    else
      let pushed := (edges.filter fun edge => edge.source = current).map Connection.target
      cycleLoop source edges fuel (insert current visited) (pushed.reverse ++ stack)

/-- Each edge is pushed once at most, so that the turns are bounded. -/
def createsCycle (source target : String) (edges : List Connection) : Option Bool :=
  cycleLoop source edges (edges.length + 2) ∅ [target]

/-- Reachable over the edges of the canvas. -/
def Reaches (edges : List Connection) : String → String → Prop :=
  ReflTransGen (Leads (edges.map Connection.toEdge))

lemma leads_map {edges : List Connection} {a b : String} :
    Leads (edges.map Connection.toEdge) a b ↔ ∃ c ∈ edges, c.source = a ∧ c.target = b := by
  simp [Leads,Connection.toEdge]

section Loop
variable {source : String} {edges : List Connection} {visited : Finset String} {stack : List String}

/-- What lies behind a visited node is visited or waits on the stack. -/
def Closed (source : String) (edges : List Connection) (visited : Finset String)
    (stack : List String) : Prop :=
  ∀ v ∈ visited, v ≠ source ∧ ∀ c ∈ edges, c.source = v → c.target ∈ visited ∨ c.target ∈ stack

lemma emptyClosed (source : String) : Closed source edges ∅ stack :=
  fun v hv => absurd hv (Finset.notMem_empty v)

lemma Closed.escape (h : Closed source edges visited stack) {v : String} (hv : v ∈ visited)
    (hreach : Reaches edges v source) : ∃ t ∈ stack, Reaches edges t source := by
  induction hreach using ReflTransGen.head_induction_on with
  | refl => exact absurd rfl (h source hv).1
  | head hstep hrest ih =>
    obtain ⟨c,hc,rfl,rfl⟩ := leads_map.mp hstep
    rcases (h c.source hv).2 c hc rfl with hv | hs
    · exact ih hv
    · exact ⟨c.target,hs,hrest⟩

lemma Closed.pop {current : String} (h : Closed source edges visited (current :: stack))
    (hv : current ∈ visited) : Closed source edges visited stack := by
  refine fun v hmem => ⟨(h v hmem).1,fun c hc hs => ?_⟩
  rcases (h v hmem).2 c hc hs with ht | ht
  · exact .inl ht
  · rcases List.mem_cons.mp ht with ht | ht
    · exact .inl (ht ▸ hv)
    · exact .inr ht

lemma mem_pushed {current t : String} :
    t ∈ ((edges.filter fun c => c.source = current).map Connection.target).reverse ++ stack ↔
      (∃ c ∈ edges, c.source = current ∧ c.target = t) ∨ t ∈ stack := by
  simp only [List.mem_append,List.mem_reverse,List.mem_map,List.mem_filter,decide_eq_true_eq,
    and_assoc]

lemma Closed.push {current : String} (h : Closed source edges visited (current :: stack))
    (hne : current ≠ source) : Closed source edges (insert current visited)
      (((edges.filter fun c => c.source = current).map Connection.target).reverse ++ stack) := by
  intro v hv
  rcases Finset.mem_insert.mp hv with rfl | hv
  · exact ⟨hne,fun c hc hs => .inr (mem_pushed.mpr (.inl ⟨c,hc,hs,rfl⟩))⟩
  · refine ⟨(h v hv).1,fun c hc hs => ?_⟩
    rcases (h v hv).2 c hc hs with ht | ht
    · exact .inl (Finset.mem_insert_of_mem ht)
    · rcases List.mem_cons.mp ht with ht | ht
      · exact .inl (ht ▸ Finset.mem_insert_self _ _)
      · exact .inr (mem_pushed.mpr (.inr ht))

/-- The edges that may still be pushed. -/
def ahead (edges : List Connection) (visited : Finset String) : ℕ :=
  edges.countP fun c => c.source ∉ visited

lemma ahead_insert (edges : List Connection) {current : String} (h : current ∉ visited) :
    ahead edges (insert current visited) +
      (edges.filter fun c => c.source = current).length = ahead edges visited := by
  induction edges with
  | nil => rfl
  | cons c edges ih =>
    unfold ahead at ih ⊢
    rw [List.filter_cons,List.countP_cons,List.countP_cons]
    by_cases hc : c.source = current
    · simp [hc,h]
      simp at ih
      omega
    · by_cases hv : c.source ∈ visited
      · simp [hc,hv]
        simpa using ih
      · simp [hc,hv]
        simp at ih
        omega

/-- The loop ends with the answer whether a node of the stack reaches the source. -/
lemma cycleLoop_spec {fuel : ℕ} (hfuel : stack.length + ahead edges visited < fuel)
    (h : Closed source edges visited stack) : ∃ b, cycleLoop source edges fuel visited stack = some b ∧
      (b = true ↔ ∃ t ∈ stack, Reaches edges t source) := by
  induction fuel generalizing visited stack with
  | zero => omega
  | succ fuel ih =>
    cases stack with
    | nil => exact ⟨false,rfl,by simp⟩
    | cons current stack =>
      rw [List.length_cons] at hfuel
      rw [cycleLoop]
      split_ifs with hs hv
      · refine ⟨true,rfl,fun _ => ⟨current,List.mem_cons_self,?_⟩,fun _ => rfl⟩
        rw [hs]
        exact .refl
      · obtain ⟨b,hb,hiff⟩ := ih (by omega) (h.pop hv)
        refine ⟨b,hb,hiff.trans ⟨fun ⟨t,ht,hr⟩ => ⟨t,List.mem_cons_of_mem _ ht,hr⟩,?_⟩⟩
        rintro ⟨t,ht,hr⟩
        rcases List.mem_cons.mp ht with rfl | ht
        · exact (h.pop hv).escape hv hr
        · exact ⟨t,ht,hr⟩
      · have hcount := ahead_insert edges hv
        obtain ⟨b,hb,hiff⟩ := ih (by
          rw [List.length_append,List.length_reverse,List.length_map]
          omega) (h.push hs)
        refine ⟨b,hb,hiff.trans ⟨?_,?_⟩⟩
        · rintro ⟨t,ht,hr⟩
          rcases mem_pushed.mp ht with ⟨c,hc,rfl,rfl⟩ | ht
          · exact ⟨c.source,List.mem_cons_self,hr.head (leads_map.mpr ⟨c,hc,rfl,rfl⟩)⟩
          · exact ⟨t,List.mem_cons_of_mem _ ht,hr⟩
        · rintro ⟨t,ht,hr⟩
          rcases List.mem_cons.mp ht with rfl | ht
          · rcases ReflTransGen.cases_head hr with rfl | ⟨u,hstep,hr⟩
            · exact absurd rfl hs
            · obtain ⟨c,hc,rfl,rfl⟩ := leads_map.mp hstep
              exact ⟨c.target,mem_pushed.mpr (.inl ⟨c,hc,rfl,rfl⟩),hr⟩
          · exact ⟨t,mem_pushed.mpr (.inr ht),hr⟩

end Loop

/-- The search terminates, and finds a cycle exactly where the target reaches the source. -/
theorem createsCycle_spec (source target : String) (edges : List Connection) :
    ∃ b, createsCycle source target edges = some b ∧ (b = true ↔ Reaches edges target source) := by
  have hfuel : [target].length + ahead edges ∅ < edges.length + 2 := by
    have : ahead edges ∅ ≤ edges.length := List.countP_le_length
    rw [List.length_singleton]
    omega
  obtain ⟨b,hb,hiff⟩ := cycleLoop_spec hfuel (emptyClosed source)
  exact ⟨b,hb,hiff.trans ⟨fun ⟨t,ht,hr⟩ => List.mem_singleton.mp ht ▸ hr,
    fun hr => ⟨target,List.mem_singleton_self _,hr⟩⟩⟩

/-! ### Connecting -/

/-- The edges a node of a type may have to it. -/
def maxIncoming (type : Option NodeType) : ℕ := if type = some .merge then 2 else 1

def isValidConnection (connection : Connection) (edges : List Connection)
    (types : OrderedMap String NodeType) (entryNodeId : String) : Option Bool :=
  let source := connection.source
  let target := connection.target
  let sourceHandle := connection.sourceHandle
  let incomingToTarget := edges.filter fun edge => edge.target = target
  let outgoingFromSource := edges.filter fun edge => edge.source = source
  if source = "" ∨ target = "" then some false
  else if source = target then some false
  else if target = entryNodeId then some false
  else if maxIncoming (types.get? target) ≤ incomingToTarget.length then some false
  else if types.get? target = some .merge ∧ incomingToTarget.any fun edge => edge.source = source then
    some false
  else if types.get? source = some .endNode then some false
  else if types.get? source = some .branch ∧ (sourceHandle = none ∨ sourceHandle = some "" ∨
      outgoingFromSource.any fun edge => edge.sourceHandle = sourceHandle) then some false
  else (createsCycle source target edges).map not

/-- What a connection that is let through meets. -/
structure Fits (connection : Connection) (edges : List Connection)
    (types : OrderedMap String NodeType) (entryNodeId : String) : Prop where
  named : connection.source ≠ "" ∧ connection.target ≠ ""
  entry : connection.target ≠ entryNodeId
  room : (edges.filter fun c => c.target = connection.target).length <
    maxIncoming (types.get? connection.target)
  merge : types.get? connection.target = some .merge →
    ∀ c ∈ edges, c.target = connection.target → c.source ≠ connection.source
  source : types.get? connection.source ≠ some .endNode
  branch : types.get? connection.source = some .branch →
    connection.sourceHandle ≠ none ∧ connection.sourceHandle ≠ some "" ∧
      ∀ c ∈ edges, c.source = connection.source → c.sourceHandle ≠ connection.sourceHandle
  cycle : ¬Reaches edges connection.target connection.source

lemma isValidConnection_iff (c : Connection) (edges : List Connection)
    (types : OrderedMap String NodeType) (entryNodeId : String) :
    ∃ b, isValidConnection c edges types entryNodeId = some b ∧
      (b = true ↔ Fits c edges types entryNodeId) := by
  obtain ⟨cyclic,hcyclic,hiff⟩ := createsCycle_spec c.source c.target edges
  unfold isValidConnection
  dsimp only
  split_ifs with h1 h2 h3 h4 h5 h6 h7
  · refine ⟨false,rfl,by simp,fun h => ?_⟩
    rcases h1 with h1 | h1
    · exact absurd h1 h.named.1
    · exact absurd h1 h.named.2
  · refine ⟨false,rfl,by simp,fun h => absurd ?_ h.cycle⟩
    rw [h2]
    exact .refl
  · exact ⟨false,rfl,by simp,fun h => absurd h3 h.entry⟩
  · exact ⟨false,rfl,by simp,fun h => absurd h.room (not_lt.mpr h4)⟩
  · refine ⟨false,rfl,by simp,fun h => ?_⟩
    obtain ⟨e,he,hs⟩ := List.any_eq_true.mp h5.2
    obtain ⟨he,ht⟩ := List.mem_filter.mp he
    exact absurd (of_decide_eq_true hs) (h.merge h5.1 e he (of_decide_eq_true ht))
  · exact ⟨false,rfl,by simp,fun h => absurd h6 h.source⟩
  · refine ⟨false,rfl,by simp,fun h => ?_⟩
    obtain ⟨hnone,hempty,hother⟩ := h.branch h7.1
    rcases h7.2 with hh | hh | hh
    · exact absurd hh hnone
    · exact absurd hh hempty
    · obtain ⟨e,he,hs⟩ := List.any_eq_true.mp hh
      obtain ⟨he,ht⟩ := List.mem_filter.mp he
      exact absurd (of_decide_eq_true hs) (hother e he (of_decide_eq_true ht))
  · refine ⟨!cyclic,by rw [hcyclic]; rfl,?_⟩
    rw [Bool.not_eq_true',← Bool.not_eq_true,hiff]
    push Not at h1 h4
    refine ⟨fun h => ⟨h1,h3,h4,?_,h6,?_,h⟩,fun h => h.cycle⟩
    · intro hm e he ht hs
      exact h5 ⟨hm,List.any_eq_true.mpr
        ⟨e,List.mem_filter.mpr ⟨he,decide_eq_true ht⟩,decide_eq_true hs⟩⟩
    · intro hb
      refine ⟨fun hh => h7 ⟨hb,.inl hh⟩,fun hh => h7 ⟨hb,.inr (.inl hh)⟩,fun e he hs hh => ?_⟩
      exact h7 ⟨hb,.inr (.inr (List.any_eq_true.mpr
        ⟨e,List.mem_filter.mpr ⟨he,decide_eq_true hs⟩,decide_eq_true hh⟩))⟩

/-- `onConnect`: an edge that is refused leaves the canvas as it was. -/
def onConnect (types : OrderedMap String NodeType) (entryNodeId : String)
    (edges : List Connection) (connection : Connection) : Option (List Connection) := do
  let valid ← isValidConnection connection edges types entryNodeId
  if valid then some (edges ++ [connection]) else some edges

lemma onConnect_some (types : OrderedMap String NodeType) (entryNodeId : String)
    (edges : List Connection) (c : Connection) :
    ∃ edges', onConnect types entryNodeId edges c = some edges' ∧
      (edges' = edges ∨ Fits c edges types entryNodeId ∧ edges' = edges ++ [c]) := by
  obtain ⟨b,hb,hiff⟩ := isValidConnection_iff c edges types entryNodeId
  unfold onConnect
  rw [hb]
  cases b with
  | false => exact ⟨edges,rfl,.inl rfl⟩
  | true => exact ⟨edges ++ [c],rfl,.inr ⟨hiff.mp rfl,rfl⟩⟩

/-! ### The edges drawn -/

/-- The types by id are those of the nodes. -/
lemma nodeTypeById_iff {nodes : List WorkflowNode} (hids : (nodes.map WorkflowNode.id).Nodup)
    {id : String} {type : NodeType} :
    (nodeTypeById nodes).get? id = some type ↔ ∃ n ∈ nodes, n.id = id ∧ n.type = type := by
  have hkeys : ((nodes.map fun n => (n.id,n.type)).map Prod.fst).Nodup := by
    rw [List.map_map]
    exact hids
  rw [OrderedMap.get?_iff_mem,nodeTypeById,OrderedMap.entries_ofList hkeys]
  simp [List.mem_map]

lemma nodeTypeById_of_mem {nodes : List WorkflowNode} (hids : (nodes.map WorkflowNode.id).Nodup)
    {n : WorkflowNode} (hn : n ∈ nodes) : (nodeTypeById nodes).get? n.id = some n.type :=
  (nodeTypeById_iff hids).mpr ⟨n,hn,rfl,rfl⟩

/-- The edges of a canvas that were let through one by one. -/
structure Drawn (types : OrderedMap String NodeType) (entryNodeId : String)
    (edges : List Connection) : Prop where
  entry : ∀ c ∈ edges, c.target ≠ entryNodeId
  incoming : ∀ id, (edges.filter fun c => c.target = id).length ≤ maxIncoming (types.get? id)
  sources : ∀ id, types.get? id = some .merge →
    ((edges.filter fun c => c.target = id).map Connection.source).Nodup
  ends : ∀ c ∈ edges, types.get? c.source ≠ some .endNode
  handles : ∀ id, types.get? id = some .branch →
    ((edges.filter fun c => c.source = id).map Connection.sourceHandle).Nodup
  acyclic : Acyclic (edges.map Connection.toEdge)

lemma Drawn.nil (types : OrderedMap String NodeType) (entryNodeId : String) :
    Drawn types entryNodeId [] where
  entry := fun c hc => nomatch hc
  incoming := fun _ => Nat.zero_le _
  sources := fun _ _ => List.nodup_nil
  ends := fun c hc => nomatch hc
  handles := fun _ _ => List.nodup_nil
  acyclic := by
    intro id h
    obtain ⟨b,⟨e,he,-⟩,-⟩ := TransGen.head'_iff.mp h
    cases he

/-- A path over one edge more either does without it, or comes to its source and goes on from its
target. -/
lemma path_snoc {edges : List WorkflowEdge} {e : WorkflowEdge} {a b : String}
    (h : TransGen (Leads (edges ++ [e])) a b) : TransGen (Leads edges) a b ∨
      ReflTransGen (Leads edges) a e.source ∧ ReflTransGen (Leads edges) e.target b := by
  have hstep : ∀ {a b}, Leads (edges ++ [e]) a b →
      Leads edges a b ∨ a = e.source ∧ b = e.target := by
    rintro _ _ ⟨e',he,rfl,rfl⟩
    rcases List.mem_append.mp he with he | he
    · exact .inl ⟨e',he,rfl,rfl⟩
    · rw [List.mem_singleton.mp he]
      exact .inr ⟨rfl,rfl⟩
  induction h with
  | single h =>
    rcases hstep h with h | ⟨rfl,rfl⟩
    · exact .inl (.single h)
    · exact .inr ⟨.refl,.refl⟩
  | tail _ h ih =>
    rcases hstep h with h | ⟨rfl,rfl⟩
    · rcases ih with ih | ⟨hl,hr⟩
      · exact .inl (ih.tail h)
      · exact .inr ⟨hl,hr.tail h⟩
    · rcases ih with ih | ⟨hl,-⟩
      · exact .inr ⟨ih.to_reflTransGen,.refl⟩
      · exact .inr ⟨hl,.refl⟩

lemma acyclic_snoc {edges : List WorkflowEdge} {e : WorkflowEdge} (h : Acyclic edges)
    (hno : ¬ReflTransGen (Leads edges) e.target e.source) : Acyclic (edges ++ [e]) := by
  intro id hcycle
  rcases path_snoc hcycle with hcycle | ⟨hl,hr⟩
  · exact h id hcycle
  · exact hno (hr.trans hl)

lemma filter_snoc {edges : List Connection} {c : Connection} {p : Connection → Bool} :
    (edges ++ [c]).filter p = edges.filter p ++ if p c then [c] else [] := by
  rw [List.filter_append,List.filter_singleton,cond_eq_ite]

lemma Drawn.snoc {types : OrderedMap String NodeType} {entryNodeId : String}
    {edges : List Connection} {c : Connection} (h : Drawn types entryNodeId edges)
    (hc : Fits c edges types entryNodeId) : Drawn types entryNodeId (edges ++ [c]) where
  entry := by
    intro e he
    rcases List.mem_append.mp he with he | he
    · exact h.entry e he
    · rw [List.mem_singleton.mp he]
      exact hc.entry
  incoming := by
    intro id
    rw [filter_snoc,List.length_append]
    by_cases ht : c.target = id
    · subst ht
      simpa using hc.room
    · simpa [ht] using h.incoming id
  sources := by
    intro id hid
    rw [filter_snoc,List.map_append]
    by_cases ht : c.target = id
    · subst ht
      rw [List.nodup_append']
      refine ⟨h.sources _ hid,by simp,?_⟩
      simpa [List.disjoint_right] using fun e he ht => hc.merge hid e he ht
    · simpa [ht] using h.sources id hid
  ends := by
    intro e he
    rcases List.mem_append.mp he with he | he
    · exact h.ends e he
    · rw [List.mem_singleton.mp he]
      exact hc.source
  handles := by
    intro id hid
    rw [filter_snoc,List.map_append]
    by_cases hs : c.source = id
    · subst hs
      rw [List.nodup_append']
      refine ⟨h.handles _ hid,by simp,?_⟩
      simpa [List.disjoint_right] using fun e he hs => (hc.branch hid).2.2 e he hs
    · simpa [hs] using h.handles id hid
  acyclic := by
    rw [List.map_append]
    exact acyclic_snoc h.acyclic hc.cycle

/-! ### From the canvas to the validator -/

/-- An attempt joins nodes, and has a handle exactly where it leaves a branch node. -/
def Attempt (nodes : List WorkflowNode) (c : Connection) : Prop :=
  c.source ∈ nodes.map WorkflowNode.id ∧ c.target ∈ nodes.map WorkflowNode.id ∧
    (c.sourceHandle ≠ none ↔ ∃ n ∈ nodes, n.id = c.source ∧ n.type = .branch)

/-- The checks of the validator on edges, with the number of edges to a node bounded only. -/
structure EdgeChecks (g : WorkflowGraph) : Prop where
  ends : ∀ e ∈ g.edges, checkEdgeEnds g e = .ok ()
  entry : g.incomingEdges g.entryNodeId = []
  incoming : ∀ n ∈ g.nodes, (g.incomingEdges n.id).length ≤ if n.type = .merge then 2 else 1
  merge : ∀ n ∈ g.nodes, checkMergeSources g n = .ok ()
  endNode : ∀ n ∈ g.nodes, n.type = .endNode → g.outgoingEdges n.id = []
  stray : ∀ n ∈ g.nodes, checkStrayCondition g n = .ok ()
  conditions : ∀ n ∈ g.nodes, checkConditions g n = .ok ()
  acyclic : Acyclic g.edges

section Flow
variable {nodes : List WorkflowNode} {edges : List Connection} {entryNodeId : String}

lemma incoming_flow (id : String) : (flowToGraph nodes edges entryNodeId).incomingEdges id =
    (edges.filter fun c => c.target = id).map Connection.toEdge := List.filter_map

lemma outgoing_flow (id : String) : (flowToGraph nodes edges entryNodeId).outgoingEdges id =
    (edges.filter fun c => c.source = id).map Connection.toEdge := List.filter_map

lemma Drawn.edgeChecks (hids : (nodes.map WorkflowNode.id).Nodup)
    (h : Drawn (nodeTypeById nodes) entryNodeId edges) (hedges : ∀ c ∈ edges, Attempt nodes c) :
    EdgeChecks (flowToGraph nodes edges entryNodeId) where
  ends := by
    intro e he
    obtain ⟨c,hc,rfl⟩ := List.mem_map.mp he
    exact checkEdgeEnds_ok_iff.mpr ⟨(hedges c hc).1,(hedges c hc).2.1⟩
  entry := by
    rw [incoming_flow,List.map_eq_nil_iff,List.filter_eq_nil_iff]
    exact fun c hc ht => h.entry c hc (of_decide_eq_true ht)
  incoming := by
    intro n hn
    have hle := h.incoming n.id
    rw [nodeTypeById_of_mem hids hn] at hle
    rw [incoming_flow,List.length_map]
    simpa [maxIncoming] using hle
  merge := by
    intro n hn
    refine checkMergeSources_ok_iff.mpr fun hm => ?_
    rw [incoming_flow,List.map_map]
    exact h.sources n.id ((nodeTypeById_of_mem hids hn).trans (congrArg some hm))
  endNode := by
    intro n hn he
    rw [outgoing_flow,List.map_eq_nil_iff,List.filter_eq_nil_iff]
    intro c hc hs
    refine h.ends c hc ?_
    rw [of_decide_eq_true hs,nodeTypeById_of_mem hids hn,he]
  stray := by
    intro n hn
    refine checkStrayCondition_ok_iff.mpr fun hb e he => ?_
    rw [outgoing_flow] at he
    obtain ⟨c,hc,rfl⟩ := List.mem_map.mp he
    obtain ⟨hc,hs⟩ := List.mem_filter.mp hc
    by_contra hhandle
    obtain ⟨m,hm,hid,htype⟩ := (hedges c hc).2.2.mp hhandle
    exact hb (List.inj_on_of_nodup_map hids hm hn (hid.trans (of_decide_eq_true hs)) ▸ htype)
  conditions := by
    intro n hn
    refine checkConditions_ok_iff.mpr fun hb => ?_
    rw [outgoing_flow,List.map_map]
    refine ⟨fun hnone => ?_,h.handles n.id ((nodeTypeById_of_mem hids hn).trans (congrArg some hb))⟩
    obtain ⟨c,hc,hhandle⟩ := List.mem_map.mp hnone
    obtain ⟨hc,hs⟩ := List.mem_filter.mp hc
    exact (hedges c hc).2.2.mpr ⟨n,hn,(of_decide_eq_true hs).symm,hb⟩ hhandle
  acyclic := h.acyclic

/-- Whatever is attempted, the search ends and what stands on the canvas is drawn rightly. -/
lemma drawn_of_attempts {types : OrderedMap String NodeType} {attempts : List Connection}
    (h : Drawn types entryNodeId edges) {P : Connection → Prop} (hedges : ∀ c ∈ edges, P c)
    (hattempts : ∀ c ∈ attempts, P c) :
    ∃ edges', attempts.foldlM (onConnect types entryNodeId) edges = some edges' ∧
      Drawn types entryNodeId edges' ∧ ∀ c ∈ edges', P c := by
  induction attempts generalizing edges with
  | nil => exact ⟨edges,rfl,h,hedges⟩
  | cons c attempts ih =>
    have hrest : ∀ c ∈ attempts, P c := fun c hc => hattempts c (List.mem_cons_of_mem _ hc)
    obtain ⟨next,hnext,hcase⟩ := onConnect_some types entryNodeId edges c
    rw [List.foldlM_cons,hnext]
    rcases hcase with rfl | ⟨hfits,rfl⟩
    · exact ih h hedges hrest
    · refine ih (h.snoc hfits) (fun e he => ?_) hrest
      rcases List.mem_append.mp he with he | he
      · exact hedges e he
      · rw [List.mem_singleton.mp he]
        exact hattempts c List.mem_cons_self

end Flow

/-! ### From the validator to the canvas -/

/-- Each edge is let through over those before it. -/
def AcceptedInOrder (types : OrderedMap String NodeType) (entryNodeId : String)
    (order : List Connection) : Prop :=
  ∀ drawn c rest, order = drawn ++ c :: rest →
    isValidConnection c drawn types entryNodeId = some true

section Order
variable {types : OrderedMap String NodeType} {entryNodeId : String} {edges order : List Connection}

lemma leads_mono {edges edges' : List WorkflowEdge} (hsub : edges' ⊆ edges) :
    Leads edges' ≤ Leads edges := fun _ _ ⟨e,he,hl⟩ => ⟨e,hsub he,hl⟩

lemma acyclic_of_subset {edges edges' : List WorkflowEdge} (h : Acyclic edges)
    (hsub : edges' ⊆ edges) : Acyclic edges' :=
  fun id hcycle => h id (TransGen.mono (leads_mono hsub) _ _ hcycle)

lemma Drawn.perm (h : Drawn types entryNodeId edges) (hperm : order.Perm edges) :
    Drawn types entryNodeId order where
  entry := fun c hc => h.entry c (hperm.subset hc)
  incoming := fun id => (hperm.filter _).length_eq ▸ h.incoming id
  sources := fun id hid => ((hperm.filter _).map _).nodup_iff.mpr (h.sources id hid)
  ends := fun c hc => h.ends c (hperm.subset hc)
  handles := fun id hid => ((hperm.filter _).map _).nodup_iff.mpr (h.handles id hid)
  acyclic := acyclic_of_subset h.acyclic (hperm.map _).subset

lemma Drawn.sublist (h : Drawn types entryNodeId edges) (hsub : order.Sublist edges) :
    Drawn types entryNodeId order where
  entry := fun c hc => h.entry c (hsub.subset hc)
  incoming := fun id => (hsub.filter _).length_le.trans (h.incoming id)
  sources := fun id hid => (h.sources id hid).sublist ((hsub.filter _).map _)
  ends := fun c hc => h.ends c (hsub.subset hc)
  handles := fun id hid => (h.handles id hid).sublist ((hsub.filter _).map _)
  acyclic := acyclic_of_subset h.acyclic (hsub.map _).subset

/-- The last edge of a rightly drawn canvas fits the others. -/
lemma Drawn.fits {c : Connection} (h : Drawn types entryNodeId (edges ++ [c]))
    (hnamed : c.source ≠ "" ∧ c.target ≠ "")
    (hhandle : types.get? c.source = some .branch → c.sourceHandle ≠ none ∧ c.sourceHandle ≠ some "") :
    Fits c edges types entryNodeId where
  named := hnamed
  entry := h.entry c (List.mem_append_right _ (List.mem_singleton_self c))
  room := by
    have hle := h.incoming c.target
    rw [filter_snoc,List.length_append] at hle
    simpa using hle
  merge := by
    intro hm e he ht
    have hnodup := h.sources c.target hm
    rw [filter_snoc,List.map_append,List.nodup_append'] at hnodup
    intro hs
    refine hnodup.2.2 (List.mem_map_of_mem (List.mem_filter.mpr ⟨he,decide_eq_true ht⟩)) ?_
    simp [hs]
  source := h.ends c (List.mem_append_right _ (List.mem_singleton_self c))
  branch := by
    intro hb
    refine ⟨(hhandle hb).1,(hhandle hb).2,fun e he hs heq => ?_⟩
    have hnodup := h.handles c.source hb
    rw [filter_snoc,List.map_append,List.nodup_append'] at hnodup
    refine hnodup.2.2 (List.mem_map_of_mem (List.mem_filter.mpr ⟨he,decide_eq_true hs⟩)) ?_
    simp [heq]
  cycle := by
    intro hreach
    refine h.acyclic c.target ?_
    rw [List.map_append]
    refine TransGen.tail' (ReflTransGen.mono (leads_mono (List.subset_append_left _ _)) _ _ hreach) ?_
    exact ⟨c.toEdge,List.mem_append_right _ (List.mem_singleton_self _),rfl,rfl⟩

end Order

section Accepted
variable {g : WorkflowGraph}

lemma map_toEdge_graphToFlow : (graphToFlow g).map Connection.toEdge = g.edges := by
  rw [graphToFlow,List.map_map]
  exact List.map_id _

lemma flow_incoming (id : String) : ((graphToFlow g).filter fun c => c.target = id) =
    (g.incomingEdges id).map Connection.ofEdge := List.filter_map

lemma flow_outgoing (id : String) : ((graphToFlow g).filter fun c => c.source = id) =
    (g.outgoingEdges id).map Connection.ofEdge := List.filter_map

/-- No edge leads to what is not a node, and as many as the type asks for to what is one. -/
lemma flow_incoming_le (hw : WellFormed g) (id : String) :
    (g.incomingEdges id).length ≤ maxIncoming ((nodeTypeById g.nodes).get? id) := by
  by_cases hid : id ∈ g.nodeIds
  · obtain ⟨n,hn,rfl⟩ := List.mem_map.mp hid
    rw [nodeTypeById_of_mem hw.ids hn]
    by_cases hentry : n.id = g.entryNodeId
    · rw [hentry,hw.entryIncoming]
      exact Nat.zero_le _
    · by_cases hm : n.type = .merge
      · rw [(hw.mergeIncoming n hn hentry hm).1]
        simp [maxIncoming,hm]
      · rw [hw.singleIncoming n hn hentry hm]
        simp [maxIncoming,hm]
  · have hnone : g.incomingEdges id = [] := by
      refine List.eq_nil_iff_forall_not_mem.mpr fun e he => hid ?_
      obtain ⟨hmem,rfl⟩ := mem_incomingEdges.mp he
      exact (hw.ends e hmem).2
    rw [hnone]
    exact Nat.zero_le _

lemma drawn_of_accepted (h : Accepted g) :
    Drawn (nodeTypeById g.nodes) g.entryNodeId (graphToFlow g) where
  entry := by
    intro c hc ht
    obtain ⟨e,he,rfl⟩ := List.mem_map.mp hc
    have hin := mem_incomingEdges.mpr ⟨he,ht⟩
    rw [h.wellFormed.entryIncoming] at hin
    cases hin
  incoming := by
    intro id
    rw [flow_incoming,List.length_map]
    exact flow_incoming_le h.wellFormed id
  sources := by
    intro id hid
    obtain ⟨n,hn,rfl,hm⟩ := (nodeTypeById_iff h.wellFormed.ids).mp hid
    rw [flow_incoming,List.map_map]
    by_cases hentry : n.id = g.entryNodeId
    · rw [hentry,h.wellFormed.entryIncoming]
      exact List.nodup_nil
    · exact (h.wellFormed.mergeIncoming n hn hentry hm).2
  ends := by
    intro c hc hs
    obtain ⟨e,he,rfl⟩ := List.mem_map.mp hc
    obtain ⟨n,hn,hid,hend⟩ := (nodeTypeById_iff h.wellFormed.ids).mp hs
    have hout := mem_outgoingEdges.mpr ⟨he,hid.symm⟩
    rw [h.wellFormed.endOutgoing n hn hend] at hout
    cases hout
  handles := by
    intro id hid
    obtain ⟨n,hn,rfl,hb⟩ := (nodeTypeById_iff h.wellFormed.ids).mp hid
    rw [flow_outgoing,List.map_map]
    exact (h.wellFormed.conditions n hn hb).2
  acyclic := map_toEdge_graphToFlow (g := g) ▸ h.acyclic

/-- An edge of an accepted graph has a condition exactly where it leaves a branch node. -/
lemma condition_iff (hw : WellFormed g) {e : WorkflowEdge} (he : e ∈ g.edges) :
    e.condition ≠ none ↔ (nodeTypeById g.nodes).get? e.source = some .branch := by
  obtain ⟨n,hn,hid⟩ := List.mem_map.mp (hw.ends e he).1
  have hout := mem_outgoingEdges.mpr ⟨he,hid.symm⟩
  rw [← hid,nodeTypeById_of_mem hw.ids hn,Option.some_inj]
  constructor
  · intro hc
    by_contra hb
    exact hc (hw.unconditioned n hn hb e hout)
  · intro hb hc
    exact (hw.conditions n hn hb).1 (List.mem_map.mpr ⟨e,hout,hc⟩)

/-- The edges of an accepted graph are let through in each order exactly where no condition is
empty. -/
lemma acceptedInOrder_iff (h : Accepted g) (hnamed : ∀ id ∈ g.nodeIds, id ≠ "") :
    (∀ order, order.Perm (graphToFlow g) →
      AcceptedInOrder (nodeTypeById g.nodes) g.entryNodeId order) ↔
    ∀ e ∈ g.edges, e.condition ≠ some "" := by
  have hw := h.wellFormed
  constructor
  · intro hall e he hempty
    have hmem : Connection.ofEdge e ∈ graphToFlow g :=
      List.mem_map.mpr ⟨e,he,rfl⟩
    obtain ⟨drawn,rest,hsplit⟩ := List.append_of_mem hmem
    obtain ⟨b,hb,hiff⟩ := isValidConnection_iff (.ofEdge e) drawn (nodeTypeById g.nodes)
      g.entryNodeId
    rw [hall _ (List.Perm.refl _) drawn _ rest hsplit,Option.some_inj] at hb
    have hbranch : (nodeTypeById g.nodes).get? e.source = some .branch :=
      (condition_iff hw he).mp (hempty ▸ Option.some_ne_none "")
    exact ((hiff.mp hb.symm).branch hbranch).2.1 hempty
  · intro hempty order hperm drawn c rest hsplit
    have hc : c ∈ graphToFlow g := hperm.subset (hsplit ▸ List.mem_append_right _ List.mem_cons_self)
    obtain ⟨e,he,rfl⟩ := List.mem_map.mp hc
    have hsub : (drawn ++ [Connection.ofEdge e]).Sublist order := by
      rw [hsplit]
      exact List.Sublist.append (List.Sublist.refl _)
        (List.cons_sublist_cons.mpr (List.nil_sublist _))
    have hfits : Fits (.ofEdge e) drawn (nodeTypeById g.nodes) g.entryNodeId :=
      (((drawn_of_accepted h).perm hperm).sublist hsub).fits
        ⟨hnamed _ (hw.ends e he).1,hnamed _ (hw.ends e he).2⟩
        fun hb => ⟨(condition_iff hw he).mpr hb,hempty e he⟩
    obtain ⟨b,hb,hiff⟩ := isValidConnection_iff (.ofEdge e) drawn (nodeTypeById g.nodes)
      g.entryNodeId
    rw [hb,hiff.mpr hfits]

end Accepted

/-- What the canvas lets through passes the validator's checks on edges; the edges of a graph that
the validator accepts are let through in every order, unless a condition is the empty string. -/
theorem canvas_agrees (nodes : List WorkflowNode) (entryNodeId : String) (attempts : List Connection)
    (schemas : ConfigSchemas) (g : WorkflowGraph) :
    ((nodes.map WorkflowNode.id).Nodup → (∀ id ∈ nodes.map WorkflowNode.id, id ≠ "") →
      (∀ c ∈ attempts, Attempt nodes c) →
      ∃ edges, attempts.foldlM (onConnect (nodeTypeById nodes) entryNodeId) [] = some edges ∧
        EdgeChecks (flowToGraph nodes edges entryNodeId)) ∧
    ((∀ id ∈ g.nodeIds, id ≠ "") → validateGraphStructure schemas g = .ok () →
      ((∀ order, order.Perm (graphToFlow g) →
          AcceptedInOrder (nodeTypeById g.nodes) g.entryNodeId order) ↔
        ∀ e ∈ g.edges, e.condition ≠ some "")) := by
  constructor
  · intro hids _ hattempts
    obtain ⟨edges,hedges,hdrawn,hall⟩ := drawn_of_attempts (Drawn.nil (nodeTypeById nodes) entryNodeId)
      (fun c hc => nomatch hc) hattempts
    exact ⟨edges,hedges,hdrawn.edgeChecks hids hall⟩
  · intro hnamed hvalid
    exact acceptedInOrder_iff (validate_ok_iff.mp hvalid).2 hnamed

section Instances

/-- A branch node whose one edge has the condition given. -/
def routed (condition : String) : WorkflowGraph :=
  ⟨"start",[⟨"start",.start,[]⟩,⟨"branch",.branch,[]⟩,⟨"end",.endNode,[]⟩],
    [⟨"start","branch",none⟩,⟨"branch","end",some condition⟩]⟩

theorem canvas_agrees_routed : AcceptedInOrder (nodeTypeById (routed "yes").nodes) "start"
    [⟨"branch","end",some "yes"⟩,⟨"start","branch",none⟩] :=
  ((canvas_agrees [] "start" [] anyConfig (routed "yes")).2 (by decide) (by decide)).mpr (by decide) _
    (by decide)

/-- A graph with an empty condition: the validator accepts it, the canvas refuses its edge. -/
theorem canvas_refuses_empty : validateGraphStructure anyConfig (routed "") = .ok () ∧
    isValidConnection ⟨"branch","end",some ""⟩ [⟨"start","branch",none⟩]
      (nodeTypeById (routed "").nodes) "start" = some false := by
  constructor
  · decide
  · decide

end Instances
end Linea.Canvas
