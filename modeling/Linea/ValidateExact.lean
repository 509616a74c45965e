import Linea.ValidateChoices
import Mathlib.Logic.Relation

/-! What the validator accepts, said of the graph alone: `validateGraphStructure` terminates on every
graph and returns on exactly those that are accepted. -/
namespace Linea.Validate
open ExceptLaws WorkflowGraph OrderedMap Relation

variable {g : WorkflowGraph}

/-- Some edge goes from one node to the other. -/
def Leads (edges : List WorkflowEdge) (a b : String) : Prop :=
  ∃ e ∈ edges, e.source = a ∧ e.target = b

def Acyclic (edges : List WorkflowEdge) : Prop := ∀ id, ¬TransGen (Leads edges) id id

/-- The conditions on the backward paths of each node: no two of one branch node differ. -/
def ChoicesConsistent (g : WorkflowGraph) : Prop :=
  ∀ id ∈ g.nodeIds, ∀ e ∈ g.edges, ∀ e' ∈ g.edges, e.source = e'.source →
    ReflTransGen (Leads g.edges) e.target id → ReflTransGen (Leads g.edges) e'.target id →
    ∀ c c', e.condition = some c → e'.condition = some c' → c = c'

/-- What the validator asks of a graph besides the configurations of its nodes. -/
structure Accepted (g : WorkflowGraph) : Prop where
  wellFormed : WellFormed g
  acyclic : Acyclic g.edges
  reachable : ∀ id ∈ g.nodeIds, ReflTransGen (Leads g.edges) g.entryNodeId id
  consistent : ChoicesConsistent g

/-! ### The search -/

lemma leads_outgoing {id : String} {e : WorkflowEdge} (he : e ∈ g.outgoingEdges id) :
    Leads g.edges id e.target := by
  obtain ⟨he,hs⟩ := mem_outgoingEdges.mp he
  exact ⟨e,he,hs,rfl⟩

/-- A search that throws has met a node on the way to itself. -/
lemma visit_error (hw : WellFormed g) {fuel : ℕ} {m : Marks} {id : String} {error : GraphError}
    (hid : id ∈ g.nodeIds) (hg : GoodMarks g m)
    (hpath : ∀ v ∈ m.visiting, TransGen (Leads g.edges) v id)
    (h : visit g fuel m id = .error error) :
    error = .outOfFuel ∨ ∃ c, TransGen (Leads g.edges) c c := by
  induction fuel generalizing m id with
  | zero =>
    left
    cases h
    rfl
  | succ fuel ih =>
    rw [visit] at h
    split_ifs at h with hdone hopen
    · exact .inr ⟨id,hpath id hopen⟩
    · rcases bind_error_cases h with h | ⟨_,_,h⟩
      · let P : Marks → Prop := fun n => GoodMarks g n ∧ n.visiting = insert id m.visiting
        have hstart : P { m with visiting := insert id m.visiting } := ⟨hg.opened hdone,rfl⟩
        have hends : ∀ edge ∈ g.outgoingEdges id, edge.target ∈ g.nodeIds := fun edge he =>
          (hw.ends edge (mem_outgoingEdges.mp he).1).2
        obtain ⟨edge,he,t,⟨htg,htv⟩,herr⟩ := foldlM_throws (P := P) (fun edge he s t hs ht =>
          have hst := (visit_spec hw fuel s t edge.target (hends edge he) hs.1 ht).1
          ⟨hst.good,hst.visiting.trans hs.2⟩) hstart h
        refine ih (hends edge he) htg (fun v hv => ?_) herr
        rw [htv] at hv
        rcases Finset.mem_insert.mp hv with rfl | hv
        · exact .single (leads_outgoing he)
        · exact (hpath v hv).tail (leads_outgoing he)
      · cases h

/-- On an acyclic graph the search returns. -/
lemma search_returns (hw : WellFormed g) (hacyclic : Acyclic g.edges) :
    ∃ marks, visit g (g.nodes.length + 1) ⟨∅,[]⟩ g.entryNodeId = .ok marks := by
  cases h : visit g (g.nodes.length + 1) ⟨∅,[]⟩ g.entryNodeId with
  | ok marks => exact ⟨marks,rfl⟩
  | error error =>
    rcases visit_error hw hw.entry goodMarks_start (fun v hv => absurd hv (Finset.notMem_empty v)) h
      with rfl | ⟨c,hc⟩
    · exact absurd h (search_fuel hw)
    · exact absurd hc (hacyclic c)

/-- What is reachable from the entry has been visited. -/
lemma visited_of_path (hw : WellFormed g) {marks : Marks}
    (h : visit g (g.nodes.length + 1) ⟨∅,[]⟩ g.entryNodeId = .ok marks) {id : String}
    (hpath : ReflTransGen (Leads g.edges) g.entryNodeId id) : id ∈ marks.visited := by
  obtain ⟨hs,hentry⟩ := visit_spec hw _ _ _ _ hw.entry goodMarks_start h
  induction hpath with
  | refl => exact hentry
  | tail _ hstep ih =>
    obtain ⟨e,he,rfl,rfl⟩ := hstep
    exact hs.good.closed.target_mem he ih

lemma Ranking.lt_of_path {rank : String → ℕ} (hrank : Ranking g rank) {a b : String}
    (h : TransGen (Leads g.edges) a b) : rank a < rank b := by
  induction h with
  | single hstep =>
    obtain ⟨e,he,rfl,rfl⟩ := hstep
    exact hrank.increases e he
  | tail _ hstep ih =>
    obtain ⟨e,he,rfl,rfl⟩ := hstep
    exact ih.trans (hrank.increases e he)

lemma Ranking.acyclic {rank : String → ℕ} (hrank : Ranking g rank) : Acyclic g.edges :=
  fun _ h => lt_irrefl _ (hrank.lt_of_path h)

/-- Every node but the entry has an edge to it, so that going back along the edges ends at the entry. -/
lemma Ranking.reachable {rank : String → ℕ} (hrank : Ranking g rank) (hw : WellFormed g) {id : String}
    (hid : id ∈ g.nodeIds) : ReflTransGen (Leads g.edges) g.entryNodeId id := by
  induction hn : rank id using Nat.strong_induction_on generalizing id with
  | _ n ih =>
    by_cases hentry : id = g.entryNodeId
    · rw [hentry]
    · obtain ⟨e,he⟩ := List.exists_mem_of_ne_nil _ (hw.incoming_ne_nil hid hentry)
      obtain ⟨hmem,rfl⟩ := mem_incomingEdges.mp he
      have hlt := hrank.increases e hmem
      exact (ih _ (hn ▸ hlt) (hw.ends e hmem).1 rfl).tail ⟨e,hmem,rfl,rfl⟩

/-! ### The choices -/

/-- What `b` requires for its choice: an edge with the condition on a way to `id`. -/
def OnPath (g : WorkflowGraph) (id b c : String) : Prop :=
  ∃ e ∈ g.edges, e.source = b ∧ e.condition = some c ∧ ReflTransGen (Leads g.edges) e.target id

lemma OnPath.withEdge {id b c : String} {a : BranchChoices} {edge : WorkflowEdge}
    (hin : edge ∈ g.incomingEdges id) (ha : a.get? b = some c → OnPath g edge.source b c)
    (hb : (withEdge g a edge).get? b = some c) : OnPath g id b c := by
  obtain ⟨hmem,rfl⟩ := mem_incomingEdges.mp hin
  rcases withEdge_get? hb with hb | ⟨rfl,hc⟩
  · obtain ⟨e,he,hs,hc,hpath⟩ := ha hb
    exact ⟨e,he,hs,hc,hpath.tail ⟨edge,hmem,rfl,rfl⟩⟩
  · exact ⟨edge,hmem,rfl,hc,.refl⟩

lemma Requires.onPath {id : String} {m : BranchChoices} (h : Requires g id m) {b c : String}
    (hb : m.get? b = some c) : OnPath g id b c := by
  induction h generalizing b c with
  | entry => simp at hb
  | single _ incoming _ ih => exact OnPath.withEdge (incoming ▸ List.mem_cons_self) ih hb
  | merge _ incoming _ _ combined ihl ihr =>
    rcases (combineChoices_ok combined b c).mp hb with hb | hb
    · exact OnPath.withEdge (incoming ▸ List.mem_cons_self) ihl hb
    · exact OnPath.withEdge (incoming ▸ List.mem_cons_of_mem _ List.mem_cons_self) ihr hb

/-- A node has two edges to it at most. -/
lemma incoming_length_le (hw : WellFormed g) {id : String} (hid : id ∈ g.nodeIds) :
    (g.incomingEdges id).length ≤ 2 := by
  obtain ⟨n,hn,rfl⟩ := List.mem_map.mp hid
  by_cases hentry : n.id = g.entryNodeId
  · rw [hentry,hw.entryIncoming]
    exact Nat.zero_le _
  · by_cases hm : n.type = .merge
    · exact (hw.mergeIncoming n hn hentry hm).1.le
    · rw [hw.singleIncoming n hn hentry hm]
      exact Nat.le_succ 1

/-- Each edge to a node hands on the choices of its source with its own. -/
lemma Requires.incoming (hw : WellFormed g) {id : String} (hid : id ∈ g.nodeIds) {m : BranchChoices}
    (h : Requires g id m) {edge : WorkflowEdge} (hin : edge ∈ g.incomingEdges id) :
    ∃ a, Requires g edge.source a ∧
      ∀ b c, (withEdge g a edge).get? b = some c → m.get? b = some c := by
  have hlength := incoming_length_le hw hid
  cases h with
  | entry =>
    rw [hw.entryIncoming] at hin
    cases hin
  | @single _ first a _ incoming source =>
    rw [incoming] at hin
    rw [List.mem_singleton.mp hin]
    exact ⟨a,source,fun _ _ hb => hb⟩
  | @merge _ first second rest a a' _ _ incoming left right combined =>
    rw [incoming] at hin hlength
    obtain rfl : rest = [] := List.length_eq_zero_iff.mp (by simpa using hlength)
    rcases List.mem_cons.mp hin with rfl | hin
    · exact ⟨a,left,fun b c hb => (combineChoices_ok combined b c).mpr (.inl hb)⟩
    · rw [List.mem_singleton.mp hin]
      exact ⟨a',right,fun b c hb => (combineChoices_ok combined b c).mpr (.inr hb)⟩

/-- The condition of an edge is a choice of every node that lies behind it. -/
lemma Requires.of_path (hw : WellFormed g) {rank : String → ℕ} (hrank : Ranking g rank)
    {e : WorkflowEdge} (he : e ∈ g.edges) {c : String} (hc : e.condition = some c) {id : String}
    (hpath : ReflTransGen (Leads g.edges) e.target id) {m : BranchChoices} (hm : Requires g id m) :
    m.get? e.source = some c := by
  obtain ⟨node,hnode⟩ := hw.source_node he
  obtain ⟨hmem,hid⟩ := findNode_some hnode
  have hbranch : node.type = .branch := by
    by_contra hne
    rw [hw.unconditioned node hmem hne e (mem_outgoingEdges.mpr ⟨he,hid.symm⟩)] at hc
    cases hc
  induction hpath generalizing m with
  | refl =>
    obtain ⟨a,-,hsub⟩ := hm.incoming hw (hw.ends e he).2 (mem_incomingEdges.mpr ⟨he,rfl⟩)
    refine hsub _ _ ?_
    rw [withEdge_branch hnode hbranch hc,get?_set,if_pos rfl]
  | tail hpath hstep ih =>
    obtain ⟨e',he',rfl,rfl⟩ := hstep
    obtain ⟨a,ha,hsub⟩ := hm.incoming hw (hw.ends e' he').2 (mem_incomingEdges.mpr ⟨he',rfl⟩)
    have hchoice := ih ha
    refine hsub _ _ ?_
    -- No edge on the way leaves the branch node again.
    have hne : e.source ≠ e'.source := by
      intro heq
      have hlt := hrank.lt_of_path (TransGen.head' ⟨e,he,rfl,rfl⟩ hpath)
      exact absurd (heq ▸ hlt) (lt_irrefl _)
    unfold withEdge
    split
    · split_ifs
      · rw [get?_set,if_neg hne]
        exact hchoice
      · exact hchoice
    · exact hchoice

/-- The merge check passes exactly where the choices of every node agree. -/
lemma validateMerges_ok_iff (hw : WellFormed g) {rank : String → ℕ} (hrank : Ranking g rank) :
    validateMerges g = .ok () ↔ ChoicesConsistent g := by
  constructor
  · intro h id hid e he e' he' hsource hpath hpath' c c' hc hc'
    obtain ⟨m,hm⟩ := validateMerges_ok hw hrank h hid
    have hm' := hm.of_path hw hrank he' hc' hpath'
    rw [← hsource,hm.of_path hw hrank he hc hpath] at hm'
    exact Option.some.inj hm'
  · intro h
    cases hv : validateMerges g with
    | ok u => rfl
    | error error =>
      obtain ⟨id,hid,-,first,second,rest,a,b,error,incoming,ha,hb,hconflict⟩ :=
        validateMerges_error hw hrank hv
      obtain ⟨k,v,w,hv,hw',hne⟩ := combineChoices_error hconflict
      obtain ⟨e,he,hs,hc,hpath⟩ : OnPath g id k v :=
        OnPath.withEdge (incoming ▸ List.mem_cons_self) ha.onPath hv
      obtain ⟨e',he',hs',hc',hpath'⟩ : OnPath g id k w :=
        OnPath.withEdge (incoming ▸ List.mem_cons_of_mem _ List.mem_cons_self) hb.onPath hw'
      exact absurd (h id hid e he e' he' (hs.trans hs'.symm) hpath hpath' v w hc hc') hne

/-! ### The validator -/

/-- The validator returns on exactly the accepted graphs whose configurations pass their schemas. -/
lemma validate_ok_iff {schemas : ConfigSchemas} :
    validateGraphStructure schemas g = .ok () ↔ ConfigsAccepted schemas g ∧ Accepted g := by
  rw [validateGraphStructure_ok_iff,validateBeforeMerges_ok_iff]
  constructor
  · rintro ⟨⟨hw,hconfigs,marks,hmarks,hall⟩,hmerges⟩
    have hrank := ranking_of_search hw hmarks hall
    exact ⟨hconfigs,hw,hrank.acyclic,fun id hid => hrank.reachable hw hid,
      (validateMerges_ok_iff hw hrank).mp hmerges⟩
  · rintro ⟨hconfigs,hw,hacyclic,hreachable,hconsistent⟩
    obtain ⟨marks,hmarks⟩ := search_returns hw hacyclic
    have hall : ∀ n ∈ g.nodes, n.id ∈ marks.visited := fun n hn =>
      visited_of_path hw hmarks (hreachable n.id (List.mem_map_of_mem hn))
    exact ⟨⟨hw,hconfigs,marks,hmarks,hall⟩,
      (validateMerges_ok_iff hw (ranking_of_search hw hmarks hall)).mpr hconsistent⟩

/-! ### Termination -/

/-- The bound on the depth of the recursions is not met. -/
def Halts {α : Type} (x : Except GraphError α) : Prop := x ≠ .error .outOfFuel

lemma Halts.bind {α β : Type} {x : Except GraphError α} {f : α → Except GraphError β} (h : Halts x)
    (hf : ∀ a, x = .ok a → Halts (f a)) : Halts (x >>= f) := by
  intro herr
  rcases bind_error_cases herr with herr | ⟨a,ha,herr⟩
  · exact h herr
  · exact hf a ha herr

lemma Halts.ok {α : Type} (a : α) : Halts (.ok a) := fun h => nomatch h

lemma Halts.error {α : Type} {e : GraphError} (h : e ≠ .outOfFuel) :
    Halts (.error e : Except GraphError α) := fun h' => h (Except.error.inj h')

lemma Halts.ensure {test : Bool} {e : GraphError} (h : e ≠ .outOfFuel) : Halts (ensure test e) := by
  cases test
  · exact .error h
  · exact .ok ()

lemma Halts.forM {α : Type} {l : List α} {f : α → Except GraphError Unit}
    (h : ∀ a ∈ l, Halts (f a)) : Halts (l.forM f) := by
  induction l with
  | nil => exact .ok ()
  | cons a l ih =>
    exact Halts.bind (h a List.mem_cons_self) fun _ _ =>
      ih fun b hb => h b (List.mem_cons_of_mem a hb)

lemma Halts.foldlM {α σ : Type} {P : σ → Prop} {f : σ → α → Except GraphError σ} {l : List α} {s : σ}
    (hstep : ∀ a ∈ l, ∀ s t, P s → f s a = .ok t → P t) (hs : P s)
    (h : ∀ a ∈ l, ∀ s, P s → Halts (f s a)) : Halts (l.foldlM f s) := by
  intro herr
  obtain ⟨a,ha,t,ht,herr⟩ := foldlM_throws hstep hs herr
  exact h a ha t ht herr

lemma checkDegrees_halts (n : WorkflowNode) : Halts (checkDegrees g n) := by
  refine .bind ?_ fun _ _ => .ensure fun h => nomatch h
  unfold checkIncoming
  dsimp only
  split
  · exact .ensure fun h => nomatch h
  · refine .bind (.ensure fun h => nomatch h) fun _ _ => ?_
    unfold checkMergeSources
    split
    · exact .ensure fun h => nomatch h
    · exact .ok ()

lemma checkStrayCondition_halts (n : WorkflowNode) : Halts (checkStrayCondition g n) := by
  unfold checkStrayCondition
  split_ifs
  · exact .ok ()
  · split
    · exact .error fun h => nomatch h
    · exact .ok ()

lemma checkRetryPolicy_halts (schemas : ConfigSchemas) (n : WorkflowNode) :
    Halts (checkRetryPolicy schemas n) := by
  unfold checkRetryPolicy
  split
  · exact .ok ()
  · split
    · exact .error fun h => nomatch h
    · exact .ok ()

lemma checkConfig_halts (type : NodeType) (kind : String)
    (schema : List (String × Value) → Option String) (n : WorkflowNode) :
    Halts (checkConfig type kind schema n) := by
  unfold checkConfig
  split_ifs
  · split
    · exact .error fun h => nomatch h
    · exact .ok ()
  · exact .ok ()

lemma checkConditions_halts (n : WorkflowNode) : Halts (checkConditions g n) := by
  unfold checkConditions
  split_ifs
  · exact .bind (.ensure fun h => nomatch h) fun _ _ => .ensure fun h => nomatch h
  · exact .ok ()

lemma combineChoices_halts (a b : BranchChoices) (id : String) : Halts (combineChoices a b id) := by
  refine Halts.foldlM (P := fun _ => True) (fun _ _ _ _ _ _ => trivial) trivial fun p _ s _ => ?_
  unfold combineStep
  split
  · split_ifs
    · exact .ok _
    · exact .error fun h => nomatch h
  · exact .ok _

/-- The recursion goes back along the edges, so that the rank of a node bounds its depth. -/
lemma requiredChoices_halts {rank : String → ℕ} (hrank : Ranking g rank)
    {fuel : ℕ} {cache : ChoicesCache} {id : String} (hfuel : rank id < fuel) :
    Halts (requiredChoices g fuel cache id) := by
  induction fuel generalizing cache id with
  | zero => omega
  | succ fuel ih =>
    rw [requiredChoices]
    have hback : ∀ edge ∈ g.incomingEdges id, rank edge.source < fuel := by
      intro edge he
      obtain ⟨hmem,rfl⟩ := mem_incomingEdges.mp he
      have := hrank.increases edge hmem
      omega
    split
    · exact .ok _
    · split_ifs
      · exact .ok _
      · split
        · refine .error fun h => ?_
          cases h
        · rename_i first incoming
          exact .bind (ih (hback first (incoming ▸ List.mem_cons_self))) fun _ _ => .ok _
        · rename_i first second rest incoming
          refine .bind (ih (hback first (incoming ▸ List.mem_cons_self))) fun _ _ => ?_
          refine .bind (ih (hback second
            (incoming ▸ List.mem_cons_of_mem _ List.mem_cons_self))) fun _ _ => ?_
          exact .bind (combineChoices_halts _ _ _) fun _ _ => .ok _

lemma validateMerges_halts {rank : String → ℕ} (hrank : Ranking g rank) :
    Halts (validateMerges g) := by
  refine .bind (.foldlM (P := fun _ => True) (fun _ _ _ _ _ _ => trivial) trivial
    fun n hn s _ => ?_) fun _ _ => .ok ()
  refine .bind (requiredChoices_halts hrank ?_) fun _ _ => .ok _
  exact (hrank.bounded n.id (List.mem_map_of_mem hn)).trans (Nat.lt_succ_self _)

lemma wellFormed_of_checks
    (hids : ensure (g.nodeIds.toFinset.card = g.nodes.length) .duplicateIds = .ok ())
    (hentry : ensure (g.entryNodeId ∈ g.nodeIds) (.unknownEntry g.entryNodeId) = .ok ())
    (hends : g.edges.forM (checkEdgeEnds g) = .ok ())
    (hdegrees : g.nodes.forM (checkDegrees g) = .ok ())
    (hstray : g.nodes.forM (checkStrayCondition g) = .ok ())
    (hconditions : g.nodes.forM (checkConditions g) = .ok ()) : WellFormed g := by
  have hlength : g.nodes.length = g.nodeIds.length := (List.length_map _).symm
  simp only [forM_ok_iff,ensure_ok_iff,decide_eq_true_eq,checkEdgeEnds_ok_iff,checkDegrees_ok_iff,
    checkIncoming_ok_iff,checkStrayCondition_ok_iff,checkConditions_ok_iff] at *
  rw [hlength,card_toFinset_eq_length_iff] at hids
  obtain ⟨entry,hmem,hid⟩ := List.mem_map.mp hentry
  exact
    { ids := hids, entry := hentry, ends := hends
      entryIncoming := hid ▸ (hdegrees entry hmem).1.1 hid
      singleIncoming := fun n hn => (hdegrees n hn).1.2.1
      mergeIncoming := fun n hn => (hdegrees n hn).1.2.2
      endOutgoing := fun n hn => (hdegrees n hn).2
      unconditioned := hstray, conditions := hconditions }

/-- The search begins only on a well-formed graph. -/
lemma validateBeforeMerges_halts (schemas : ConfigSchemas) (g : WorkflowGraph) :
    Halts (validateBeforeMerges schemas g) := by
  refine .bind (.ensure fun h => nomatch h) fun _ hids => ?_
  refine .bind (.ensure fun h => nomatch h) fun _ hentry => ?_
  refine .bind (.forM fun e _ => ?_) fun _ hends => ?_
  · exact .bind (.ensure fun h => nomatch h) fun _ _ => .ensure fun h => nomatch h
  refine .bind (.forM fun n _ => checkDegrees_halts n) fun _ hdegrees => ?_
  refine .bind (.forM fun n _ => checkStrayCondition_halts n) fun _ hstray => ?_
  refine .bind (.forM fun n _ => checkRetryPolicy_halts schemas n) fun _ hretry => ?_
  refine .bind (.forM fun n _ => checkConfig_halts _ _ _ n) fun _ hextract => ?_
  refine .bind (.forM fun n _ => checkConfig_halts _ _ _ n) fun _ hconnector => ?_
  refine .bind (.forM fun n _ => checkConfig_halts _ _ _ n) fun _ hevaluator => ?_
  refine .bind (.forM fun n _ => checkConditions_halts n) fun _ hconditions => ?_
  have hw : WellFormed g := wellFormed_of_checks hids hentry hends hdegrees hstray hconditions
  exact .bind (search_fuel hw) fun _ _ => .forM fun _ _ => .ensure fun h => nomatch h

lemma validateGraphStructure_halts (schemas : ConfigSchemas) (g : WorkflowGraph) :
    Halts (validateGraphStructure schemas g) := by
  refine .bind (validateBeforeMerges_halts schemas g) fun _ hbefore => ?_
  obtain ⟨hw,-,marks,hmarks,hall⟩ := validateBeforeMerges_ok_iff.mp hbefore
  exact validateMerges_halts (ranking_of_search hw hmarks hall)

/-- The validator terminates on every graph, and returns on exactly the accepted ones whose
configurations pass their schemas; a merge node is bound to two inputs only if it is not the entry. -/
theorem validate_exact (schemas : ConfigSchemas) (g : WorkflowGraph) :
    validateGraphStructure schemas g ≠ .error .outOfFuel ∧
      (validateGraphStructure schemas g = .ok () ↔ ConfigsAccepted schemas g ∧ Accepted g) :=
  ⟨validateGraphStructure_halts schemas g,validate_ok_iff⟩

section Instances

/-- Schemas that accept every configuration. -/
def anyConfig : ConfigSchemas := ⟨fun _ => none,fun _ => none,fun _ => none,fun _ => none⟩

/-- One merge node, which is the entry. -/
def loneMerge : WorkflowGraph := ⟨"merge",[⟨"merge",.merge,[]⟩],[]⟩

/-- A merge node that is the entry is accepted without incoming edges. -/
theorem validate_loneMerge : validateGraphStructure anyConfig loneMerge = .ok () ∧
    ¬∀ n ∈ loneMerge.nodes, n.type = .merge → (loneMerge.incomingEdges n.id).length = 2 := by
  refine ⟨?_,?_⟩
  · decide
  · decide

end Instances
end Linea.Validate
