import Linea.ValidateSearch

/-! The branch choices of a node, as a relation: which outputs of which branch nodes lie on the
way to it. The memoised recursion of the validator computes it, and on an acyclic graph fails
only where the two inputs of a merge node ask for different outputs of one branch node. -/
namespace Linea.Validate
open ExceptLaws WorkflowGraph OrderedMap

variable {g : WorkflowGraph}

inductive Requires (g : WorkflowGraph) : String → BranchChoices → Prop
  | entry : Requires g g.entryNodeId OrderedMap.empty
  | single {id : String} {edge : WorkflowEdge} {a : BranchChoices} (other : id ≠ g.entryNodeId)
      (incoming : g.incomingEdges id = [edge]) (source : Requires g edge.source a) :
      Requires g id (withEdge g a edge)
  | merge {id : String} {first second : WorkflowEdge} {rest : List WorkflowEdge}
      {a b m : BranchChoices} (other : id ≠ g.entryNodeId)
      (incoming : g.incomingEdges id = first :: second :: rest)
      (left : Requires g first.source a) (right : Requires g second.source b)
      (combined : combineChoices (withEdge g a first) (withEdge g b second) id = .ok m) :
      Requires g id m

/-- The two inputs of a merge node ask for different outputs of one branch node. -/
def Conflict (g : WorkflowGraph) (id : String) : Prop :=
  id ≠ g.entryNodeId ∧ ∃ first second rest a b e,
    g.incomingEdges id = first :: second :: rest ∧
    Requires g first.source a ∧ Requires g second.source b ∧
    combineChoices (withEdge g a first) (withEdge g b second) id = .error e

theorem Requires.unique {id : String} {m n : BranchChoices} (h : Requires g id m)
    (h' : Requires g id n) : m = n := by
  induction h generalizing n with
  | entry =>
    cases h' with
    | entry => rfl
    | single other => exact absurd rfl other
    | merge other => exact absurd rfl other
  | single other incoming _ ih =>
    cases h' with
    | entry => exact absurd rfl other
    | single _ incoming' source' =>
      obtain ⟨rfl, _⟩ := List.cons.inj (incoming.symm.trans incoming')
      rw [ih source']
    | merge _ incoming' => simp [incoming] at incoming'
  | merge other incoming _ _ combined ihl ihr =>
    cases h' with
    | entry => exact absurd rfl other
    | single _ incoming' => simp [incoming] at incoming'
    | merge _ incoming' left' right' combined' =>
      obtain ⟨rfl, h2⟩ := List.cons.inj (incoming.symm.trans incoming')
      obtain ⟨rfl, _⟩ := List.cons.inj h2
      rw [ihl left', ihr right', combined'] at combined
      exact (Except.ok.inj combined).symm

theorem Conflict.not_requires {id : String} (h : Conflict g id) (m : BranchChoices) :
    ¬ Requires g id m := by
  obtain ⟨hne, first, second, rest, a, b, e, hin, ha, hb, herr⟩ := h
  intro hm
  cases hm with
  | entry => exact hne rfl
  | single _ incoming => simp [hin] at incoming
  | merge _ incoming left right combined =>
    obtain ⟨rfl, h2⟩ := List.cons.inj (hin.symm.trans incoming)
    obtain ⟨rfl, _⟩ := List.cons.inj h2
    rw [left.unique ha, right.unique hb, herr] at combined
    cases combined

/-- Memoised results are right. -/
def CacheSound (g : WorkflowGraph) (cache : ChoicesCache) : Prop :=
  ∀ id m, cache.get? id = some m → Requires g id m

theorem cacheSound_empty : CacheSound g OrderedMap.empty := by
  intro id m h
  simp at h

theorem CacheSound.set {cache : ChoicesCache} (h : CacheSound g cache) {id : String}
    {m : BranchChoices} (hm : Requires g id m) : CacheSound g (cache.set id m) := by
  intro n c hc
  rw [get?_set] at hc
  split_ifs at hc with heq
  · cases hc
    exact heq ▸ hm
  · exact h n c hc

/-- The recursion computes the relation or reports a conflict. -/
theorem requiredChoices_spec (hw : WellFormed g) {rank : String → ℕ} (hrank : Ranking g rank)
    {fuel : ℕ} {cache : ChoicesCache} {id : String} (hid : id ∈ g.nodeIds)
    (hfuel : rank id < fuel) (hc : CacheSound g cache) :
    (∃ m cache', requiredChoices g fuel cache id = .ok (m, cache') ∧ Requires g id m ∧
      CacheSound g cache') ∨
    ∃ e, requiredChoices g fuel cache id = .error e ∧ ∃ n ∈ g.nodeIds, Conflict g n := by
  induction fuel generalizing cache id with
  | zero => omega
  | succ fuel ih =>
    have hsource : ∀ edge ∈ g.incomingEdges id,
        edge.source ∈ g.nodeIds ∧ rank edge.source < fuel := by
      intro edge he
      obtain ⟨hmem, rfl⟩ := mem_incomingEdges.mp he
      have := hrank.increases edge hmem
      exact ⟨(hw.ends edge hmem).1, by omega⟩
    rw [requiredChoices]
    cases hget : cache.get? id with
    | some m => exact Or.inl ⟨m, cache, rfl, hc id m hget, hc⟩
    | none =>
      by_cases hentry : id = g.entryNodeId
      · have hreq : Requires g id OrderedMap.empty := hentry ▸ .entry
        simp only [hentry, if_true]
        exact Or.inl ⟨_, _, rfl, .entry, hentry ▸ hc.set hreq⟩
      · simp only [hentry, if_false]
        cases hin : g.incomingEdges id with
        | nil => exact absurd hin (hw.incoming_ne_nil hid hentry)
        | cons first rest =>
          obtain ⟨hs1, hr1⟩ := hsource first (by simp [hin])
          rcases ih hs1 hr1 hc with ⟨a, cache1, ha, hra, hc1⟩ | ⟨e, he, hconf⟩
          · cases rest with
            | nil =>
              have hreq := Requires.single hentry hin hra
              exact Or.inl ⟨_, _, by simp [ha], hreq, hc1.set hreq⟩
            | cons second rest =>
              obtain ⟨hs2, hr2⟩ := hsource second (by simp [hin])
              rcases ih hs2 hr2 hc1 with ⟨b, cache2, hb, hrb, hc2⟩ | ⟨e, he, hconf⟩
              · cases hcomb : combineChoices (withEdge g a first) (withEdge g b second) id with
                | ok m =>
                  have hreq := Requires.merge hentry hin hra hrb hcomb
                  exact Or.inl ⟨m, _, by simp [ha, hb, hcomb], hreq, hc2.set hreq⟩
                | error e =>
                  exact Or.inr ⟨e, by simp [ha, hb, hcomb], id, hid, hentry, first, second, rest,
                    a, b, e, hin, hra, hrb, hcomb⟩
              · exact Or.inr ⟨e, by simp [ha, he], hconf⟩
          · cases rest with
            | nil => exact Or.inr ⟨e, by simp [he], hconf⟩
            | cons second rest => exact Or.inr ⟨e, by simp [he], hconf⟩

theorem combineStep_ok {id : String} {a u : BranchChoices} {p : String × String}
    (h : combineStep id a p = .ok u) (k v : String) :
    u.get? k = some v ↔ a.get? k = some v ∨ (k, v) = p := by
  obtain ⟨k', v'⟩ := p
  have hset : u = a.set k' v' ∧ (a.get? k' = none ∨ a.get? k' = some v') := by
    unfold combineStep at h
    cases hget : a.get? k' with
    | none =>
      simp only [hget] at h
      exact ⟨(Except.ok.inj h).symm, Or.inl rfl⟩
    | some existing =>
      simp only [hget] at h
      split_ifs at h with heq
      · exact ⟨(Except.ok.inj h).symm, Or.inr (heq ▸ rfl)⟩
  obtain ⟨rfl, hold⟩ := hset
  rw [get?_set]
  split_ifs with hk
  · subst hk
    rcases hold with hold | hold <;> simp [hold, eq_comm]
  · simp [hk]

theorem combineSteps_ok {id : String} {l : List (String × String)} {a m : BranchChoices}
    (h : l.foldlM (combineStep id) a = .ok m) (k v : String) :
    m.get? k = some v ↔ a.get? k = some v ∨ (k, v) ∈ l := by
  induction l generalizing a with
  | nil =>
    obtain rfl : a = m := by simpa [pure, Except.pure] using h
    simp
  | cons p l ih =>
    rw [List.foldlM_cons, bind_ok_iff] at h
    obtain ⟨u, hu, hm⟩ := h
    rw [ih hm, combineStep_ok hu, List.mem_cons, or_assoc]

/-- Combined choices are those of both sides. -/
theorem combineChoices_ok {a b m : BranchChoices} {id : String}
    (h : combineChoices a b id = .ok m) (k v : String) :
    m.get? k = some v ↔ a.get? k = some v ∨ b.get? k = some v := by
  rw [combineSteps_ok h, get?_iff_mem (m := b)]

theorem combineSteps_error {id : String} {l : List (String × String)} {a : BranchChoices}
    {e : GraphError} (hn : (l.map Prod.fst).Nodup) (h : l.foldlM (combineStep id) a = .error e) :
    ∃ k v w, a.get? k = some v ∧ (k, w) ∈ l ∧ v ≠ w := by
  induction l generalizing a with
  | nil => simp [pure, Except.pure] at h
  | cons p l ih =>
    obtain ⟨hp, hn⟩ := List.nodup_cons.mp hn
    rw [List.foldlM_cons] at h
    rcases bind_error_cases h with h | ⟨u, hu, h⟩
    · unfold combineStep at h
      cases hget : a.get? p.1 with
      | none => simp [hget] at h
      | some existing =>
        refine ⟨p.1, existing, p.2, hget, by simp, fun heq => ?_⟩
        simp [hget, heq] at h
    · obtain ⟨k, v, w, hv, hw, hne⟩ := ih hn h
      rcases (combineStep_ok hu k v).mp hv with hv | rfl
      · exact ⟨k, v, w, hv, List.mem_cons_of_mem p hw, hne⟩
      · exact absurd (List.mem_map_of_mem hw) hp

/-- Choices that cannot be combined disagree on a branch node. -/
theorem combineChoices_error {a b : BranchChoices} {id : String} {e : GraphError}
    (h : combineChoices a b id = .error e) :
    ∃ k v w, a.get? k = some v ∧ b.get? k = some w ∧ v ≠ w := by
  obtain ⟨k, v, w, hv, hw, hne⟩ := combineSteps_error b.keys_nodup h
  exact ⟨k, v, w, hv, get?_iff_mem.mpr hw, hne⟩

section Merges
variable (hw : WellFormed g) {rank : String → ℕ} (hrank : Ranking g rank)
include hw hrank

theorem requiredChoices_at {cache : ChoicesCache} {id : String} (hid : id ∈ g.nodeIds)
    (hc : CacheSound g cache) :
    (∃ m cache', requiredChoices g (g.nodes.length + 1) cache id = .ok (m, cache') ∧
      Requires g id m ∧ CacheSound g cache') ∨
    ∃ e, requiredChoices g (g.nodes.length + 1) cache id = .error e ∧
      ∃ n ∈ g.nodeIds, Conflict g n :=
  requiredChoices_spec hw hrank hid ((hrank.bounded id hid).trans (Nat.lt_succ_self _)) hc

/-- One round of the loop over the nodes keeps the memo table sound. -/
theorem mergeRound_sound {node : WorkflowNode} (hn : node ∈ g.nodes) {cache cache' : ChoicesCache}
    (hc : CacheSound g cache)
    (h : (do
      let (_, cache) ← requiredChoices g (g.nodes.length + 1) cache node.id
      .ok cache) = .ok cache') :
    (∃ m, Requires g node.id m) ∧ CacheSound g cache' := by
  obtain ⟨r, hr, ho⟩ := bind_ok_iff.mp h
  rcases requiredChoices_at hw hrank (List.mem_map_of_mem hn) hc with
    ⟨m, cache1, hm, hreq, hc1⟩ | ⟨e, he, _⟩
  · rw [hm] at hr
    obtain rfl := Except.ok.inj hr
    obtain rfl := Except.ok.inj ho
    exact ⟨⟨m, hreq⟩, hc1⟩
  · rw [he] at hr
    cases hr

theorem validateMerges_ok (h : validateMerges g = .ok ()) {id : String} (hid : id ∈ g.nodeIds) :
    ∃ m, Requires g id m := by
  obtain ⟨cache, hfold, _⟩ := bind_ok_iff.mp h
  obtain ⟨node, hn, rfl⟩ := List.mem_map.mp hid
  obtain ⟨u, v, hu, hv⟩ := foldlM_each (P := CacheSound g)
    (fun node hn s t hs ht => (mergeRound_sound hw hrank hn hs ht).2)
    cacheSound_empty hfold node hn
  exact (mergeRound_sound hw hrank hn hu hv).1

/-- The merge check fails only where a merge node has conflicting inputs. -/
theorem validateMerges_error {e : GraphError} (h : validateMerges g = .error e) :
    ∃ id ∈ g.nodeIds, Conflict g id := by
  rcases bind_error_cases h with h | ⟨_, _, h⟩
  · obtain ⟨node, hn, cache, hc, herr⟩ := foldlM_throws (P := CacheSound g)
      (fun node hn s t hs ht => (mergeRound_sound hw hrank hn hs ht).2)
      cacheSound_empty h
    rcases requiredChoices_at hw hrank (List.mem_map_of_mem hn) hc with
      ⟨m, cache1, hm, _⟩ | ⟨_, _, hconf⟩
    · rw [hm] at herr
      cases herr
    · exact hconf
  · cases h

/-- On a graph that passes the merge check, every call of the recursion returns. -/
theorem requiredChoices_returns (h : validateMerges g = .ok ()) {id : String}
    (hid : id ∈ g.nodeIds) :
    ∃ m cache, requiredChoices g (g.nodes.length + 1) OrderedMap.empty id = .ok (m, cache) ∧
      Requires g id m := by
  rcases requiredChoices_at hw hrank hid cacheSound_empty with
    ⟨m, cache, hm, hreq, _⟩ | ⟨_, _, n, hn, hconf⟩
  · exact ⟨m, cache, hm, hreq⟩
  · obtain ⟨m, hm⟩ := validateMerges_ok hw hrank h hn
    exact absurd hm (hconf.not_requires m)

end Merges

/-- An edge adds at most its own condition. -/
theorem withEdge_get? {a : BranchChoices} {edge : WorkflowEdge} {b c : String}
    (h : (withEdge g a edge).get? b = some c) :
    a.get? b = some c ∨ b = edge.source ∧ edge.condition = some c := by
  unfold withEdge at h
  split at h
  · rename_i source condition _ hcond
    split_ifs at h
    · rw [get?_set] at h
      split_ifs at h with hb
      · cases h
        exact Or.inr ⟨hb, hcond⟩
      · exact Or.inl h
    · exact Or.inl h
  · exact Or.inl h

/-- Every required choice is the condition of an edge that leaves its branch node towards `id`. -/
theorem Requires.choice {rank : String → ℕ} (hrank : Ranking g rank) {id : String}
    {m : BranchChoices} (h : Requires g id m) {b c : String} (hb : m.get? b = some c) :
    (∃ edge ∈ g.edges, edge.source = b ∧ edge.condition = some c) ∧ rank b < rank id := by
  induction h generalizing b c with
  | entry => simp at hb
  | @single id edge a _ incoming _ ih =>
    obtain ⟨hmem, rfl⟩ := mem_incomingEdges.mp (incoming ▸ List.mem_cons_self : edge ∈ _)
    have hlt := hrank.increases edge hmem
    rcases withEdge_get? hb with hb | ⟨rfl, hc⟩
    · exact ⟨(ih hb).1, (ih hb).2.trans hlt⟩
    · exact ⟨⟨edge, hmem, rfl, hc⟩, hlt⟩
  | @merge id first second rest a b' m _ incoming _ _ combined ihl ihr =>
    have h1 := mem_incomingEdges.mp (incoming ▸ List.mem_cons_self : first ∈ _)
    have h2 := mem_incomingEdges.mp
      (incoming ▸ List.mem_cons_of_mem _ List.mem_cons_self : second ∈ g.incomingEdges id)
    have hlt1 := h1.2 ▸ hrank.increases first h1.1
    have hlt2 := h2.2 ▸ hrank.increases second h2.1
    rcases (combineChoices_ok combined b c).mp hb with hb | hb
    · rcases withEdge_get? hb with hb | ⟨rfl, hc⟩
      · exact ⟨(ihl hb).1, (ihl hb).2.trans hlt1⟩
      · exact ⟨⟨first, h1.1, rfl, hc⟩, hlt1⟩
    · rcases withEdge_get? hb with hb | ⟨rfl, hc⟩
      · exact ⟨(ihr hb).1, (ihr hb).2.trans hlt2⟩
      · exact ⟨⟨second, h2.1, rfl, hc⟩, hlt2⟩

/-- Entering through an edge of a branch node adds the choice of that edge. -/
theorem withEdge_branch {a : BranchChoices} {edge : WorkflowEdge} {node : WorkflowNode}
    {c : String} (hn : g.findNode edge.source = some node) (hb : node.type = .branch)
    (hc : edge.condition = some c) : withEdge g a edge = a.set edge.source c := by
  simp [withEdge, hn, hc, hb]

theorem withEdge_other {a : BranchChoices} {edge : WorkflowEdge} {node : WorkflowNode}
    (hn : g.findNode edge.source = some node) (hb : node.type ≠ .branch) :
    withEdge g a edge = a := by
  unfold withEdge
  split
  · rename_i source condition hs _
    rw [hn] at hs
    cases hs
    simp [hb]
  · rfl

end Linea.Validate
