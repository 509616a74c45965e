import Linea.ValidateStructure

/-! The depth-first search of the validator. A search that returns leaves a finishing order in
which every successor of a node was finished before it, so the graph has no cycle and the
position in that order ranks the nodes along the edges. The fuel bound is never met. -/
namespace Linea.Validate
open ExceptLaws WorkflowGraph

variable {g : WorkflowGraph}

/-- Successors stand behind their node in a list that has the latest finished node first. -/
def Closed (g : WorkflowGraph) : List String → Prop
  | [] => True
  | id :: rest => (∀ edge ∈ g.outgoingEdges id, edge.target ∈ rest) ∧ Closed g rest

structure GoodMarks (g : WorkflowGraph) (marks : Marks) : Prop where
  closed : Closed g marks.visited
  nodup : marks.visited.Nodup
  disjoint : ∀ id ∈ marks.visited, id ∉ marks.visiting
  known : ∀ id ∈ marks.visited, id ∈ g.nodeIds

theorem goodMarks_start : GoodMarks g ⟨∅, []⟩ :=
  ⟨trivial, List.nodup_nil, by simp, by simp⟩

/-- Entering a node that was not visited before. -/
theorem GoodMarks.opened {m : Marks} (hg : GoodMarks g m) {id : String} (hnew : id ∉ m.visited) :
    GoodMarks g { m with visiting := insert id m.visiting } := by
  refine ⟨hg.closed, hg.nodup, fun n hn hin => ?_, hg.known⟩
  rcases Finset.mem_insert.mp hin with rfl | hin
  · exact hnew hn
  · exact hg.disjoint n hn hin

/-- What a visit that returns may do to the marks. -/
structure Searched (g : WorkflowGraph) (before after : Marks) : Prop where
  good : GoodMarks g after
  visiting : after.visiting = before.visiting
  grown : before.visited ⊆ after.visited

/-- Finishing a node after its successors. -/
theorem GoodMarks.finish {m n : Marks} {id : String} (hid : id ∈ g.nodeIds)
    (hnew : id ∉ m.visiting) (hs : Searched g { m with visiting := insert id m.visiting } n)
    (htargets : ∀ edge ∈ g.outgoingEdges id, edge.target ∈ n.visited) :
    Searched g m ⟨n.visiting.erase id, id :: n.visited⟩ := by
  have hvisiting : n.visiting.erase id = m.visiting := by
    rw [hs.visiting]
    exact Finset.erase_insert hnew
  have hfresh : id ∉ n.visited := fun h => hs.good.disjoint id h (by simp [hs.visiting])
  refine ⟨⟨⟨htargets, hs.good.closed⟩, hs.good.nodup.cons hfresh, ?_, ?_⟩, hvisiting, ?_⟩
  · intro n' hn'
    rcases List.mem_cons.mp hn' with rfl | hn'
    · simp
    · exact fun h => hs.good.disjoint n' hn' (Finset.mem_of_mem_erase h)
  · intro n' hn'
    rcases List.mem_cons.mp hn' with rfl | hn'
    · exact hid
    · exact hs.good.known n' hn'
  · exact fun n' hn' => List.mem_cons_of_mem _ (hs.grown hn')

/-- Visiting a list of targets in turn. -/
theorem visitAll_spec {fuel : ℕ} {edges : List WorkflowEdge} {m n : Marks}
    (ih : ∀ (m n : Marks) (id : String), id ∈ g.nodeIds → GoodMarks g m →
      visit g fuel m id = .ok n → Searched g m n ∧ id ∈ n.visited)
    (hends : ∀ edge ∈ edges, edge.target ∈ g.nodeIds) (hg : GoodMarks g m)
    (h : edges.foldlM (fun m edge => visit g fuel m edge.target) m = .ok n) :
    Searched g m n ∧ ∀ edge ∈ edges, edge.target ∈ n.visited := by
  induction edges generalizing m with
  | nil =>
    obtain rfl : m = n := by simpa [pure, Except.pure] using h
    exact ⟨⟨hg, rfl, fun _ h => h⟩, by simp⟩
  | cons edge edges ihe =>
    rw [List.foldlM_cons, bind_ok_iff] at h
    obtain ⟨u, hu, hn⟩ := h
    obtain ⟨hsu, htarget⟩ := ih m u edge.target (hends edge List.mem_cons_self) hg hu
    obtain ⟨hsn, hall⟩ := ihe (fun e he => hends e (List.mem_cons_of_mem edge he)) hsu.good hn
    refine ⟨⟨hsn.good, hsn.visiting.trans hsu.visiting, fun _ h => hsn.grown (hsu.grown h)⟩, ?_⟩
    intro e he
    rcases List.mem_cons.mp he with rfl | he
    · exact hsn.grown htarget
    · exact hall e he

theorem visit_spec (hw : WellFormed g) (fuel : ℕ) (m n : Marks) (id : String)
    (hid : id ∈ g.nodeIds) (hg : GoodMarks g m) (h : visit g fuel m id = .ok n) :
    Searched g m n ∧ id ∈ n.visited := by
  induction fuel generalizing m n id with
  | zero => simp [visit] at h
  | succ fuel ih =>
    rw [visit] at h
    split_ifs at h with hdone hopen
    · obtain rfl : m = n := by simpa using h
      exact ⟨⟨hg, rfl, fun _ h => h⟩, hdone⟩
    · obtain ⟨u, hu, hn⟩ := bind_ok_iff.mp h
      obtain ⟨hs, htargets⟩ := visitAll_spec ih
        (fun edge he => (hw.ends edge (mem_outgoingEdges.mp he).1).2) (hg.opened hdone) hu
      obtain rfl := (Except.ok.inj hn).symm
      exact ⟨GoodMarks.finish hid hopen hs htargets, by simp⟩

/-- The nodes being visited leave enough fuel for the others, so the bound is never met. -/
theorem visit_fuel (hw : WellFormed g) {fuel : ℕ} {m : Marks} {id : String}
    (hid : id ∈ g.nodeIds) (hg : GoodMarks g m) (hv : m.visiting ⊆ g.nodeIds.toFinset)
    (hf : g.nodeIds.toFinset.card < fuel + m.visiting.card) :
    visit g fuel m id ≠ .error .outOfFuel := by
  induction fuel generalizing m id with
  | zero =>
    have := Finset.card_le_card hv
    omega
  | succ fuel ih =>
    intro h
    rw [visit] at h
    split_ifs at h with hdone hopen
    · cases h
    · rcases bind_error_cases h with h | ⟨_, _, h⟩
      · let P : Marks → Prop := fun n =>
          GoodMarks g n ∧ n.visiting = insert id m.visiting
        have hstart : P { m with visiting := insert id m.visiting } := ⟨hg.opened hdone, rfl⟩
        have hends : ∀ edge ∈ g.outgoingEdges id, edge.target ∈ g.nodeIds := fun edge he =>
          (hw.ends edge (mem_outgoingEdges.mp he).1).2
        obtain ⟨edge, he, t, ⟨htg, htv⟩, herr⟩ := foldlM_throws (P := P) (fun edge he s t hs ht =>
          have hst := (visit_spec hw fuel s t edge.target (hends edge he) hs.1 ht).1
          ⟨hst.good, hst.visiting.trans hs.2⟩) hstart h
        refine ih (hends edge he) htg ?_ ?_ herr
        · rw [htv]
          exact Finset.insert_subset (by simpa using hid) hv
        · rw [htv, Finset.card_insert_of_notMem hopen]
          omega
      · cases h

theorem Closed.target_mem {l : List String} (h : Closed g l) {edge : WorkflowEdge}
    (he : edge ∈ g.edges) (hs : edge.source ∈ l) : edge.target ∈ l := by
  induction l with
  | nil => simp at hs
  | cons id rest ih =>
    rcases List.mem_cons.mp hs with heq | hs
    · exact List.mem_cons_of_mem id (h.1 edge (mem_outgoingEdges.mpr ⟨he, heq⟩))
    · exact List.mem_cons_of_mem id (ih h.2 hs)

/-- Later in a closed list means further along the edges. -/
theorem Closed.idxOf_lt {l : List String} (h : Closed g l) (hn : l.Nodup) {edge : WorkflowEdge}
    (he : edge ∈ g.edges) (hs : edge.source ∈ l) : l.idxOf edge.source < l.idxOf edge.target := by
  induction l with
  | nil => simp at hs
  | cons id rest ih =>
    obtain ⟨hid, hnd⟩ := List.nodup_cons.mp hn
    by_cases heq : edge.source = id
    · have ht : edge.target ∈ rest := h.1 edge (mem_outgoingEdges.mpr ⟨he, heq⟩)
      have hne : edge.target ≠ id := fun h => hid (h ▸ ht)
      rw [heq, List.idxOf_cons_self, List.idxOf_cons_ne _ hne.symm]
      omega
    · have hs' : edge.source ∈ rest := (List.mem_cons.mp hs).resolve_left heq
      have hne : edge.target ≠ id := fun ht => hid (ht ▸ h.2.target_mem he hs')
      rw [List.idxOf_cons_ne _ (Ne.symm heq), List.idxOf_cons_ne _ hne.symm]
      have := ih h.2 hnd hs'
      omega

/-- A strict ranking of the nodes along the edges. -/
structure Ranking (g : WorkflowGraph) (rank : String → ℕ) : Prop where
  increases : ∀ edge ∈ g.edges, rank edge.source < rank edge.target
  bounded : ∀ id ∈ g.nodeIds, rank id < g.nodes.length

/-- Graphs that pass the search are acyclic: the finishing order ranks them. -/
theorem ranking_of_search (hw : WellFormed g) {marks : Marks}
    (h : visit g (g.nodes.length + 1) ⟨∅, []⟩ g.entryNodeId = .ok marks)
    (hall : ∀ n ∈ g.nodes, n.id ∈ marks.visited) :
    Ranking g fun id => marks.visited.idxOf id := by
  have hgood := (visit_spec hw _ _ _ _ hw.entry goodMarks_start h).1.good
  have hmem : ∀ id ∈ g.nodeIds, id ∈ marks.visited := by
    intro id hid
    obtain ⟨n, hn, rfl⟩ := List.mem_map.mp hid
    exact hall n hn
  refine ⟨fun edge he => hgood.closed.idxOf_lt hgood.nodup he (hmem _ (hw.ends edge he).1),
    fun id hid => ?_⟩
  have hlen : marks.visited.length ≤ g.nodes.length := by
    have := (hgood.nodup.subperm hgood.known).length_le
    simpa [nodeIds] using this
  exact (List.idxOf_lt_length_iff.mpr (hmem id hid)).trans_le hlen

/-- The search the validator starts does not run out of fuel. -/
theorem search_fuel (hw : WellFormed g) :
    visit g (g.nodes.length + 1) ⟨∅, []⟩ g.entryNodeId ≠ .error .outOfFuel := by
  apply visit_fuel hw hw.entry goodMarks_start (by simp)
  have := g.nodeIds.toFinset_card_le
  simp only [nodeIds, List.length_map] at this
  simp only [Finset.card_empty, nodeIds]
  omega

end Linea.Validate
