import Linea.WalkerMeaning

/-! Walks resumed from a checkpoint. With an executor that is a function of the step, readiness
is a single-valued firing system, so the order in which a resumed walk takes the ready nodes
does not change what is completed. -/
namespace Linea.Walker
open ExceptLaws WorkflowGraph OrderedMap Validate FiringRule

variable {g : WorkflowGraph} {c d e : CompletedMap} {payload : Value}
  {execute : StepToExecute → StepResult}

/-- Completing a ready node with the executor's answer to its step. -/
def executorRule (g : WorkflowGraph) (payload : Value) (execute : StepToExecute → StepResult) :
    FiringRule String Value := fun c id output =>
  ∃ node, g.findNode id = some node ∧ ReadyIn g c id ∧ Matches g node output ∧
    execute (stepAt g payload c node) = .output output

theorem executorRule_monotone : FiringRule.Monotone (executorRule g payload execute) := by
  rintro m n id v he ⟨node, hn, hr, hm, hx⟩
  obtain ⟨_, rfl⟩ := findNode_some hn
  exact ⟨node, hn, hr.mono he, hm, by rw [stepAt_stable hr he]; exact hx⟩

theorem executorRule_singleValued : SingleValued (executorRule g payload execute) := by
  rintro m id v w ⟨node, hn, _, _, hv⟩ ⟨node', hn', _, _, hw⟩
  obtain rfl : node = node' := Option.some.inj (hn.symm.trans hn')
  exact StepResult.output.inj (hv.symm.trans hw)

theorem executorRule_walkRule {id : String} {v : Value}
    (h : executorRule g payload execute c id v) : walkRule g c id v := by
  obtain ⟨node, hn, hr, hm, _⟩ := h
  exact ⟨node, hn, hr, hm⟩

/-- The steps of a walk follow the executor's rule. -/
theorem fired_executorRule {fired : List (String × Value)} (h : Fired (walkRule g) c fired d)
    (hans : ∀ p ∈ fired, execute (stepOf g payload d p.1) = .output p.2) :
    Fired (executorRule g payload execute) c fired d := by
  induction h with
  | nil m => exact .nil m
  | @cons m k v l m' new hrule rest ih =>
    obtain ⟨node, hn, hr, hm⟩ := hrule
    refine .cons new ⟨node, hn, hr, hm, ?_⟩ (ih fun p hp => hans p (List.mem_cons_of_mem _ hp))
    obtain ⟨_, rfl⟩ := findNode_some hn
    have := hans (node.id, v) List.mem_cons_self
    rwa [stepOf_eq hn, stepAt_stable hr ((extends_set new v).trans rest.extends)] at this

theorem Answered.of_function {history : History} {fired : List (String × Value)}
    (h : Answered g payload (fun _ => execute) history d fired) :
    ∀ p ∈ fired, execute (stepOf g payload d p.1) = .output p.2 := by
  intro p hp
  obtain ⟨pre, post, heq⟩ := List.append_of_mem hp
  exact h pre p.1 p.2 post heq

theorem Settled.saturated (h : Settled g d) : Saturated (executorRule g payload execute) d := by
  rintro id v ⟨node, hn, hr, _⟩
  obtain ⟨hmem, rfl⟩ := findNode_some hn
  exact h _ (List.mem_map_of_mem hmem) hr

/-- Steps depend on the bindings of the completed map only. -/
theorem stepOf_congr (h : ∀ id, d.get? id = e.get? id) (id : String) :
    stepOf g payload d id = stepOf g payload e id := by
  have hl : lookup d = lookup e := by
    funext n
    simp [lookup, h n]
  have hstep : stepAt g payload d = stepAt g payload e := by
    funext node
    simp [stepAt, inputOf, hl]
  simp only [stepOf, hstep]

theorem logged_take (fired : List (String × Value)) (k : ℕ) :
    (logged g payload c fired).take k = logged g payload c (fired.take k) := by
  simp [logged, List.map_take]

theorem logged_drop (fired : List (String × Value)) (k : ℕ) :
    (logged g payload c fired).drop k = logged g payload c (fired.drop k) := by
  simp [logged, List.map_drop]

/-- Resuming an error-free walk from the outputs of its first `k` steps yields the steps that
were left, each once, possibly in another order, and ends with the same completed map. -/
theorem resumed_walk_completes (schemas : ConfigSchemas) (g : WorkflowGraph)
    (accepted : validateGraphStructure schemas g = .ok ()) (payload : Value)
    (answer : StepToExecute → Value) (hb : BranchesMatch g fun _ => answer) (k : ℕ) :
    let full := driveWalk g OrderedMap.empty payload (errorFree fun _ => answer)
    let checkpoint := completedAfter OrderedMap.empty (full.1.take k)
    let resumed := driveWalk g checkpoint payload (errorFree fun _ => answer)
    full.2 = .returned .completed ∧ resumed.2 = .returned .completed ∧
      (resumed.1.map fun p => p.1.nodeId).Nodup ∧
      (resumed.1.map Prod.fst).Perm ((full.1.drop k).map Prod.fst) ∧
      ∀ id, (completedAfter checkpoint resumed.1).get? id =
        (completedAfter OrderedMap.empty full.1).get? id := by
  have hw := (validateBeforeMerges_ok_iff.mp (validateGraphStructure_ok_iff.mp accepted).1).1
  let rule := executorRule g payload fun step => .output (answer step)
  obtain ⟨fired, d, hf, hset, hans, hrun⟩ := errorFree_completes hw payload readable_empty hb
  have hfr : Fired rule OrderedMap.empty fired d := fired_executorRule hf hans.of_function
  obtain ⟨m, hpre, hpost⟩ := hfr.at_take k
  have hcheck : completedAfter OrderedMap.empty (logged g payload d (fired.take k)) = m :=
    completedAfter_logged hpre d
  have hrm : Readable g m :=
    Fired.readable (hpre.mono fun _ _ _ => executorRule_walkRule) readable_empty
  obtain ⟨fired', d', hf', hset', hans', hrun'⟩ := errorFree_completes hw payload hrm hb
  have hfr' : Fired rule m fired' d' := fired_executorRule hf' hans'.of_function
  have hsame : ∀ id, d'.get? id = d.get? id :=
    hfr'.confluent executorRule_monotone executorRule_singleValued hpost hset'.saturated
      hset.saturated
  intro full checkpoint resumed
  have hck : checkpoint = m := by simp only [checkpoint, full, hrun, logged_take, hcheck]
  have hres : resumed = (logged g payload d' fired', .returned .completed) := by
    simp only [resumed, hck, hrun']
  rw [hres, hck]
  refine ⟨by simp [full, hrun], rfl, by simpa using hf'.keys_nodup.1, ?_, fun id => ?_⟩
  · have hperm := hfr'.perm_of_get?_eq hpost hsame
    simp only [full, hrun, logged_drop]
    simp only [logged, List.map_map]
    have hstep : (Prod.fst ∘ fun p : String × Value =>
        (stepOf g payload d' p.1, StepResult.output p.2)) =
        Prod.fst ∘ fun p : String × Value => (stepOf g payload d p.1, StepResult.output p.2) := by
      funext p
      exact stepOf_congr hsame p.1
    rw [hstep]
    exact hperm.map _
  · simp only [full, hrun]
    rw [completedAfter_logged hf', completedAfter_logged hf]
    exact hsame id

theorem resumed_walk_completes_reviewGraph :
    (driveWalk reviewGraph
      (completedAfter OrderedMap.empty ((driveWalk reviewGraph OrderedMap.empty .null
        (errorFree fun _ => takeBranch "yes")).1.take 2)) .null
      (errorFree fun _ => takeBranch "yes")).2 = .returned .completed :=
  (resumed_walk_completes acceptAll reviewGraph rfl .null (takeBranch "yes")
    takeBranch_matches 2).2.1

end Linea.Walker
