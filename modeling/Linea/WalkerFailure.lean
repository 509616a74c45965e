import Linea.WalkerResume

/-! Failures seen again after a resume. A branch output that selects no edge makes the walk
throw when it is fed back, but the scan of a resumed walk does not look at it: a checkpoint
that already holds such an output resumes into a walk that fails only if another node does. -/
namespace Linea.Walker
open ExceptLaws WorkflowGraph OrderedMap Validate FiringRule

variable {g : WorkflowGraph} {c d : CompletedMap} {payload : Value}
  {execute : StepToExecute → StepResult}

/-- The run did not end with status completed. -/
def Outcome.fails : Outcome → Bool
  | .returned .completed => false
  | .returned (.failed ..) => true
  | .threw _ => true
  | .unfinished => false

/-- A node the executor's answers lead to from `c` gives no acceptable output: its step reports
an error, or it is a branch node and the output selects none of its edges. -/
def FailureAhead (g : WorkflowGraph) (payload : Value) (execute : StepToExecute → StepResult)
    (c : CompletedMap) : Prop :=
  ∃ fired d node, Fired (executorRule g payload execute) c fired d ∧ node ∈ g.nodes ∧
    node.id ∉ d.keys ∧ ReadyIn g d node.id ∧
    ∀ output, execute (stepAt g payload d node) = .output output → ¬ Matches g node output

/-- A settled run passes by no failing node. -/
theorem no_failureAhead (hw : WellFormed g) {fired : List (String × Value)}
    (h : Fired (executorRule g payload execute) c fired d) (hset : Settled g d) :
    ¬ FailureAhead g payload execute c := by
  rintro ⟨fired', d', node, h', hmem, hnew, hready, hbad⟩
  have hin : Extends d' d := h'.absorbed executorRule_monotone executorRule_singleValued
    hset.saturated (h.supported executorRule_monotone) (Extends.refl c) h.extends
  have hkey := hset node.id (List.mem_map_of_mem hmem) (hready.mono hin)
  obtain ⟨v, hv⟩ := mem_keys_iff.mp hkey
  have hfired : (node.id, v) ∈ fired := by
    refine (h.get?.mp hv).resolve_left fun hc => ?_
    exact hnew (mem_keys_iff.mpr ⟨v, h'.extends _ _ hc⟩)
  obtain ⟨node', hn', _, hm, hx⟩ := h.justified executorRule_monotone _ hfired
  rw [findNode_of_mem hw.ids hmem] at hn'
  cases hn'
  rw [stepAt_stable hready hin] at hx
  exact hbad v hx hm

/-- A walk fails exactly when a failing node lies ahead of its start. -/
theorem driveWalk_fails_iff (hw : WellFormed g) (hr : Readable g c) :
    (driveWalk g c payload fun _ => execute).2.fails = true ↔
      FailureAhead g payload execute c := by
  obtain ⟨fired, d, last, hf, hans, hend, hlog⟩ := driveWalk_spec hw payload (fun _ => execute) hr
  have hfr := fired_executorRule hf hans.of_function
  generalize driveWalk g c payload (fun _ => execute) = run at hend hlog
  obtain ⟨log, outcome⟩ := run
  cases hend with
  | completed hset => simpa [Outcome.fails] using no_failureAhead hw hfr hset
  | @failed node message hmem hnew hready answered =>
    refine iff_of_true rfl ⟨fired, d, node, hfr, hmem, hnew, hready, fun output ho => ?_⟩
    rw [answered] at ho
    cases ho
  | @threw node output _ hmem hnew hready answered unmatched _ =>
    refine iff_of_true rfl ⟨fired, d, node, hfr, hmem, hnew, hready, fun o ho => ?_⟩
    rw [answered] at ho
    cases ho
    exact unmatched

/-- If the uninterrupted walk throws because a branch output selects no edge, a walk resumed
from one of its checkpoints fails exactly when the checkpoint does not hold that output yet, or
another failing node lies ahead of it. -/
theorem resumed_walk_fails_iff (schemas : ConfigSchemas) (g : WorkflowGraph)
    (accepted : validateGraphStructure schemas g = .ok ()) (payload : Value)
    (execute : StepToExecute → StepResult) (branchId : String) (branch : Value)
    (unmatched : (driveWalk g OrderedMap.empty payload fun _ => execute).2 =
      .threw (.unmatchedBranch branchId branch)) :
    let log := (driveWalk g OrderedMap.empty payload fun _ => execute).1
    ∀ k ≤ log.length,
      ((driveWalk g (completedAfter OrderedMap.empty (log.take k)) payload
          fun _ => execute).2.fails = true ↔
        k < log.length ∨
          FailureAhead g payload execute (completedAfter OrderedMap.empty log)) := by
  have hw := (validateBeforeMerges_ok_iff.mp (validateGraphStructure_ok_iff.mp accepted).1).1
  obtain ⟨fired, d, last, hf, hans, hend, hlog⟩ :=
    driveWalk_spec hw payload (fun _ => execute) readable_empty
  have hfr := fired_executorRule hf hans.of_function
  generalize driveWalk g OrderedMap.empty payload (fun _ => execute) = run at *
  obtain ⟨log, outcome⟩ := run
  cases unmatched
  cases hend with
  | @threw node output _ hmem hnew hready answered hno thrown =>
    replace hlog : log = logged g payload d fired ++
        [(stepAt g payload d node, .output output)] := by simpa using hlog
    have hprop : output.prop "branch" = some branch := by
      rcases nextNodeIds_unmatched hno with ⟨_, h⟩ | ⟨b, hb, h⟩
      · simp [h] at thrown
      · rw [h] at thrown
        cases thrown
        exact hb
    have hfind := findNode_of_mem hw.ids hmem
    have hrd : Readable g d := Fired.readable hf readable_empty
    have hall : completedAfter OrderedMap.empty log = d.set node.id output := by
      have hlast : completedAfter _ (logged g payload d _) = d := completedAfter_logged hf d
      simp only [completedAfter] at hlast ⊢
      simp [hlog, List.foldl_append, hlast, stepAt]
    have hlen : log.length = fired.length + 1 := by simp [hlog, logged]
    intro log' k (hk : k ≤ log.length)
    rcases Nat.lt_or_ge k log.length with hlt | hge
    · obtain ⟨m, hpre, hpost⟩ := hfr.at_take k
      have htake : log.take k = logged g payload d (fired.take k) := by
        rw [← logged_take, hlog, List.take_append_of_le_length]
        simp [logged]
        omega
      have hcheck : completedAfter OrderedMap.empty (log.take k) = m := by
        rw [htake, completedAfter_logged hpre]
      have hrm : Readable g m :=
        Fired.readable (hpre.mono fun _ _ _ => executorRule_walkRule) readable_empty
      refine iff_of_true ?_ (Or.inl hlt)
      rw [hcheck, driveWalk_fails_iff hw hrm]
      refine ⟨_, d, node, hpost, hmem, hnew, hready, fun o ho => ?_⟩
      rw [answered] at ho
      cases ho
      exact hno
    · obtain rfl : k = log.length := le_antisymm hk hge
      have hrs : Readable g (d.set node.id output) :=
        hrd.set_of_prop hfind fun _ _ => ⟨branch, hprop⟩
      simp only [log', List.take_length, lt_irrefl, false_or, hall]
      exact driveWalk_fails_iff hw hrs

/-- A branch node with one outgoing edge. -/
def gateGraph : WorkflowGraph where
  entryNodeId := "start"
  nodes := [⟨"start", .start, []⟩, ⟨"decide", .branch, []⟩, ⟨"accept", .endNode, []⟩]
  edges := [⟨"start", "decide", none⟩, ⟨"decide", "accept", some "yes"⟩]

def answerNo (step : StepToExecute) : StepResult := .output (takeBranch "no" step)

theorem resumed_walk_fails_iff_gateGraph :
    (driveWalk gateGraph (completedAfter OrderedMap.empty
      ((driveWalk gateGraph OrderedMap.empty .null fun _ => answerNo).1.take 1)) .null
        fun _ => answerNo).2.fails = true :=
  (resumed_walk_fails_iff acceptAll gateGraph rfl .null answerNo "decide" (.string "no") rfl 1
    (by decide)).mpr (Or.inl (by decide))

/-- The checkpoint that holds the unmatched output resumes into a completed walk. -/
theorem resumed_walk_hides_unmatched_branch :
    validateGraphStructure acceptAll gateGraph = .ok () ∧
      (driveWalk gateGraph OrderedMap.empty .null fun _ => answerNo).2 =
        .threw (.unmatchedBranch "decide" (.string "no")) ∧
      (driveWalk gateGraph (completedAfter OrderedMap.empty
        (driveWalk gateGraph OrderedMap.empty .null fun _ => answerNo).1) .null
          fun _ => answerNo).2 = .returned .completed :=
  ⟨rfl, rfl, rfl⟩

end Linea.Walker
