import Linea.ModelNodes
import Mathlib.Algebra.Order.Monoid.Prod

/-! The step of a node that calls a model provider: the retries of its handler within one worker
attempt, what is recorded on the step and what is added to the totals of the run. -/
namespace Linea.Spending
open Metering

/-- A handler with the tokens of its progress row. `reports` says of an attempt that it does not end
where the handler throws an error without the tokens that it has or has just been charged. -/
structure Handler (A P : Type) where
  execute : A → Option P → Execution P
  amount : Option P → TokenUsage
  model : Option String
  reports : A → Option P → Prop
  accounts : ∀ a saved,
    Accounts amount told id (reports a saved) (amount saved) 0 (execute a saved)
  priced : ∀ a saved error, (execute a saved).result = .error error →
    (getErrorTokenUsage error).isSome → model.isSome

section Handlers

variable {V : Type}

def aiHandler (model : String) (config : AiConfig) : Handler (AiAttempt V) (AiProgress V) where
  execute := AiNode.execute config
  amount := AiProgress.amount
  model := some model
  reports a saved := a.answered config saved
  accounts := AiNode.execute_accounts config
  priced _ _ _ _ _ := rfl

def extractHandler (read : Readers V) (model : String) (sourcePath : Option String) :
    Handler (ExtractAttempt V) Unit where
  execute := ExtractNode.execute read sourcePath
  amount := noAmount
  model := some model
  reports _ _ := True
  accounts := ExtractNode.execute_accounts read sourcePath
  priced _ _ _ _ _ := rfl

lemma metricLoop_judged (read : Readers V) (sample : EvaluationSample V)
    {metrics : List EvaluationMetric} {turns : ℕ → JudgeTurn V} {resolved : Bool}
    {progress : EvaluatorProgress} {saved : Option EvaluatorProgress} {error : NodeError}
    (h : (metricLoop read sample metrics turns resolved progress saved).result = .error error)
    (hsome : (getErrorTokenUsage error).isSome) : ∃ metric, .gEval metric ∈ metrics := by
  induction metrics generalizing turns resolved progress saved with
  | nil => cases h
  | cons metric metrics ih =>
    cases metric with
    | gEval metric => exact ⟨metric,.head _⟩
    | rule name metric =>
      unfold metricLoop at h
      split at h
      · cases h
        cases hsome
      · obtain ⟨judged,hmem⟩ := ih h
        exact ⟨judged,.tail _ hmem⟩

def evaluatorHandler (read : Readers V) (config : EvaluatorConfig) :
    Handler (EvaluatorAttempt V) EvaluatorProgress where
  execute := EvaluatorNode.execute read config
  amount := EvaluatorProgress.amount
  model := config.model
  reports := EvaluatorAttempt.bound read config
  accounts := EvaluatorNode.execute_accounts read config
  priced a saved error h hsome := by
    unfold EvaluatorNode.execute at h
    split at h
    · cases h
      cases hsome
    split at h
    · cases h
      cases hsome
    · obtain ⟨metric,hmem⟩ := metricLoop_judged read _ h hsome
      exact config.judged metric hmem

end Handlers

section Retries

/-- The schema allows one to five attempts. -/
structure RetryPolicy where
  maxAttempts : ℕ
  bounds : 1 ≤ maxAttempts ∧ maxAttempts ≤ 5

/-- One pass of the retry loop: the attempt, whether the lease signal has been aborted when it fails,
and whether the lease is held before and after the back-off. -/
structure Pass (A : Type) where
  attempt : A
  aborted : Bool
  ownsLease : Bool
  stillOwnsLease : Bool

variable {A P : Type}

/-- What becomes of a failure while attempts are left: `ok` is a further attempt. -/
def afterFailure (policy : Option RetryPolicy) (pass : Pass A) (error : NodeError) :
    Except NodeError Unit :=
  if pass.aborted then .error error
  else if error.isNonRetryable then .error error
  else if !pass.ownsLease then .error .leaseLost
  else if policy.isSome && !pass.stillOwnsLease then .error .leaseLost
  else .ok ()

/-- The loop, with the attempts that are left after the one numbered `made`. -/
def attempts (handler : Handler A P) (policy : Option RetryPolicy) (passes : ℕ → Pass A) :
    ℕ → ℕ → Option P →
      Ending (Option P) TokenUsage (ℕ × Except NodeError TokenUsage)
  | 0, made, saved => (handler.execute (passes made).attempt saved).map ((made,·))
  | left + 1, made, saved =>
    let e := handler.execute (passes made).attempt saved
    match e.result with
    | .ok tokens => ⟨e.progress,e.journal,made,.ok tokens⟩
    | .error error =>
      match afterFailure policy (passes made) error with
      | .error error => ⟨e.progress,e.journal,made,.error error⟩
      | .ok () => (attempts handler policy passes left (made + 1) e.progress).after e.journal

/-- The step row, less its input, output, times and cost. -/
structure NodeStep where
  error : Option String
  tokens : Option TokenUsage
  retryAttempts : Option ℕ
  model : Option String
deriving DecidableEq

/-- `step` is `none` when `LeaseLostError` leaves the run. -/
structure NodeRun (P : Type) where
  totals : TokenUsage
  step : Option NodeStep
  progress : Option P
  journal : List (Entry TokenUsage)

def maxAttempts (policy : Option RetryPolicy) : ℕ :=
  (policy.map RetryPolicy.maxAttempts).getD 1

/-- The attempt that decides the step reports its tokens, unless there are none. -/
def Told (handler : Handler A P) (a : A) (saved : Option P) : Prop :=
  handler.reports a saved ∨ handler.amount saved + spent (handler.execute a saved).journal = 0

/-- No attempt that is retried has spent tokens since its last save, and the last attempt reports
what it knows of. -/
def Billed (handler : Handler A P) (policy : Option RetryPolicy) (passes : ℕ → Pass A) :
    ℕ → ℕ → Option P → Prop
  | 0, made, saved => Told handler (passes made).attempt saved
  | left + 1, made, saved =>
    let e := handler.execute (passes made).attempt saved
    match e.result with
    | .ok _ => Told handler (passes made).attempt saved
    | .error error =>
      match afterFailure policy (passes made) error with
      | .error _ => Told handler (passes made).attempt saved
      | .ok () => unsaved 0 e.journal = 0 ∧ Billed handler policy passes left (made + 1) e.progress

lemma afterFailure_error {policy : Option RetryPolicy} {pass : Pass A} {error error' : NodeError}
    (h : afterFailure policy pass error = .error error') : error' = error ∨ error' = .leaseLost := by
  unfold afterFailure at h
  split at h
  · exact .inl (Except.error.inj h).symm
  split at h
  · exact .inl (Except.error.inj h).symm
  split at h
  · exact .inr (Except.error.inj h).symm
  split at h
  · exact .inr (Except.error.inj h).symm
  · cases h

lemma afterFailure_ok {policy : Option RetryPolicy} {pass : Pass A} {error : NodeError}
    (h : afterFailure policy pass error = .ok ()) : error.isNonRetryable = false := by
  unfold afterFailure at h
  split at h
  · cases h
  split at h
  · cases h
  · rename_i hretryable
    simpa using hretryable

/-- An attempt that is not the last one allowed either ends the loop, with its own result or a lost
lease, or is followed by another. -/
lemma attempts_succ (handler : Handler A P) (policy : Option RetryPolicy) (passes : ℕ → Pass A)
    (left made : ℕ) (saved : Option P) {e : Execution P}
    (he : handler.execute (passes made).attempt saved = e) :
    (∃ result, attempts handler policy passes (left + 1) made saved =
        ⟨e.progress,e.journal,made,result⟩ ∧ (result = e.result ∨ result = .error .leaseLost) ∧
      (Billed handler policy passes (left + 1) made saved ↔
        Told handler (passes made).attempt saved)) ∨
    (∃ error, e.result = .error error ∧ error.isNonRetryable = false) ∧
      attempts handler policy passes (left + 1) made saved =
        (attempts handler policy passes left (made + 1) e.progress).after e.journal ∧
      (Billed handler policy passes (left + 1) made saved ↔
        unsaved 0 e.journal = 0 ∧ Billed handler policy passes left (made + 1) e.progress) := by
  simp only [attempts,Billed,he]
  cases hresult : e.result with
  | ok tokens => exact .inl ⟨_,rfl,.inl rfl,Iff.rfl⟩
  | error error =>
    cases hafter : afterFailure policy (passes made) error with
    | error error' =>
      simp only [hafter]
      refine .inl ⟨_,rfl,?_,trivial⟩
      obtain rfl | rfl := afterFailure_error hafter
      · exact .inl rfl
      · exact .inr rfl
    | ok =>
      simp only [hafter]
      exact .inr ⟨⟨error,rfl,afterFailure_ok hafter⟩,trivial,trivial⟩

/-- The step and the totals of the run have the tokens saved before and those of every completion. -/
def Recorded (handler : Handler A P) (totals : TokenUsage) (saved : Option P) (run : NodeRun P)
    (step : NodeStep) : Prop :=
  step.tokens.getD 0 = handler.amount saved + spent run.journal ∧
    run.totals = totals + (handler.amount saved + spent run.journal)

/-- A completion of the extract handler ends the retries, so that no attempt loses tokens. -/
theorem extract_billed {V : Type} (read : Readers V) (model : String) (sourcePath : Option String)
    (policy : Option RetryPolicy) (passes : ℕ → Pass (ExtractAttempt V)) (left made : ℕ)
    (saved : Option Unit) :
    Billed (extractHandler read model sourcePath) policy passes left made saved := by
  induction left generalizing made saved with
  | zero => exact .inl trivial
  | succ left ih =>
    obtain ⟨result,-,-,hbilled⟩ | ⟨⟨error,herror,hretryable⟩,-,hbilled⟩ :=
      attempts_succ (extractHandler read model sourcePath) policy passes left made saved rfl
    · exact hbilled.mpr (.inl trivial)
    · refine hbilled.mpr ⟨?_,ih _ _⟩
      change (ExtractNode.execute read sourcePath (passes made).attempt saved).result = _ at herror
      change unsaved 0 (ExtractNode.execute read sourcePath (passes made).attempt saved).journal = 0
      obtain ⟨_,heq,-⟩ | ⟨completion,heq⟩ :=
        ExtractNode.execute_cases read sourcePath (passes made).attempt saved
      · rw [heq]
        rfl
      · rw [heq] at herror
        rw [extraction_nonRetryable herror] at hretryable
        cases hretryable

end Retries

section Nodes

inductive ModelNode
  | ai (model : String) (config : AiConfig)
  | extract (model : String) (sourcePath : Option String)
  | evaluator (config : EvaluatorConfig)

namespace ModelNode

abbrev Attempt (V : Type) : ModelNode → Type
  | .ai _ _ => AiAttempt V
  | .extract _ _ => ExtractAttempt V
  | .evaluator _ => EvaluatorAttempt V

abbrev Progress (V : Type) : ModelNode → Type
  | .ai _ _ => AiProgress V
  | .extract _ _ => Unit
  | .evaluator _ => EvaluatorProgress

def handler {V : Type} (read : Readers V) :
    (node : ModelNode) → Handler (node.Attempt V) (node.Progress V)
  | .ai model config => aiHandler model config
  | .extract model sourcePath => extractHandler read model sourcePath
  | .evaluator config => evaluatorHandler read config

end ModelNode

variable {V : Type}

def agent (maxIterations : ℕ) : ModelNode :=
  .ai "gpt-4o" ⟨["search"],some maxIterations⟩

end Nodes

end Linea.Spending
