import Linea.Graph
import Linea.Runs

/-! Claims on replay steps. A worker claims a step by inserting its row, or by moving the `startedAt`
of a stale claim; while the node runs it renews the claim the same way, and completes the step where
`startedAt` is its own. A sweep reads the stale claims and then completes them one by one as
abandoned. Every statement is a transaction of its own; the clock may repeat or go back. -/
namespace Linea.ReplayClaims

inductive StepStatus
  | running
  | succeeded
  | failed
  deriving DecidableEq, Repr

structure StepError where
  message : String
  stack : Option String
  deriving DecidableEq, Repr

/-- The columns of a replay step that a claim or a completion reads or writes. -/
structure ExecutionStep where
  startedAt : ℤ
  status : StepStatus
  attempt : ℕ
  output : Option (List (String × Value))
  error : Option StepError
  costMicros : ℕ
  tokensInput : ℕ
  tokensOutput : ℕ
  endedAt : Option ℤ
  attributes : Option (List (String × Value))

structure CompleteReplayStepInput where
  succeeded : Bool
  output : Option (List (String × Value))
  error : Option StepError
  costMicros : ℕ
  tokensInput : ℕ
  tokensOutput : ℕ
  endedAt : ℤ
  attributes : Option (List (String × Value))

def CompleteReplayStepInput.status (input : CompleteReplayStepInput) : StepStatus :=
  if input.succeeded then .succeeded else .failed

def replayClaimStaleMs : ℤ := 10 * 60 * 1000

/-- The placeholder that `claimReplayStep` inserts. -/
def placeholder (startedAt : ℤ) : ExecutionStep :=
  ⟨startedAt, .running, 1, none, none, 0, 0, 0, none, none⟩

/-- The token after a compare-and-swap. -/
def nextStartedAt (now previousStartedAt : ℤ) : ℤ := max now (previousStartedAt + 1)

/-- The row matches the compare-and-swap. -/
def matchesClaim (previousStartedAt : ℤ) (step : ExecutionStep) : Bool :=
  step.status = .running && step.startedAt = previousStartedAt

def casClaimStartedAt (now previousStartedAt : ℤ) (bumpAttempt : Bool) (step : ExecutionStep) :
    ExecutionStep :=
  { step with
    startedAt := nextStartedAt now previousStartedAt
    attempt := if bumpAttempt then step.attempt + 1 else step.attempt }

/-- A field that the input leaves undefined keeps its column. -/
def completeReplayStep (input : CompleteReplayStepInput) (step : ExecutionStep) : ExecutionStep :=
  { step with
    status := input.status
    output := input.output.or step.output
    error := input.error.or step.error
    costMicros := input.costMicros
    tokensInput := input.tokensInput
    tokensOutput := input.tokensOutput
    endedAt := some input.endedAt
    attributes := input.attributes.or step.attributes }

/-- What the sweep completes a claim with. -/
def abandoned (now : ℤ) : CompleteReplayStepInput :=
  ⟨false, none, some ⟨"Replay abandoned: no worker finished it before the claim went stale.", none⟩,
    0, 0, 0, now, none⟩

/-! ## Workers and sweeps -/

/-- One delivery of a replay job. -/
inductive Worker
  | idle
  | conflicted (id : String)
  | reclaiming (id : String) (seen : ℤ)
  | holding (id : String) (claimToken : ℤ)
  | checking (id : String) (claimToken : ℤ)
  | ended
  deriving DecidableEq

/-- What has happened to a step: the worker of the last claim, the tokens from the newest to the
first, the number of takeovers, and the result that the holder has stored. -/
structure History where
  owner : ℕ
  tokens : List ℤ
  takeovers : ℕ
  stored : Option CompleteReplayStepInput

structure State where
  rows : String → Option ExecutionStep
  histories : String → Option History
  workers : ℕ → Worker
  sweeps : ℕ → List (String × ℤ)

inductive Act
  | insert (worker : ℕ) (id : String) (startedAt : ℤ)
  | look (worker : ℕ) (now : ℤ)
  | reclaim (worker : ℕ) (now : ℤ)
  | renew (worker : ℕ) (now : ℤ)
  | check (worker : ℕ)
  | complete (worker : ℕ) (input : CompleteReplayStepInput)
  | crash (worker : ℕ)
  | findStaleReplayClaims (sweep : ℕ) (ids : List String) (olderThan : ℤ)
  | sweepNext (sweep : ℕ) (now : ℤ)

/-- A claim for the sweep: running, and older than the given date. -/
def staleClaim (olderThan : ℤ) (step : ExecutionStep) : Bool :=
  step.status = .running && step.startedAt < olderThan

namespace State

def become (s : State) (worker : ℕ) (phase : Worker) : State :=
  { s with workers := Function.update s.workers worker phase }

/-- The row and the history of a step after a statement on it. -/
def put (s : State) (id : String) (step : ExecutionStep) (history : History) : State :=
  { s with
    rows := Function.update s.rows id (some step)
    histories := Function.update s.histories id (some history) }

def claimed (history : History) (worker : ℕ) (token : ℤ) : History :=
  { history with
    owner := worker
    tokens := token :: history.tokens
    takeovers := history.takeovers + 1 }

/-- `none` when the act is not possible. -/
def step (s : State) : Act → Option State
  | .insert worker id startedAt =>
    match s.workers worker with
    | .idle =>
      match s.rows id with
      | none => some ((s.put id (placeholder startedAt) ⟨worker, [startedAt], 0, none⟩).become worker
          (.holding id startedAt))
      | some _ => some (s.become worker (.conflicted id))
    | _ => none
  | .look worker now =>
    match s.workers worker with
    | .conflicted id =>
      match s.rows id with
      | none => some (s.become worker .ended)
      | some row =>
        if row.status = .running ∧ replayClaimStaleMs < now - row.startedAt then
          some (s.become worker (.reclaiming id row.startedAt))
        else some (s.become worker .ended)
    | _ => none
  | .reclaim worker now =>
    match s.workers worker with
    | .reclaiming id seen =>
      match s.rows id, s.histories id with
      | some row, some history =>
        if matchesClaim seen row then
          some ((s.put id (casClaimStartedAt now seen true row)
            (claimed history worker (nextStartedAt now seen))).become worker
              (.holding id (nextStartedAt now seen)))
        else some (s.become worker .ended)
      | _, _ => some (s.become worker .ended)
    | _ => none
  | .renew worker now =>
    match s.workers worker with
    | .holding id claimToken =>
      match s.rows id, s.histories id with
      | some row, some history =>
        if matchesClaim claimToken row then
          some ((s.put id (casClaimStartedAt now claimToken false row)
            { history with tokens := nextStartedAt now claimToken :: history.tokens }).become worker
              (.holding id (nextStartedAt now claimToken)))
        else some (s.become worker (.checking id claimToken))
      | _, _ => some (s.become worker (.checking id claimToken))
    | _ => none
  -- the handler is aborted or goes on; either way the token stays what it was
  | .check worker =>
    match s.workers worker with
    | .checking id claimToken => some (s.become worker (.holding id claimToken))
    | _ => none
  | .complete worker input =>
    match s.workers worker with
    | .holding id claimToken =>
      match s.rows id, s.histories id with
      | some row, some history =>
        if row.startedAt = claimToken then
          some ((s.put id (completeReplayStep input row)
            { history with stored := some input }).become worker .ended)
        else some (s.become worker .ended)
      | _, _ => some (s.become worker .ended)
    | _ => none
  | .crash worker => some (s.become worker .ended)
  | .findStaleReplayClaims sweep ids olderThan =>
    if s.sweeps sweep = [] ∧ ids.all (fun id => (s.rows id).any (staleClaim olderThan)) = true then
      some { s with
        sweeps := Function.update s.sweeps sweep
          (ids.filterMap fun id => (s.rows id).map fun row => (id, row.startedAt)) }
    else none
  | .sweepNext sweep now =>
    match s.sweeps sweep with
    | [] => none
    | (id, claimToken) :: rest =>
      match s.rows id, s.histories id with
      | some row, some history =>
        if row.startedAt = claimToken then
          some { s.put id (completeReplayStep (abandoned now) row) history with
            sweeps := Function.update s.sweeps sweep rest }
        else some { s with sweeps := Function.update s.sweeps sweep rest }
      | _, _ => some { s with sweeps := Function.update s.sweeps sweep rest }

end State

/-- The sweep's write does not come after the holder's own result, and a result without an error does
not come after the sweep's failure. -/
def Timely (s : State) : Act → Prop
  | .sweepNext sweep _ => ∀ id claimToken rest row history, s.sweeps sweep = (id, claimToken) :: rest →
      s.rows id = some row → s.histories id = some history → row.startedAt = claimToken →
      history.stored = none
  | .complete worker input => ∀ id claimToken row, s.workers worker = .holding id claimToken →
      s.rows id = some row → row.startedAt = claimToken → row.error.isSome → input.error.isSome
  | _ => True

/-- The row shows a result in full. -/
def Shows (step : ExecutionStep) (input : CompleteReplayStepInput) : Prop :=
  step.status = input.status ∧ step.output = input.output ∧ step.error = input.error ∧
    step.costMicros = input.costMicros ∧ step.tokensInput = input.tokensInput ∧
    step.tokensOutput = input.tokensOutput ∧ step.endedAt = some input.endedAt ∧
    step.attributes = input.attributes

/-! ## One step -/

/-- What is known of a step and its history. -/
structure Sound (step : ExecutionStep) (history : History) : Prop where
  newest : ∃ older, history.tokens = step.startedAt :: older
  increasing : history.tokens.Pairwise (· > ·)
  attempt : step.attempt = 1 + history.takeovers
  running : step.status = .running → history.stored = none ∧ step.error = none
  blank : history.stored = none → step.output = none ∧ step.attributes = none
  shows_stored : ∀ input, history.stored = some input → Shows step input

theorem Sound.lt_next {step : ExecutionStep} {history : History} {now token : ℤ}
    (h : Sound step history) (htoken : token ∈ history.tokens) :
    token < nextStartedAt now step.startedAt := by
  obtain ⟨older, hnewest⟩ := h.newest
  have hincreasing := h.increasing
  rw [hnewest] at htoken hincreasing
  have hle : token ≤ step.startedAt := by
    rcases List.mem_cons.mp htoken with rfl | hold
    · exact le_rfl
    · exact ((List.pairwise_cons.mp hincreasing).1 token hold).le
  exact (Int.lt_add_one_of_le hle).trans_le (le_max_right now _)

/-- A compare-and-swap adds a token that is larger than all before. -/
theorem Sound.cas {step : ExecutionStep} {history history' : History} {now seen : ℤ}
    (h : Sound step history) (bump : Bool) (hmatch : matchesClaim seen step = true)
    (htokens : history'.tokens = nextStartedAt now seen :: history.tokens)
    (htakeovers : history'.takeovers = if bump then history.takeovers + 1 else history.takeovers)
    (hstored : history'.stored = history.stored) :
    Sound (casClaimStartedAt now seen bump step) history' := by
  simp only [matchesClaim, Bool.and_eq_true, decide_eq_true_eq] at hmatch
  obtain ⟨hrunning, rfl⟩ := hmatch
  obtain ⟨hnone, herror⟩ := h.running hrunning
  refine ⟨⟨history.tokens, htokens⟩, ?_, ?_, fun _ => ⟨hstored.trans hnone, herror⟩,
    fun _ => h.blank hnone, ?_⟩
  · rw [htokens]
    exact List.pairwise_cons.mpr ⟨fun token htoken => h.lt_next htoken, h.increasing⟩
  · have hattempt := h.attempt
    rw [htakeovers]
    cases bump with
    | false => simpa [casClaimStartedAt] using hattempt
    | true =>
      simp only [casClaimStartedAt, if_true]
      omega
  · intro input hinput
    rw [hstored, hnone] at hinput
    cases hinput

/-- The first result of a holder: the row shows it in full. -/
theorem Sound.complete {step : ExecutionStep} {history : History} {input : CompleteReplayStepInput}
    (h : Sound step history) (hstored : history.stored = none)
    (herror : step.error.isSome → input.error.isSome) :
    Sound (completeReplayStep input step) { history with stored := some input } := by
  obtain ⟨houtput, hattributes⟩ := h.blank hstored
  have hshown : input.error.or step.error = input.error := by
    cases hinput : input.error with
    | some error => rfl
    | none =>
      cases hstep : step.error with
      | none => rfl
      | some error =>
        rw [hstep, hinput] at herror
        exact absurd (herror rfl) (by simp)
  refine ⟨h.newest, h.increasing, h.attempt, fun hrunning => ?_, nofun, fun other hother => ?_⟩
  · simp only [completeReplayStep, CompleteReplayStepInput.status] at hrunning
    split at hrunning
    · cases hrunning
    · cases hrunning
  · cases hother
    simp [Shows, completeReplayStep, houtput, hattributes, hshown]

/-- The sweep's failure. -/
theorem Sound.sweep {step : ExecutionStep} {history : History} {now : ℤ} (h : Sound step history)
    (hstored : history.stored = none) : Sound (completeReplayStep (abandoned now) step) history := by
  obtain ⟨houtput, hattributes⟩ := h.blank hstored
  refine ⟨h.newest, h.increasing, h.attempt, fun hrunning => ?_, fun _ => ?_, fun other hother => ?_⟩
  · cases hrunning
  · exact ⟨houtput, hattributes⟩
  · rw [hstored] at hother
    cases hother

/-! ## All steps -/

/-- The worker has claimed the step with this token, as far as it knows. -/
def Worker.Holds (worker : Worker) (id : String) (claimToken : ℤ) : Prop :=
  worker = .holding id claimToken ∨ worker = .checking id claimToken

/-- The owner has the current token and no result yet; everybody else's token is an older one. -/
def Fenced (worker : ℕ) (claimToken : ℤ) (step : ExecutionStep) (history : History) : Prop :=
  (history.owner = worker → claimToken = step.startedAt ∧ history.stored = none) ∧
    (history.owner ≠ worker → claimToken < step.startedAt)

structure Inv (s : State) : Prop where
  sound : ∀ id row, s.rows id = some row → ∃ history, s.histories id = some history ∧ Sound row history
  fenced : ∀ w id claimToken, (s.workers w).Holds id claimToken →
    ∃ row history, s.rows id = some row ∧ s.histories id = some history ∧
      Fenced w claimToken row history

/-- Rows and histories stay, and a worker at most lets go of its claim. -/
theorem Inv.quiet {s s' : State} (h : Inv s) (hrows : s'.rows = s.rows)
    (hhistories : s'.histories = s.histories)
    (hworkers : ∀ w id claimToken, (s'.workers w).Holds id claimToken →
      (s.workers w).Holds id claimToken) : Inv s' := by
  refine ⟨?_, fun w id claimToken hholds => ?_⟩
  · rw [hrows, hhistories]
    exact h.sound
  · rw [hrows, hhistories]
    exact h.fenced w id claimToken (hworkers w id claimToken hholds)

@[simp] theorem become_workers_self (s : State) (w : ℕ) (phase : Worker) :
    (s.become w phase).workers w = phase := Function.update_self ..

theorem become_workers_of_ne (s : State) {w v : ℕ} (phase : Worker) (h : v ≠ w) :
    (s.become w phase).workers v = s.workers v := Function.update_of_ne h ..

theorem Inv.become {s : State} {w : ℕ} {phase : Worker} (h : Inv s)
    (hphase : ∀ id claimToken, phase.Holds id claimToken → (s.workers w).Holds id claimToken) :
    Inv (s.become w phase) := by
  refine h.quiet rfl rfl fun v id claimToken hholds => ?_
  by_cases hv : v = w
  · subst hv
    rw [become_workers_self] at hholds
    exact hphase id claimToken hholds
  · rw [become_workers_of_ne _ _ hv] at hholds
    exact hholds

theorem not_holds_ended {id : String} {claimToken : ℤ} : ¬Worker.ended.Holds id claimToken := by
  rintro (h | h)
  · cases h
  · cases h

/-- A statement on one step. -/
theorem Inv.put {s s' : State} {id : String} {row : ExecutionStep} {history : History} (h : Inv s)
    (hrows : s'.rows = Function.update s.rows id (some row))
    (hhistories : s'.histories = Function.update s.histories id (some history))
    (hsound : Sound row history)
    (hworkers : ∀ w id' claimToken, (s'.workers w).Holds id' claimToken →
      id' = id ∧ Fenced w claimToken row history ∨
        id' ≠ id ∧ (s.workers w).Holds id' claimToken) : Inv s' := by
  refine ⟨fun id' row' hrow' => ?_, fun w id' claimToken hholds => ?_⟩
  · rw [hrows] at hrow'
    rw [hhistories]
    by_cases hid : id' = id
    · subst hid
      rw [Function.update_self] at hrow'
      cases hrow'
      exact ⟨history, Function.update_self .., hsound⟩
    · rw [Function.update_of_ne hid] at hrow'
      rw [Function.update_of_ne hid]
      exact h.sound id' row' hrow'
  · rw [hrows, hhistories]
    rcases hworkers w id' claimToken hholds with ⟨rfl, hfenced⟩ | ⟨hid, hholds⟩
    · exact ⟨row, history, Function.update_self .., Function.update_self .., hfenced⟩
    · rw [Function.update_of_ne hid, Function.update_of_ne hid]
      exact h.fenced w id' claimToken hholds

/-- A statement on one step by a worker, given what it means for the claims on the step. -/
theorem Inv.put_become {s : State} {w : ℕ} {id : String} {row : ExecutionStep} {history : History}
    {phase : Worker} (h : Inv s) (hsound : Sound row history)
    (hphase : ∀ id' claimToken, phase.Holds id' claimToken →
      id' = id ∧ Fenced w claimToken row history)
    (hothers : ∀ v claimToken, v ≠ w → (s.workers v).Holds id claimToken →
      Fenced v claimToken row history) :
    Inv ((s.put id row history).become w phase) := by
  refine h.put rfl rfl hsound fun v id' claimToken hholds => ?_
  by_cases hv : v = w
  · subst hv
    rw [become_workers_self] at hholds
    exact .inl (hphase id' claimToken hholds)
  · rw [become_workers_of_ne _ _ hv] at hholds
    by_cases hid : id' = id
    · subst hid
      exact .inl ⟨rfl, hothers v claimToken hv hholds⟩
    · exact .inr ⟨hid, hholds⟩

theorem holds_holding {id id' : String} {token claimToken : ℤ}
    (h : (Worker.holding id token).Holds id' claimToken) : id' = id ∧ claimToken = token := by
  rcases h with h | h
  · cases h
    exact ⟨rfl, rfl⟩
  · cases h

/-- A token that is still the row's is the owner's. -/
theorem Fenced.owner {w : ℕ} {claimToken : ℤ} {step : ExecutionStep} {history : History}
    (h : Fenced w claimToken step history) (heq : step.startedAt = claimToken) :
    history.owner = w := by
  by_contra hne
  have hlt := h.2 hne
  omega

theorem Fenced.le {w : ℕ} {claimToken : ℤ} {step : ExecutionStep} {history : History}
    (h : Fenced w claimToken step history) : claimToken ≤ step.startedAt := by
  by_cases howner : history.owner = w
  · exact (h.1 howner).1.le
  · exact (h.2 howner).le

theorem Inv.fenced_of_some {s : State} {w : ℕ} {id : String} {claimToken : ℤ} {row : ExecutionStep}
    {history : History} (h : Inv s) (hholds : (s.workers w).Holds id claimToken)
    (hrow : s.rows id = some row) (hhistory : s.histories id = some history) :
    Fenced w claimToken row history := by
  obtain ⟨row', history', hrow', hhistory', hfenced⟩ := h.fenced w id claimToken hholds
  rw [hrow] at hrow'
  rw [hhistory] at hhistory'
  cases hrow'
  cases hhistory'
  exact hfenced

theorem Inv.sound_of_some {s : State} {id : String} {row : ExecutionStep} {history : History}
    (h : Inv s) (hrow : s.rows id = some row) (hhistory : s.histories id = some history) :
    Sound row history := by
  obtain ⟨history', hhistory', hsound⟩ := h.sound id row hrow
  rw [hhistory] at hhistory'
  cases hhistory'
  exact hsound

theorem Inv.insert {s s' : State} {w : ℕ} {id : String} {startedAt : ℤ} (h : Inv s)
    (hstep : s.step (.insert w id startedAt) = some s') : Inv s' := by
  simp only [State.step] at hstep
  split at hstep
  · split at hstep
    · rename_i hnone
      cases hstep
      refine h.put_become ⟨⟨[], rfl⟩, List.pairwise_singleton _ _, rfl, fun _ => ⟨rfl, rfl⟩,
        fun _ => ⟨rfl, rfl⟩, nofun⟩ (fun id' claimToken hholds => ?_)
        fun v claimToken _ hholds => ?_
      · obtain ⟨rfl, rfl⟩ := holds_holding hholds
        exact ⟨rfl, fun _ => ⟨rfl, rfl⟩, fun hne => absurd rfl hne⟩
      · obtain ⟨row, _, hrow, _⟩ := h.fenced v id claimToken hholds
        rw [hnone] at hrow
        cases hrow
    · cases hstep
      refine h.become fun id' claimToken hholds => ?_
      rcases hholds with hholds | hholds
      · cases hholds
      · cases hholds
  · cases hstep

theorem Inv.reclaim {s s' : State} {w : ℕ} {now : ℤ} (h : Inv s)
    (hstep : s.step (.reclaim w now) = some s') : Inv s' := by
  simp only [State.step] at hstep
  split at hstep
  · rename_i id seen hw
    split at hstep
    · rename_i row history hrow hhistory
      split at hstep
      · rename_i hmatch
        cases hstep
        have hsound := h.sound_of_some hrow hhistory
        have hseen : row.startedAt = seen := by
          simp only [matchesClaim, Bool.and_eq_true, decide_eq_true_eq] at hmatch
          exact hmatch.2
        have hnone : history.stored = none := by
          simp only [matchesClaim, Bool.and_eq_true, decide_eq_true_eq] at hmatch
          exact (hsound.running hmatch.1).1
        refine h.put_become (hsound.cas true hmatch rfl rfl rfl)
          (fun id' claimToken hholds => ?_) fun v claimToken hv hholds => ?_
        · obtain ⟨rfl, rfl⟩ := holds_holding hholds
          exact ⟨rfl, fun _ => ⟨rfl, hnone⟩, fun hne => absurd rfl hne⟩
        · have hle := (h.fenced_of_some hholds hrow hhistory).le
          refine ⟨fun howner => absurd howner.symm hv, fun _ => ?_⟩
          change claimToken < nextStartedAt now seen
          exact (Int.lt_add_one_of_le (hseen ▸ hle)).trans_le (le_max_right _ _)
      · cases hstep
        exact h.become fun _ _ hholds => absurd hholds not_holds_ended
    · cases hstep
      exact h.become fun _ _ hholds => absurd hholds not_holds_ended
  · cases hstep

theorem Inv.renew {s s' : State} {w : ℕ} {now : ℤ} (h : Inv s)
    (hstep : s.step (.renew w now) = some s') : Inv s' := by
  simp only [State.step] at hstep
  split at hstep
  · rename_i id claimToken hw
    have hself : (s.workers w).Holds id claimToken := .inl hw
    have hchecking : ∀ id' claimToken', (Worker.checking id claimToken).Holds id' claimToken' →
        (s.workers w).Holds id' claimToken' := by
      rintro id' claimToken' (hholds | hholds)
      · cases hholds
      · cases hholds
        exact hself
    split at hstep
    · rename_i row history hrow hhistory
      split at hstep
      · rename_i hmatch
        cases hstep
        have hsound := h.sound_of_some hrow hhistory
        have hseen : row.startedAt = claimToken := by
          simp only [matchesClaim, Bool.and_eq_true, decide_eq_true_eq] at hmatch
          exact hmatch.2
        have hfenced := h.fenced_of_some hself hrow hhistory
        have howner := hfenced.owner hseen
        refine h.put_become (hsound.cas false hmatch rfl rfl rfl)
          (fun id' claimToken' hholds => ?_) fun v claimToken' hv hholds => ?_
        · obtain ⟨rfl, rfl⟩ := holds_holding hholds
          exact ⟨rfl, fun _ => ⟨rfl, (hfenced.1 howner).2⟩, fun hne => absurd howner hne⟩
        · have hle := (h.fenced_of_some hholds hrow hhistory).le
          refine ⟨fun howner' => absurd (howner'.symm.trans howner) hv, fun _ => ?_⟩
          change claimToken' < nextStartedAt now claimToken
          exact (Int.lt_add_one_of_le (hseen ▸ hle)).trans_le (le_max_right _ _)
      · cases hstep
        exact h.become hchecking
    · cases hstep
      exact h.become hchecking
  · cases hstep

theorem Inv.complete {s s' : State} {w : ℕ} {input : CompleteReplayStepInput} (h : Inv s)
    (hok : Timely s (.complete w input)) (hstep : s.step (.complete w input) = some s') : Inv s' := by
  simp only [State.step] at hstep
  split at hstep
  · rename_i id claimToken hw
    have hself : (s.workers w).Holds id claimToken := .inl hw
    split at hstep
    · rename_i row history hrow hhistory
      split at hstep
      · rename_i hseen
        cases hstep
        have hfenced := h.fenced_of_some hself hrow hhistory
        have howner := hfenced.owner hseen
        refine h.put_become ((h.sound_of_some hrow hhistory).complete (hfenced.1 howner).2
          (hok id claimToken row hw hrow hseen))
          (fun _ _ hholds => absurd hholds not_holds_ended) fun v claimToken' hv hholds => ?_
        have hother := h.fenced_of_some hholds hrow hhistory
        have hne : history.owner ≠ v := fun howner' => hv (howner'.symm.trans howner)
        exact ⟨fun howner' => absurd howner' hne, fun _ => hother.2 hne⟩
      · cases hstep
        exact h.become fun _ _ hholds => absurd hholds not_holds_ended
    · cases hstep
      exact h.become fun _ _ hholds => absurd hholds not_holds_ended
  · cases hstep

theorem Inv.sweepNext {s s' : State} {sweep : ℕ} {now : ℤ} (h : Inv s)
    (hok : Timely s (.sweepNext sweep now)) (hstep : s.step (.sweepNext sweep now) = some s') :
    Inv s' := by
  simp only [State.step] at hstep
  split at hstep
  · cases hstep
  · rename_i id claimToken rest hsweep
    split at hstep
    · rename_i row history hrow hhistory
      split at hstep
      · rename_i hseen
        cases hstep
        have hnone := hok id claimToken rest row history hsweep hrow hhistory hseen
        refine h.put rfl rfl ((h.sound_of_some hrow hhistory).sweep hnone)
          fun w id' claimToken' hholds => ?_
        by_cases hid : id' = id
        · subst hid
          have hfenced := h.fenced_of_some hholds hrow hhistory
          exact .inl ⟨rfl, hfenced⟩
        · exact .inr ⟨hid, hholds⟩
      · cases hstep
        exact h.quiet rfl rfl fun _ _ _ hholds => hholds
    · cases hstep
      exact h.quiet rfl rfl fun _ _ _ hholds => hholds

theorem Inv.step {s s' : State} {act : Act} (h : Inv s) (hok : Timely s act)
    (hstep : s.step act = some s') : Inv s' := by
  cases act with
  | insert w id startedAt => exact h.insert hstep
  | look w now =>
    simp only [State.step] at hstep
    split at hstep
    · have hnone : ∀ phase : Worker, (phase = .ended ∨ ∃ id seen, phase = .reclaiming id seen) →
          ∀ id claimToken, phase.Holds id claimToken → (s.workers w).Holds id claimToken := by
        rintro phase (rfl | ⟨_, _, rfl⟩) id claimToken hholds
        · exact absurd hholds not_holds_ended
        · rcases hholds with hholds | hholds
          · cases hholds
          · cases hholds
      split at hstep
      · cases hstep
        exact h.become (hnone _ (.inl rfl))
      · split at hstep
        · cases hstep
          exact h.become (hnone _ (.inr ⟨_, _, rfl⟩))
        · cases hstep
          exact h.become (hnone _ (.inl rfl))
    · cases hstep
  | reclaim w now => exact h.reclaim hstep
  | renew w now => exact h.renew hstep
  | check w =>
    simp only [State.step] at hstep
    split at hstep
    · rename_i id claimToken hw
      cases hstep
      refine h.become fun id' claimToken' hholds => ?_
      obtain ⟨rfl, rfl⟩ := holds_holding hholds
      exact .inr hw
    · cases hstep
  | complete w input => exact h.complete hok hstep
  | crash w =>
    cases hstep
    exact h.become fun _ _ hholds => absurd hholds not_holds_ended
  | findStaleReplayClaims sweep ids olderThan =>
    simp only [State.step] at hstep
    split at hstep
    · cases hstep
      exact h.quiet rfl rfl fun _ _ _ hholds => hholds
    · cases hstep
  | sweepNext sweep now => exact h.sweepNext hok hstep

/-! ## Runs -/

def Act.worker : Act → Option ℕ
  | .insert worker _ _ => some worker
  | .look worker _ => some worker
  | .reclaim worker _ => some worker
  | .renew worker _ => some worker
  | .check worker => some worker
  | .complete worker _ => some worker
  | .crash worker => some worker
  | .findStaleReplayClaims _ _ _ => none
  | .sweepNext _ _ => none

/-- The worker's claim on the step has been taken over. -/
def TakenOver (s : State) (w : ℕ) (id : String) : Prop :=
  ∃ claimToken history, (s.workers w).Holds id claimToken ∧ s.histories id = some history ∧
    history.owner ≠ w

/-- The token of a claim that was taken over matches nothing. -/
theorem Inv.takenOver {s s' : State} {act : Act} {w : ℕ} {id : String} (h : Inv s)
    (hover : TakenOver s w id) (hact : act.worker = some w) (hstep : s.step act = some s') :
    s'.rows = s.rows := by
  obtain ⟨claimToken, history, hholds, hhistory, howner⟩ := hover
  obtain ⟨row, history', hrow, hhistory', hfenced⟩ := h.fenced w id claimToken hholds
  rw [hhistory] at hhistory'
  cases hhistory'
  have hne : row.startedAt ≠ claimToken := (hfenced.2 howner).ne'
  have hmatch : ¬matchesClaim claimToken row = true := by simp [matchesClaim, hne]
  cases act with
  | insert v id' startedAt =>
    cases hact
    rcases hholds with hw | hw
    · simp [State.step, hw] at hstep
    · simp [State.step, hw] at hstep
  | look v now =>
    cases hact
    rcases hholds with hw | hw
    · simp [State.step, hw] at hstep
    · simp [State.step, hw] at hstep
  | reclaim v now =>
    cases hact
    rcases hholds with hw | hw
    · simp [State.step, hw] at hstep
    · simp [State.step, hw] at hstep
  | renew v now =>
    cases hact
    rcases hholds with hw | hw
    · simp only [State.step, hw, hrow, hhistory, hmatch] at hstep
      cases hstep
      rfl
    · simp [State.step, hw] at hstep
  | check v =>
    cases hact
    rcases hholds with hw | hw
    · simp [State.step, hw] at hstep
    · simp only [State.step, hw] at hstep
      cases hstep
      rfl
  | complete v input =>
    cases hact
    rcases hholds with hw | hw
    · simp only [State.step, hw, hrow, hhistory, hne, if_false] at hstep
      cases hstep
      rfl
    · simp [State.step, hw] at hstep
  | crash v =>
    cases hstep
    rfl
  | findStaleReplayClaims _ _ _ => cases hact
  | sweepNext _ _ => cases hact

/-- The holder's result of a step has been stored. -/
def Stored (s : State) (id : String) (input : CompleteReplayStepInput) : Prop :=
  ∃ row history, s.rows id = some row ∧ s.histories id = some history ∧ history.stored = some input

theorem Stored.of_eq {s s' : State} {id : String} {input : CompleteReplayStepInput}
    (h : Stored s id input) (hrows : s'.rows = s.rows) (hhistories : s'.histories = s.histories) :
    Stored s' id input := by
  rw [Stored, hrows, hhistories]
  exact h

/-- A statement on a step keeps the results that its history keeps. -/
theorem Stored.put {s s' : State} {id id' : String} {input : CompleteReplayStepInput}
    {row : ExecutionStep} {history history' : History} (h : Stored s id input)
    (hrows : s'.rows = Function.update s.rows id' (some row))
    (hhistories : s'.histories = Function.update s.histories id' (some history'))
    (hhistory : s.histories id' = some history)
    (hstored : history.stored = some input → history'.stored = some input) : Stored s' id input := by
  obtain ⟨old, history'', hold, hhistory'', hinput⟩ := h
  rw [Stored, hrows, hhistories]
  by_cases hid : id = id'
  · subst hid
    rw [hhistory] at hhistory''
    cases hhistory''
    exact ⟨row, history', Function.update_self .., Function.update_self .., hstored hinput⟩
  · rw [Function.update_of_ne hid, Function.update_of_ne hid]
    exact ⟨old, history'', hold, hhistory'', hinput⟩

theorem Inv.stored_step {s s' : State} {act : Act} {id : String} {input : CompleteReplayStepInput}
    (h : Inv s) (hstored : Stored s id input) (hstep : s.step act = some s') :
    Stored s' id input := by
  cases act with
  | insert w id' startedAt =>
    simp only [State.step] at hstep
    split at hstep
    · split at hstep
      · rename_i hnone
        cases hstep
        obtain ⟨row, history, hrow, hhistory, hinput⟩ := hstored
        have hid : id ≠ id' := by
          rintro rfl
          rw [hnone] at hrow
          cases hrow
        exact ⟨row, history, (Function.update_of_ne hid ..).trans hrow,
          (Function.update_of_ne hid ..).trans hhistory, hinput⟩
      · cases hstep
        exact hstored.of_eq rfl rfl
    · cases hstep
  | look w now =>
    simp only [State.step] at hstep
    split at hstep
    · split at hstep
      · cases hstep
        exact hstored.of_eq rfl rfl
      · split at hstep
        · cases hstep
          exact hstored.of_eq rfl rfl
        · cases hstep
          exact hstored.of_eq rfl rfl
    · cases hstep
  | reclaim w now =>
    simp only [State.step] at hstep
    split at hstep
    · split at hstep
      · rename_i row history hrow hhistory
        split at hstep
        · cases hstep
          exact hstored.put rfl rfl hhistory fun hinput => hinput
        · cases hstep
          exact hstored.of_eq rfl rfl
      · cases hstep
        exact hstored.of_eq rfl rfl
    · cases hstep
  | renew w now =>
    simp only [State.step] at hstep
    split at hstep
    · split at hstep
      · rename_i row history hrow hhistory
        split at hstep
        · cases hstep
          exact hstored.put rfl rfl hhistory fun hinput => hinput
        · cases hstep
          exact hstored.of_eq rfl rfl
      · cases hstep
        exact hstored.of_eq rfl rfl
    · cases hstep
  | check w =>
    simp only [State.step] at hstep
    split at hstep
    · cases hstep
      exact hstored.of_eq rfl rfl
    · cases hstep
  | complete w other =>
    simp only [State.step] at hstep
    split at hstep
    · rename_i id' claimToken hw
      split at hstep
      · rename_i row history hrow hhistory
        split at hstep
        · rename_i hseen
          cases hstep
          -- the owner that completes has not completed before
          have hfenced := h.fenced_of_some (.inl hw) hrow hhistory
          have hnone := (hfenced.1 (hfenced.owner hseen)).2
          refine hstored.put rfl rfl hhistory fun hinput => ?_
          rw [hnone] at hinput
          cases hinput
        · cases hstep
          exact hstored.of_eq rfl rfl
      · cases hstep
        exact hstored.of_eq rfl rfl
    · cases hstep
  | crash w =>
    cases hstep
    exact hstored.of_eq rfl rfl
  | findStaleReplayClaims sweep ids olderThan =>
    simp only [State.step] at hstep
    split at hstep
    · cases hstep
      exact hstored.of_eq rfl rfl
    · cases hstep
  | sweepNext sweep now =>
    simp only [State.step] at hstep
    split at hstep
    · cases hstep
    · split at hstep
      · rename_i row history hrow hhistory
        split at hstep
        · cases hstep
          exact hstored.put rfl rfl hhistory fun hinput => hinput
        · cases hstep
          exact hstored.of_eq rfl rfl
      · cases hstep
        exact hstored.of_eq rfl rfl

/-- The worker has the claim, and nobody has taken it over. -/
def Holder (s : State) (w : ℕ) (id : String) : Prop :=
  ∃ claimToken history, s.workers w = .holding id claimToken ∧ s.histories id = some history ∧
    history.owner = w

/-- A sweep leaves every claim with its holder. -/
theorem Holder.sweepNext {s s' : State} {w sweep : ℕ} {id : String} {now : ℤ} (h : Holder s w id)
    (hstep : s.step (.sweepNext sweep now) = some s') : Holder s' w id := by
  obtain ⟨claimToken, history, hw, hhistory, howner⟩ := h
  simp only [State.step] at hstep
  split at hstep
  · cases hstep
  · rename_i id' token rest _
    split at hstep
    · rename_i row history' hrow hhistory'
      split at hstep
      · cases hstep
        by_cases hid : id = id'
        · subst hid
          rw [hhistory] at hhistory'
          cases hhistory'
          exact ⟨claimToken, history, hw, Function.update_self .., howner⟩
        · exact ⟨claimToken, history, hw, (Function.update_of_ne hid ..).trans hhistory, howner⟩
      · cases hstep
        exact ⟨claimToken, history, hw, hhistory, howner⟩
    · cases hstep
      exact ⟨claimToken, history, hw, hhistory, howner⟩

/-- The holder's result reaches the row, whatever the row shows by then. -/
theorem Inv.complete_holder {s : State} {w : ℕ} {id : String} (h : Inv s) (hholder : Holder s w id)
    (input : CompleteReplayStepInput) :
    ∃ s', s.step (.complete w input) = some s' ∧ Stored s' id input := by
  obtain ⟨claimToken, history, hw, hhistory, howner⟩ := hholder
  obtain ⟨row, history', hrow, hhistory', hfenced⟩ := h.fenced w id claimToken (.inl hw)
  rw [hhistory] at hhistory'
  cases hhistory'
  have htoken : row.startedAt = claimToken := (hfenced.1 howner).1.symm
  have hstep : s.step (.complete w input) = some ((s.put id (completeReplayStep input row)
      { history with stored := some input }).become w .ended) := by
    simp only [State.step, hw, hrow, hhistory, htoken, if_true]
  exact ⟨_, hstep, _, _, Function.update_self .., Function.update_self .., rfl⟩

/-- The invariant, together with a stored result. -/
def KeepsStored (id : String) (input : CompleteReplayStepInput) (s : State) : Prop :=
  Inv s ∧ Stored s id input

theorem KeepsStored.step {s s' : State} {act : Act} {id : String} {input : CompleteReplayStepInput}
    (h : KeepsStored id input s) (hok : Timely s act) (hstep : s.step act = some s') :
    KeepsStored id input s' := ⟨h.1.step hok hstep, h.1.stored_step h.2 hstep⟩

def initial : State := ⟨fun _ => none, fun _ => none, fun _ => .idle, fun _ => []⟩

theorem inv_initial : Inv initial := by
  refine ⟨nofun, fun w id claimToken hholds => ?_⟩
  rcases hholds with hholds | hholds
  · cases hholds
  · cases hholds

/-- In every run in which no sweep writes over the holder's own result and no result without an
error comes after a sweep's failure: the tokens of a step increase strictly and the newest is the
row's; `attempt` is one plus the number of takeovers; a worker whose claim was taken over changes no
row; a row shows the result that its holder has stored from then on; and a sweep leaves the claim
with its holder, whose later result the row then shows. -/
theorem replay_claims_of_timely {acts later : List Act} {s t : State}
    (h : Run State.step Timely initial acts s) (hlater : Run State.step Timely s later t) :
    (∀ id row, s.rows id = some row → ∃ history, s.histories id = some history ∧
      history.tokens.Pairwise (· > ·) ∧ history.tokens.head? = some row.startedAt ∧
      row.attempt = 1 + history.takeovers) ∧
    (∀ w id act s', TakenOver s w id → act.worker = some w → s.step act = some s' →
      s'.rows = s.rows) ∧
    (∀ id input, Stored s id input → ∃ row, t.rows id = some row ∧ Shows row input) ∧
    ∀ w id, Holder s w id →
      (∀ sweep now s', s.step (.sweepNext sweep now) = some s' → Holder s' w id) ∧
      ∀ input, Timely s (.complete w input) → ∃ s' row,
        s.step (.complete w input) = some s' ∧ s'.rows id = some row ∧ Shows row input := by
  have hs : Inv s := h.invariant (fun hs hok hstep => hs.step hok hstep) inv_initial
  refine ⟨fun id row hrow => ?_, fun w id act s' hover hact hstep => hs.takenOver hover hact hstep,
    fun id input hstored => ?_, fun w id hholder => ⟨fun sweep now s' hstep =>
      hholder.sweepNext hstep, fun input hok => ?_⟩⟩
  · obtain ⟨history, hhistory, hsound⟩ := hs.sound id row hrow
    obtain ⟨older, hnewest⟩ := hsound.newest
    exact ⟨history, hhistory, hsound.increasing, by rw [hnewest]; rfl, hsound.attempt⟩
  · have ht : KeepsStored id input t :=
      hlater.invariant (fun hs hok hstep => hs.step hok hstep) ⟨hs, hstored⟩
    obtain ⟨row, history, hrow, hhistory, hinput⟩ := ht.2
    exact ⟨row, hrow, (ht.1.sound_of_some hrow hhistory).shows_stored input hinput⟩
  · obtain ⟨s', hstep, row, history, hrow, hhistory, hinput⟩ := hs.complete_holder hholder input
    have hshows := ((hs.step hok hstep).sound_of_some hrow hhistory).shows_stored input hinput
    exact ⟨s', row, hstep, hrow, hshows⟩

namespace Sample

def success : CompleteReplayStepInput := ⟨true, some [], none, 5, 10, 2, 900000, none⟩

def failure : CompleteReplayStepInput :=
  ⟨false, none, some ⟨"node failed", none⟩, 0, 0, 0, 900000, none⟩

/-- A claim is renewed, goes stale, is taken over, swept, and finished by its holder. -/
def takeover : List Act :=
  [.insert 0 "r" 0, .renew 0 0, .insert 1 "r" 700000, .look 1 700000, .reclaim 1 700000,
    .findStaleReplayClaims 0 ["r"] 800000, .sweepNext 0 850000, .complete 1 failure]

/-- The sweep reads the claim, its holder completes the step, and then the sweep writes. -/
def overtaken : List Act :=
  [.insert 0 "r" 0, .findStaleReplayClaims 0 ["r"] 700000, .complete 0 success]

/-- The sweep writes, and then the holder succeeds. -/
def swept : List Act :=
  [.insert 0 "r" 0, .findStaleReplayClaims 0 ["r"] 700000, .sweepNext 0 800000, .complete 0 success]

end Sample

theorem replay_claims_takeover : ∃ s, Run State.step Timely initial Sample.takeover s ∧
    Stored s "r" Sample.failure ∧ ∃ row, s.rows "r" = some row ∧ Shows row Sample.failure := by
  have hrun : ∃ s, Run State.step Timely initial Sample.takeover s ∧
      Stored s "r" Sample.failure := by
    refine ⟨_, .cons trivial rfl (.cons trivial rfl (.cons trivial rfl (.cons trivial rfl
      (.cons trivial rfl (.cons trivial rfl (.cons ?_ rfl (.cons ?_ rfl (.nil _)))))))), ?_⟩
    · intro id claimToken rest row history hsweep _ hhistory _
      cases hsweep
      cases hhistory
      rfl
    · intro id claimToken row _ _ _ _
      rfl
    · exact ⟨_, _, rfl, rfl, rfl⟩
  obtain ⟨s, hrun, hstored⟩ := hrun
  exact ⟨s, hrun, hstored, (replay_claims_of_timely hrun (.nil s)).2.2.1 "r" Sample.failure hstored⟩

/-- The sweep's failure replaces the result of the holder; and a success that comes after the
sweep's failure leaves its error in place. -/
theorem result_replaced_by_sweep :
    (∃ s t, Run State.step (fun _ _ => True) initial Sample.overtaken s ∧
      s.step (.sweepNext 0 900001) = some t ∧ Stored s "r" Sample.success ∧
      (t.rows "r").map ExecutionStep.status = some .failed) ∧
    ∃ s, Run State.step (fun _ _ => True) initial Sample.swept s ∧
      (s.rows "r").map (fun row => (row.status, row.error)) = some (.succeeded, some
        ⟨"Replay abandoned: no worker finished it before the claim went stale.", none⟩) := by
  refine ⟨⟨_, _, Run.of_foldlM rfl, rfl, ⟨_, _, rfl, rfl, rfl⟩, rfl⟩, ⟨_, Run.of_foldlM rfl, rfl⟩⟩

end Linea.ReplayClaims
