import Linea.StepLog

/-! The worker: `RunsService.execute` and `InterpreterService.run` for any number of attempts on
one execution. An attempt is a state machine whose phases lie between two database calls or
handler calls; everything in between is computed at once. What an attempt holds in memory is what
the handlers gave it, or what it has read from the tables. Costs, running totals, chat replies and
notifications are left out. -/
namespace Linea.Worker
open Walker

def nodeTypeName : NodeType → String
  | .start => "start"
  | .endNode => "end"
  | .http => "http"
  | .connector => "connector"
  | .transform => "transform"
  | .branch => "branch"
  | .ai => "ai"
  | .extract => "extract"
  | .evaluator => "evaluator"
  | .approval => "approval"
  | .memory => "memory"
  | .wait => "wait"
  | .datetime => "datetime"
  | .filter => "filter"
  | .merge => "merge"
  | .variables => "variables"

/-- `extractTokenUsage`: usage is recognised by the shape of the output. -/
def extractTokenUsage : Value → Option (UInt64 × UInt64)
  | .object fields =>
    match Value.field fields "tokensInput", Value.field fields "tokensOutput" with
    | .number tokensInput, .number tokensOutput => some (tokensInput, tokensOutput)
    | _, _ => none
  | _ => none

structure RecordStepInput where
  executionId : String
  step : StepToExecute
  output : Value
  error : Option String
  usage : Option (UInt64 × UInt64)
  completed : CompletedMap
  vars : Value

namespace RecordStepInput

def status (input : RecordStepInput) : StepStatus :=
  if input.error.isSome then .failed else .succeeded

/-- `completed` counts the step already if it succeeded. -/
def sequence (input : RecordStepInput) : ℕ :=
  if input.status = .succeeded then input.completed.size else input.completed.size + 1

def idempotencyKey (executionId nodeId : String) : String := executionId ++ ":" ++ nodeId

def stepRow (input : RecordStepInput) : StepRow where
  name := nodeTypeName input.step.nodeType
  status := input.status
  nodeId := input.step.nodeId
  sequence := input.sequence
  attempt := 1
  input := input.step.input
  output := input.output
  error := input.error
  usage := input.usage
  idempotencyKey := some (idempotencyKey input.executionId input.step.nodeId)
  isSystemEvent := false

def checkpointRow (input : RecordStepInput) : CheckpointRow where
  sequence := input.sequence
  completedStepIds := input.completed.keys
  context := input.completed.entries
  vars := input.vars

/-- The columns take the rows of the write. -/
def accepted [Columns] (input : RecordStepInput) : Bool :=
  input.stepRow.accepted && input.checkpointRow.accepted

end RecordStepInput

/-- `CheckpointsService.recordStep`. -/
def recordStep [Columns] (now : ℕ) (r : ExecutionRecord) (leasedBy : String) (input : RecordStepInput) :
    WriteResult ExecutionRecord :=
  r.writeStepAndCheckpoint now leasedBy input.stepRow input.checkpointRow

/-- What an attempt has loaded before its first pass, and keeps for every further pass. -/
structure Loaded where
  resumeFrom : CompletedMap
  resumeVars : Value

/-- The locals of `InterpreterService.run` at a yielded step. -/
structure Pass where
  step : StepToExecute
  node : WorkflowNode
  walker : WalkState
  vars : Value

def Pass.completed (p : Pass) : CompletedMap := p.walker.completed

/-- Where an attempt stands. In `failing`, `entered` holds the output and the variables when the
step had already been entered in the completed map before the error came. -/
inductive Phase
  | idle
  | claimed
  | stateRead (resumeFrom : CompletedMap)
  | loaded (l : Loaded)
  | checking (l : Loaded) (p : Pass)
  | invoking (l : Loaded) (p : Pass)
  | recording (l : Loaded) (p : Pass) (output : Value) (vars : Value)
  | failing (l : Loaded) (p : Pass) (message : String) (entered : Option (Value × Value))
  | pausing (l : Loaded) (p : Pass)
  | completing (result : WalkResult)
  | aborting
  | done

/-- How a call of a node handler ends: with an output, with an error that is not retried, with
one that is, with `PauseExecutionError`, or with a lost lease. -/
inductive HandlerOutcome
  | output (value : Value)
  | error (message : String)
  | retry
  | pause
  | leaseLost

/-- The answer of `claimPauseForPending...` apart from the lease. -/
inductive PauseAnswer
  | pending
  | alreadyDecided
  | threw

inductive Act
  | tick (elapsed : ℕ)
  | requeue
  | cancel (environmentId : String)
  | claim (attemptId : String) (leaseExpiresAt : ℕ)
  | renew (attemptId : String) (leaseExpiresAt : ℕ)
  | readState (attemptId : String)
  | readVariables (attemptId : String)
  | begin (attemptId : String)
  | checkLease (attemptId : String)
  | invoke (attemptId : String) (outcome : HandlerOutcome)
  | writeStep (attemptId : String) (dbError : Option String)
  | writeFailure (attemptId : String) (dbError : Option String)
  | pause (attemptId : String) (answer : PauseAnswer)
  | complete (attemptId : String) (threw : Bool)
  | abort (attemptId : String) (message : String)
  | throw (attemptId : String)
  | crash (attemptId : String)

structure System where
  clock : ℕ
  record : ExecutionRecord
  phase : String → Phase

namespace System

def withExecution (s : System) (e : Execution) : System :=
  { s with record := { s.record with execution := e } }

def withPhase (s : System) (attemptId : String) (phase : Phase) : System :=
  { s with phase := fun a => if a = attemptId then phase else s.phase a }

def withRecord (s : System) (record : ExecutionRecord) : System := { s with record := record }

end System

section Steps
variable (g : WorkflowGraph) (payload : Value)

/-- The walker has been asked for the next step. -/
def enter (l : Loaded) (vars : Value) : Except WalkError Progress → Phase
  | .error _ => .aborting
  | .ok (.returned result) => .completing result
  | .ok (.yielded step node walker) => .checking l ⟨step, node, walker, vars⟩

/-- `interpreter.run` with what was loaded; also when a pause turns out to be decided already. -/
def startPass (l : Loaded) : Phase := enter l l.resumeVars (walk g l.resumeFrom payload)

/-- A variables node that sets hands over the new variables; reading them off `null` throws. -/
def adoptVars (node : WorkflowNode) (output vars : Value) : Option Value :=
  if node.type = .variables ∧ (Value.field node.config "operation").strictEq (some "set") then
    output.prop "variables"
  else some vars

/-- The write of a step that succeeded. -/
def successInput (executionId : String) (p : Pass) (output vars : Value) : RecordStepInput where
  executionId := executionId
  step := p.step
  output := output
  error := none
  usage := extractTokenUsage output
  completed := p.completed.set p.step.nodeId output
  vars := vars

/-- The write of a step that failed, with the completed map as it stands by then. The usage that some
errors carry is left out. -/
def failureInput (executionId : String) (p : Pass) (message : String)
    (entered : Option (Value × Value)) : RecordStepInput where
  executionId := executionId
  step := p.step
  output := .undefined
  error := some message
  usage := none
  completed := match entered with
    | some (output, _) => p.completed.set p.step.nodeId output
    | none => p.completed
  vars := match entered with
    | some (_, vars) => vars
    | none => p.vars

def afterInvoke (l : Loaded) (p : Pass) : HandlerOutcome → Phase
  | .output value =>
    match adoptVars p.node value p.vars with
    | some vars => .recording l p value vars
    | none => .failing l p "Cannot read properties of null (reading 'variables')"
        (some (value, p.vars))
  | .error message => .failing l p message none
  -- the lease is checked again before the next try
  | .retry => .checking l p
  | .pause => .pausing l p
  | .leaseLost => .aborting

def completionInput : WalkResult → CompleteExecutionInput
  | .completed => ⟨.succeeded, none, succeeded_terminal⟩
  | .failed nodeId error => ⟨.failed, some ⟨error, some nodeId⟩, failed_terminal⟩

/-- `completeExecution` with the event it publishes. -/
def tryComplete (s : System) (attemptId : String) (input : CompleteExecutionInput) : System :=
  match s.record.execution.completeExecution s.clock true attemptId input with
  | some (e, event) =>
    s.withRecord { s.record with execution := e, events := s.record.events ++ event.toList }
  | none => s

/-- One step of the system; `none` when the attempt is not at that point. -/
def step [Columns] (s : System) : Act → Option System
  | .tick elapsed => some { s with clock := s.clock + elapsed }
  | .requeue => s.record.execution.requeue.map s.withExecution
  | .cancel environmentId =>
    (s.record.execution.cancelExecution environmentId s.clock).map s.withExecution
  | .claim a leaseExpiresAt =>
    match s.phase a with
    | .idle =>
      match s.record.execution.startExecution s.clock a leaseExpiresAt with
      | some e => some ((s.withExecution e).withPhase a .claimed)
      | none => some (s.withPhase a .done)
    | _ => none
  | .renew a leaseExpiresAt =>
    (s.record.execution.renewLease s.clock a leaseExpiresAt).map s.withExecution
  | .readState a =>
    match s.phase a with
    | .claimed => some (s.withPhase a (.stateRead s.record.getResumeState))
    | _ => none
  | .readVariables a =>
    match s.phase a with
    | .stateRead resumeFrom =>
      some (s.withPhase a (.loaded ⟨resumeFrom, s.record.getResumeVariables⟩))
    | _ => none
  | .begin a =>
    match s.phase a with
    | .loaded l =>
      -- a resume is marked on the timeline only when there is something to resume from
      if 0 < l.resumeFrom.size then
        match s.record.recordResumeEvent s.clock a with
        | .written record => some ((s.withRecord record).withPhase a (startPass g payload l))
        | _ => some (s.withPhase a .aborting)
      else some (s.withPhase a (startPass g payload l))
    | _ => none
  | .checkLease a =>
    match s.phase a with
    | .checking l p =>
      if s.record.execution.isLeaseValid s.clock a then some (s.withPhase a (.invoking l p))
      else some (s.withPhase a .aborting)
    | _ => none
  | .invoke a outcome =>
    match s.phase a with
    | .invoking l p => some (s.withPhase a (afterInvoke l p outcome))
    | _ => none
  | .writeStep a dbError =>
    match s.phase a with
    | .recording l p output vars =>
      match dbError with
      | some message => some (s.withPhase a (.failing l p message (some (output, vars))))
      | none =>
        match recordStep s.clock s.record a (successInput s.record.execution.id p output vars) with
        | .written record => some ((s.withRecord record).withPhase a
            (enter l vars (resume g payload p.node p.walker (.output output))))
        | .leaseLost => some (s.withPhase a .aborting)
        | .refused =>
          some (s.withPhase a (.failing l p Columns.refusal (some (output, vars))))
        | .conflict => some (s.withPhase a (.failing l p
            "duplicate key value violates unique constraint" (some (output, vars))))
    | _ => none
  | .writeFailure a dbError =>
    match s.phase a with
    | .failing l p message entered =>
      match dbError with
      | some _ => some (s.withPhase a .aborting)
      | none =>
        match recordStep s.clock s.record a
            (failureInput s.record.execution.id p message entered) with
        | .written record => some ((s.withRecord record).withPhase a
            (enter l p.vars (resume g payload p.node p.walker (.error message))))
        | _ => some (s.withPhase a .aborting)
    | _ => none
  | .pause a answer =>
    match s.phase a with
    | .pausing l _ =>
      match answer with
      | .pending =>
        match s.record.execution.pauseExecution s.clock a with
        | some e => some ((s.withExecution e).withPhase a .done)
        | none => some (s.withPhase a .aborting)
      | .alreadyDecided => some (s.withPhase a (startPass g payload l))
      | .threw => some (s.withPhase a .aborting)
    | _ => none
  | .complete a threw =>
    match s.phase a with
    | .completing result =>
      if threw then some (s.withPhase a .aborting)
      else some ((tryComplete s a (completionInput result)).withPhase a .done)
    | _ => none
  | .abort a message =>
    match s.phase a with
    | .aborting =>
      some ((tryComplete s a ⟨.failed, some ⟨message, none⟩, failed_terminal⟩).withPhase a .done)
    | _ => none
  | .throw a =>
    -- any other exception on the way to the catch block of `execute`
    match s.phase a with
    | .idle => none
    | .done => none
    | _ => some (s.withPhase a .aborting)
  | .crash a => some (s.withPhase a .done)

end Steps
end Linea.Worker
