import Mathlib.Data.Int.Notation
import Mathlib.Data.List.ProdSigma

/-! Schedules and the executions they create. -/
namespace Linea.Schedules

/-- `CronExpressionParser.parse(..).next().toDate()`: `none` where it throws. A date it gives comes
after the current one. -/
structure CronExpressionParser where
  next : String → String → ℤ → Option ℤ
  later : ∀ {cronExpression timezone currentDate date},
    next cronExpression timezone currentDate = some date → currentDate < date

structure Schedule where
  id : String
  workspaceId : String
  workflowId : String
  environmentId : String
  cronExpression : String
  timezone : String
  enabled : Bool
  nextRunAt : ℤ
  lastRunAt : Option ℤ
  externalSubjectId : Option String
  triggerPayload : Option String
deriving DecidableEq

inductive EnvironmentName
  | dev
  | production
deriving DecidableEq

structure Workflow where
  id : String
  workspaceId : String
  applicationId : String
  slug : String
  archivedAt : Option ℤ

structure Environment where
  id : String
  workspaceId : String
  applicationId : String
  environment : EnvironmentName
  enabled : Bool

structure EnvironmentWorkflowBinding where
  environmentId : String
  workflowId : String
  workflowVersionId : String
  workflowContractRevisionId : String
  enabled : Bool

structure WorkflowVersion where
  id : String
  publishedAt : Option ℤ

structure EndSubject where
  workspaceId : String
  externalId : String
  lastSeenAt : ℤ
deriving DecidableEq

inductive Trigger
  | manual
  | schedule
  | webhook
  | api
deriving DecidableEq

structure Execution where
  id : String
  workspaceId : String
  workflowId : String
  workflowVersionId : String
  workflowContractRevisionId : Option String
  environmentId : String
  trigger : Trigger
  triggerPayload : Option String
  triggeredByUserId : Option String
  externalSubjectId : Option String
  environment : EnvironmentName
deriving DecidableEq

/-- A `workflow_execution` message of the outbox. -/
structure ExecutionMessage where
  workspaceId : String
  executionId : String
deriving DecidableEq

/-- What is deployed where. -/
structure Catalog where
  workflows : List Workflow
  environments : List Environment
  environmentWorkflowBindings : List EnvironmentWorkflowBinding
  workflowVersions : List WorkflowVersion

structure Database where
  schedules : List Schedule
  catalog : Catalog
  endSubjects : List EndSubject
  executions : List Execution
  outboxMessages : List ExecutionMessage

section Trigger

inductive TriggerWorkflowLookup
  | id (value : String)
  | slug (value applicationId : String)

structure TriggerInput where
  trigger : Trigger
  triggerPayload : Option String
  environment : Option EnvironmentName
  environmentId : Option String
  triggeredByUserId : Option String
  externalSubjectId : Option String

inductive TriggerWorkflowResult
  | created (execution : Execution)
  | notFound
  | archived
  | unpublished
deriving DecidableEq

def TriggerWorkflowResult.execution : TriggerWorkflowResult → Option Execution
  | .created execution => some execution
  | _ => none

def TriggerWorkflowLookup.finds (lookup : TriggerWorkflowLookup) (workflow : Workflow) : Bool :=
  match lookup with
  | .id value => workflow.id = value
  | .slug value applicationId => workflow.slug = value && workflow.applicationId = applicationId

/-- `insert .. onConflictDoUpdate` on the workspace and the external id. -/
def upsertEndSubject (now : ℤ) (workspaceId externalId : String) (rows : List EndSubject) :
    List EndSubject :=
  let conflicts (row : EndSubject) : Bool :=
    row.workspaceId = workspaceId && row.externalId = externalId
  if rows.any conflicts then
    rows.map fun row => if conflicts row then { row with lastSeenAt := now } else row
  else rows ++ [⟨workspaceId,externalId,now⟩]

/-- The enabled binding of the workflow in the enabled environment asked for, with a published
version. -/
def deployments (catalog : Catalog) (workspaceId : String) (workflow : Workflow)
    (input : TriggerInput) : List (Environment × EnvironmentWorkflowBinding) :=
  (catalog.environments ×ˢ catalog.environmentWorkflowBindings).filter fun row =>
    row.2.environmentId = row.1.id && row.2.workflowId = workflow.id && row.2.enabled &&
    catalog.workflowVersions.any
      (fun version => version.id = row.2.workflowVersionId && version.publishedAt.isSome) &&
    row.1.workspaceId = workspaceId && row.1.applicationId = workflow.applicationId &&
    (match input.environmentId with
      | some environmentId => row.1.id = environmentId
      | none => row.1.environment =
          if input.environment = some .production then EnvironmentName.production else .dev) &&
    row.1.enabled

/-- `newId` and `now` are the defaults of the new row. -/
def triggerWorkflowExecution (newId : String) (now : ℤ) (db : Database) (workspaceId : String)
    (lookup : TriggerWorkflowLookup) (input : TriggerInput) : TriggerWorkflowResult × Database :=
  match db.catalog.workflows.find?
      fun workflow => workflow.workspaceId = workspaceId && lookup.finds workflow with
  | none => (.notFound,db)
  | some workflow =>
    if workflow.archivedAt.isSome then (.archived,db)
    else
      match (deployments db.catalog workspaceId workflow input).head? with
      | none => (.unpublished,db)
      | some (environment,binding) =>
        -- the empty text is no external subject
        let externalSubjectId := input.externalSubjectId.filter (· ≠ "")
        let execution : Execution := ⟨newId,workspaceId,workflow.id,binding.workflowVersionId,
          some binding.workflowContractRevisionId,environment.id,input.trigger,input.triggerPayload,
          input.triggeredByUserId,externalSubjectId,environment.environment⟩
        (.created execution,
          { db with
            endSubjects := match externalSubjectId with
              | some externalId => upsertEndSubject now workspaceId externalId db.endSubjects
              | none => db.endSubjects
            executions := db.executions ++ [execution]
            outboxMessages := db.outboxMessages ++ [⟨workspaceId,newId⟩] })

/-- A trigger creates the execution it answers with, and touches no schedule. -/
lemma triggerWorkflowExecution_spec (newId : String) (now : ℤ) (db : Database)
    (workspaceId : String) (lookup : TriggerWorkflowLookup) (input : TriggerInput) :
    let run := triggerWorkflowExecution newId now db workspaceId lookup input
    run.2.schedules = db.schedules ∧
      run.2.executions = db.executions ++ run.1.execution.toList ∧
      ∀ execution ∈ run.1.execution, execution.trigger = input.trigger := by
  intro run
  simp only [run]
  unfold triggerWorkflowExecution
  split
  · exact ⟨rfl,(List.append_nil _).symm,nofun⟩
  split
  · exact ⟨rfl,(List.append_nil _).symm,nofun⟩
  split
  · exact ⟨rfl,(List.append_nil _).symm,nofun⟩
  · refine ⟨rfl,rfl,fun execution hexecution => ?_⟩
    cases hexecution
    rfl

end Trigger

section Fire

variable (parser : CronExpressionParser)

def due (now : ℤ) (schedule : Schedule) : Bool :=
  schedule.enabled && schedule.nextRunAt ≤ now

def getDueSchedules (db : Database) (now : ℤ) : List Schedule :=
  db.schedules.filter (due now)

def computeNextRunAt (schedule : Schedule) (now : ℤ) : Option ℤ :=
  parser.next schedule.cronExpression schedule.timezone now

/-- `update .. set nextRunAt, lastRunAt`. -/
def advance (scheduleId : String) (nextRunAt now : ℤ) (row : Schedule) : Schedule :=
  if row.id = scheduleId then { row with nextRunAt := nextRunAt, lastRunAt := some now } else row

@[simp] lemma advance_id (scheduleId : String) (nextRunAt now : ℤ) (row : Schedule) :
    (advance scheduleId nextRunAt now row).id = row.id := by
  unfold advance
  split <;> rfl

/-- The rest of the transaction of `claimAndFireDueSchedule` once it has locked a row: `none` where
`computeNextRunAt` throws, and nothing is written. -/
def fireSchedule (newId : String) (now : ℤ) (schedule : Schedule) (db : Database) :
    Option (ℤ × TriggerWorkflowResult × Database) :=
  (computeNextRunAt parser schedule now).map fun nextRunAt =>
    let advanced := { db with schedules := db.schedules.map (advance schedule.id nextRunAt now) }
    (nextRunAt,triggerWorkflowExecution newId now advanced schedule.workspaceId
      (.id schedule.workflowId)
      ⟨.schedule,schedule.triggerPayload,none,some schedule.environmentId,none,
        schedule.externalSubjectId⟩)

lemma fireSchedule_some {parser : CronExpressionParser} {newId : String} {now nextRunAt : ℤ}
    {schedule : Schedule} {result : TriggerWorkflowResult} {db db' : Database}
    (h : fireSchedule parser newId now schedule db = some (nextRunAt,result,db')) :
    now < nextRunAt ∧ db'.schedules = db.schedules.map (advance schedule.id nextRunAt now) ∧
      db'.executions = db.executions ++ result.execution.toList := by
  obtain ⟨next,hnext,heq⟩ := Option.map_eq_some_iff.mp h
  obtain ⟨rfl,hrun⟩ := Prod.mk.inj heq
  have hspec := triggerWorkflowExecution_spec newId now
    { db with schedules := db.schedules.map (advance schedule.id next now) }
    schedule.workspaceId (.id schedule.workflowId)
    ⟨.schedule,schedule.triggerPayload,none,some schedule.environmentId,none,
      schedule.externalSubjectId⟩
  rw [hrun] at hspec
  exact ⟨parser.later hnext,hspec.1,hspec.2.1⟩

/-- The expression and the time zone can be evaluated at every date. -/
def Valid (schedule : Schedule) : Prop :=
  ∀ now, (computeNextRunAt parser schedule now).isSome

end Fire
end Linea.Schedules
