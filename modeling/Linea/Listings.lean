import Linea.Keyset
import Linea.ConsentStore

/-! The paged lists of executions, pending Action Intents, conversations, webhook deliveries and
external Approval Requests. A timestamp of a row has microseconds, the `Date` that a program reads
from it, and that a cursor carries, has milliseconds. Tables are those the queries read, with the
columns they compare; what a response says of a row besides these is left out. -/
namespace Linea.Listings
open Linea.Consent (SubjectStatus Ownership DecisionOutcome)
open Linea.Keyset (Page orderBy paginate)

/-- A uuid, as the number that its bytes spell: the order in which the database sorts ids. -/
abbrev Uuid := ℕ

/-- Microseconds. -/
abbrev Timestamp := ℤ

/-- Milliseconds. -/
abbrev Date := ℤ

/-- A timestamp as the driver reads it, its microseconds cut off. -/
def toDate (timestamp : Timestamp) : Date := timestamp / 1000

/-- A date as it is sent back to the database. -/
def fromDate (date : Date) : Timestamp := date * 1000

/-- `date_trunc('milliseconds', timestamp)` -/
def truncMilliseconds (timestamp : Timestamp) : Timestamp := fromDate (toDate timestamp)

structure Cursor where
  date : Date
  id : Uuid
  deriving DecidableEq, Repr

/-- The keyset condition: before the cursor's time, or at it with a smaller id. -/
def below (time : Timestamp) (id : Uuid) (cursor : Cursor) : Bool :=
  time < fromDate cursor.date || (time = fromDate cursor.date && id < cursor.id)

/-- The inverse of `below`: later rows, up to the cursor's own. -/
def above (time : Timestamp) (id : Uuid) (cursor : Cursor) : Bool :=
  time > fromDate cursor.date || (time = fromDate cursor.date && id > cursor.id)

/-- The key of `order by time desc, id desc`. -/
def orderKey (time : Timestamp) (id : Uuid) : ℤ ×ₗ ℕ := toLex (time,id)

/-! ## Tables -/

inductive ExecutionTrigger
  | manual
  | schedule
  | webhook
  | api
  deriving DecidableEq, Repr

structure Execution where
  id : Uuid
  workspaceId : Uuid
  workflowId : Uuid
  status : ExecutionStatus
  trigger : ExecutionTrigger
  createdAt : Timestamp
  deriving DecidableEq, Repr

structure Workflow where
  id : Uuid
  name : String
  slug : String
  deriving DecidableEq, Repr

structure ActionIntent where
  id : Uuid
  workspaceId : Uuid
  environmentId : Uuid
  connectionId : Uuid
  approvalRequestId : Uuid
  status : ActionIntentStatus
  createdAt : Timestamp
  deriving DecidableEq, Repr

structure ApprovalRequest where
  id : Uuid
  workspaceId : Uuid
  environmentId : Uuid
  audience : ApprovalAudience
  externalSubjectId : Option Uuid
  conversationId : Option Uuid
  status : ApprovalRequestStatus
  expiresAt : Option Timestamp
  requestedAt : Timestamp
  deriving DecidableEq, Repr

structure ApprovalDecision where
  approvalRequestId : Uuid
  outcome : DecisionOutcome
  deriving DecidableEq, Repr

structure Connection where
  id : Uuid
  ownership : Ownership
  deriving DecidableEq, Repr

structure ReviewerAssignment where
  workspaceId : Uuid
  environmentId : Uuid
  connectionId : Uuid
  externalSubjectId : Uuid
  revokedAt : Option Timestamp
  deriving DecidableEq, Repr

structure ExternalSubject where
  id : Uuid
  workspaceId : Uuid
  status : SubjectStatus
  deriving DecidableEq, Repr

structure SubjectEnvironment where
  environmentId : Uuid
  externalSubjectId : Uuid
  deriving DecidableEq, Repr

structure Environment where
  id : Uuid
  workspaceId : Uuid
  enabled : Bool
  deriving DecidableEq, Repr

structure Conversation where
  id : Uuid
  workspaceId : Uuid
  environmentId : Uuid
  externalSubjectId : Uuid
  lastActivityAt : Timestamp
  deriving DecidableEq, Repr

structure WebhookDelivery where
  id : Uuid
  workspaceId : Uuid
  environmentId : Uuid
  createdAt : Timestamp
  deriving DecidableEq, Repr

/-- The tables with their primary keys, and the one decision of a request. -/
structure Database where
  executions : List Execution := []
  workflows : List Workflow := []
  actionIntents : List ActionIntent := []
  approvalRequests : List ApprovalRequest := []
  approvalDecisions : List ApprovalDecision := []
  connections : List Connection := []
  reviewerAssignments : List ReviewerAssignment := []
  externalSubjects : List ExternalSubject := []
  subjectEnvironments : List SubjectEnvironment := []
  environments : List Environment := []
  conversations : List Conversation := []
  webhookDeliveries : List WebhookDelivery := []
  execution_ids : (executions.map (·.id)).Nodup := by decide
  workflow_ids : (workflows.map (·.id)).Nodup := by decide
  intent_ids : (actionIntents.map (·.id)).Nodup := by decide
  request_ids : (approvalRequests.map (·.id)).Nodup := by decide
  decision_requests : (approvalDecisions.map (·.approvalRequestId)).Nodup := by decide
  subject_ids : (externalSubjects.map (·.id)).Nodup := by decide
  environment_ids : (environments.map (·.id)).Nodup := by decide
  conversation_ids : (conversations.map (·.id)).Nodup := by decide
  delivery_ids : (webhookDeliveries.map (·.id)).Nodup := by decide

/-! ## Executions of a workspace -/

structure ExecutionWithWorkflow extends Execution where
  workflowName : String
  workflowSlug : String
  deriving DecidableEq, Repr

structure WorkspaceExecutionFilters where
  workspaceId : Uuid
  status : Option ExecutionStatus := none
  trigger : Option ExecutionTrigger := none
  deriving DecidableEq, Repr

def WorkspaceExecutionFilters.matches (filters : WorkspaceExecutionFilters)
    (execution : Execution) : Bool :=
  execution.workspaceId = filters.workspaceId &&
    filters.status.all (execution.status = ·) && filters.trigger.all (execution.trigger = ·)

def withWorkflow (db : Database) (execution : Execution) : List ExecutionWithWorkflow :=
  (db.workflows.filter fun workflow => execution.workflowId = workflow.id).map fun workflow =>
    { execution with workflowName := workflow.name, workflowSlug := workflow.slug }

structure WorkspaceExecutionPage where
  executions : List ExecutionWithWorkflow
  hasMore : Bool
  total : ℕ
  deriving DecidableEq, Repr

def defaultWorkspaceExecutionsLimit : ℕ := 50

def listWorkspaceExecutions (db : Database) (filters : WorkspaceExecutionFilters)
    (cursor : Option Cursor) (limit : Option ℕ) : WorkspaceExecutionPage :=
  let limit := limit.getD defaultWorkspaceExecutionsLimit
  let rows := ((orderBy (fun row => orderKey row.createdAt row.id)
    ((db.executions.flatMap (withWorkflow db)).filter fun row =>
      filters.matches row.toExecution && cursor.all (below row.createdAt row.id)))).take (limit + 1)
  let hasMore := rows.length > limit
  { executions := if hasMore then rows.take limit else rows
    hasMore
    total := (db.executions.filter filters.matches).length }

def countNewWorkspaceExecutions (db : Database) (filters : WorkspaceExecutionFilters)
    (since : Cursor) : ℕ :=
  (db.executions.filter fun row =>
    filters.matches row && above row.createdAt row.id since).length

def encodeExecutionCursor (row : Execution) : Cursor := { date := toDate row.createdAt, id := row.id }

/-- The executions page of the dashboard, which goes on to the next page as long as there are more. -/
def executionsPage (db : Database) (filters : WorkspaceExecutionFilters) (limit : Option ℕ)
    (cursor : Option Cursor) : Page ExecutionWithWorkflow Cursor :=
  let page := listWorkspaceExecutions db filters cursor limit
  { data := page.executions
    nextCursor := if page.hasMore then
      page.executions.getLast?.map fun row => encodeExecutionCursor row.toExecution else none }

/-! ## Lists of an external subject -/

structure EndUserPrincipal where
  workspaceId : Uuid
  environmentId : Uuid
  externalSubjectId : Uuid
  deriving DecidableEq, Repr

/-- Whether an intent of the request goes through a connection that the environment owns. -/
def sharedIntents (db : Database) (request : ApprovalRequest) : List (ActionIntent × Connection) :=
  db.actionIntents.flatMap fun intent => (db.connections.filter fun connection =>
    connection.id = intent.connectionId && intent.approvalRequestId = request.id &&
      connection.ownership = .environment).map fun connection => (intent,connection)

/-- The subject the request is addressed to, unless a shared connection is used; of a shared
connection its reviewers. -/
def externalApprovalEligibility (db : Database) (externalSubjectId : Uuid)
    (request : ApprovalRequest) : Bool :=
  (request.externalSubjectId = some externalSubjectId && (sharedIntents db request).isEmpty) ||
    (sharedIntents db request).any fun (_,connection) =>
      db.reviewerAssignments.any fun reviewer =>
        reviewer.connectionId = connection.id &&
          reviewer.externalSubjectId = externalSubjectId &&
          reviewer.workspaceId = request.workspaceId &&
          reviewer.environmentId = request.environmentId && reviewer.revokedAt.isNone &&
          (db.externalSubjects.any fun subject =>
            subject.id = reviewer.externalSubjectId && subject.status = .verified) &&
          db.subjectEnvironments.any fun member =>
            member.environmentId = reviewer.environmentId &&
              member.externalSubjectId = reviewer.externalSubjectId

structure PendingActionIntent where
  intent : ActionIntent
  approvalRequest : ApprovalRequest
  deriving DecidableEq, Repr

def withRequest (db : Database) (intent : ActionIntent) : List PendingActionIntent :=
  (db.approvalRequests.filter fun request => request.id = intent.approvalRequestId).map fun request =>
    { intent, approvalRequest := request }

def pendingFor (db : Database) (principal : EndUserPrincipal) (now : Date)
    (row : PendingActionIntent) : Bool :=
  row.intent.workspaceId = principal.workspaceId &&
    row.intent.environmentId = principal.environmentId &&
    externalApprovalEligibility db principal.externalSubjectId row.approvalRequest &&
    row.intent.status = .awaitingConsent && row.approvalRequest.status = .pending &&
    row.approvalRequest.expiresAt.any (· > fromDate now)

def findPendingActionIntents (db : Database) (principal : EndUserPrincipal) (now : Date)
    (limit : ℕ) (cursor : Option Cursor) : List PendingActionIntent :=
  (orderBy (fun row => orderKey row.intent.createdAt row.intent.id)
    ((db.actionIntents.flatMap (withRequest db)).filter fun row =>
      pendingFor db principal now row &&
        cursor.all (below row.intent.createdAt row.intent.id))).take limit

def encodeActionIntentCursor (intent : ActionIntent) : Cursor :=
  { date := toDate intent.createdAt, id := intent.id }

def listPendingActionIntents (db : Database) (principal : EndUserPrincipal) (now : Date)
    (limit : ℕ) (cursor : Option Cursor) : Page PendingActionIntent Cursor :=
  paginate limit (fun row => encodeActionIntentCursor row.intent)
    (findPendingActionIntents db principal now (limit + 1) cursor)

structure ExternalApprovalRequestView where
  request : ApprovalRequest
  decision : Option ApprovalDecision
  deriving DecidableEq, Repr

/-- Either one request is asked for by its id, or the pending ones, of a conversation or of all. -/
inductive ExternalApprovalRequestFilter
  | single (approvalRequestId : Uuid)
  | pending (conversationId : Option Uuid) (cursor : Option Cursor)
  deriving DecidableEq, Repr

def ExternalApprovalRequestFilter.cursor : ExternalApprovalRequestFilter → Option Cursor
  | .single _ => none
  | .pending _ cursor => cursor

def ExternalApprovalRequestFilter.matches (request : ApprovalRequest) :
    ExternalApprovalRequestFilter → Bool
  | .single approvalRequestId => request.id = approvalRequestId
  | .pending conversationId _ => request.status = .pending &&
      conversationId.all (request.conversationId = some ·)

def externalApprovalRequestOwner (db : Database) (principal : EndUserPrincipal)
    (request : ApprovalRequest) (subject : ExternalSubject) (environment : Environment) : Bool :=
  request.audience = .externalSubject && request.workspaceId = principal.workspaceId &&
    request.environmentId = principal.environmentId &&
    externalApprovalEligibility db principal.externalSubjectId request &&
    subject.status = .verified && environment.enabled

/-- A request that the principal may see, with its decision if it has one. -/
def externalViews (db : Database) (principal : EndUserPrincipal) (request : ApprovalRequest) :
    List ExternalApprovalRequestView :=
  let subjects := db.externalSubjects.filter fun subject =>
    request.externalSubjectId = some subject.id && subject.workspaceId = request.workspaceId
  let environments := db.environments.filter fun environment =>
    environment.id = request.environmentId && environment.workspaceId = request.workspaceId
  let owners := (subjects.product environments).filter fun (subject,environment) =>
    externalApprovalRequestOwner db principal request subject environment
  owners.flatMap fun _ =>
    match db.approvalDecisions.filter fun decision => decision.approvalRequestId = request.id with
    | [] => [{ request, decision := none }]
    | decisions => decisions.map fun decision => { request, decision := some decision }

/-- The order, and the key a cursor is compared with, are cut to milliseconds. -/
def requestedKey (row : ExternalApprovalRequestView) : ℤ ×ₗ ℕ :=
  orderKey (truncMilliseconds row.request.requestedAt) row.request.id

def findExternalApprovalRequests (db : Database) (principal : EndUserPrincipal) (limit : ℕ)
    (filter : ExternalApprovalRequestFilter) : List ExternalApprovalRequestView :=
  (orderBy requestedKey ((db.approvalRequests.flatMap (externalViews db principal)).filter fun row =>
    filter.matches row.request && filter.cursor.all
      (below (truncMilliseconds row.request.requestedAt) row.request.id))).take limit

def encodeApprovalRequestCursor (request : ApprovalRequest) : Cursor :=
  { date := toDate request.requestedAt, id := request.id }

def listEndUserApprovalRequests (db : Database) (principal : EndUserPrincipal)
    (conversationId : Option Uuid) (limit : ℕ) (cursor : Option Cursor) :
    Page ExternalApprovalRequestView Cursor :=
  paginate limit (fun row => encodeApprovalRequestCursor row.request)
    (findExternalApprovalRequests db principal (limit + 1) (.pending conversationId cursor))

/-! ## Lists of an environment -/

def listedConversation (workspaceId environmentId : Uuid) (externalSubjectId : Option Uuid)
    (conversation : Conversation) : Bool :=
  conversation.workspaceId = workspaceId && conversation.environmentId = environmentId &&
    externalSubjectId.all (conversation.externalSubjectId = ·)

def listPublicConversations (db : Database) (workspaceId environmentId : Uuid)
    (externalSubjectId : Option Uuid) (limit : ℕ) (cursor : Option Cursor) : List Conversation :=
  (orderBy (fun row => orderKey row.lastActivityAt row.id)
    (db.conversations.filter fun row =>
      listedConversation workspaceId environmentId externalSubjectId row &&
        cursor.all (below row.lastActivityAt row.id))).take limit

def encodeConversationCursor (conversation : Conversation) : Cursor :=
  { date := toDate conversation.lastActivityAt, id := conversation.id }

/-- For the environment without a subject, for an end user with theirs. -/
def listConversations (db : Database) (workspaceId environmentId : Uuid)
    (externalSubjectId : Option Uuid) (limit : ℕ) (cursor : Option Cursor) :
    Page Conversation Cursor :=
  paginate limit encodeConversationCursor
    (listPublicConversations db workspaceId environmentId externalSubjectId (limit + 1) cursor)

def listedDelivery (workspaceId environmentId : Uuid) (retainedAfter : Date)
    (delivery : WebhookDelivery) : Bool :=
  delivery.workspaceId = workspaceId && delivery.environmentId = environmentId &&
    delivery.createdAt ≥ fromDate retainedAfter

def listWebhookDeliveries (db : Database) (workspaceId environmentId : Uuid) (retainedAfter : Date)
    (limit : ℕ) (cursor : Option Cursor) : List WebhookDelivery :=
  (orderBy (fun row => orderKey row.createdAt row.id)
    (db.webhookDeliveries.filter fun row =>
      listedDelivery workspaceId environmentId retainedAfter row &&
        cursor.all (below row.createdAt row.id))).take limit

def encodeWebhookDeliveryCursor (delivery : WebhookDelivery) : Cursor :=
  { date := toDate delivery.createdAt, id := delivery.id }

/-- Thirty days. -/
def retentionMs : ℤ := 30 * 24 * 60 * 60 * 1000

def listDeliveries (db : Database) (workspaceId environmentId : Uuid) (now : Date) (limit : ℕ)
    (cursor : Option Cursor) : Page WebhookDelivery Cursor :=
  paginate limit encodeWebhookDeliveryCursor
    (listWebhookDeliveries db workspaceId environmentId (now - retentionMs) (limit + 1) cursor)

end Linea.Listings
