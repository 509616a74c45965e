import Linea.TransactionRules
import Linea.ConsentDecisions

/-! The operations of the public API that take an idempotency key (`public-runtime.repository.ts`
with `public-idempotency.repository.ts`): creating a conversation, starting or cancelling an
execution, posting a message. Each is one transaction that begins by reserving its key. Subjects,
environments, memberships, executions, Approval Requests and intents are those of `Consent`; the
columns it leaves out stand beside them. -/
namespace Linea.PublicRuntime
open Linea.Consent (SubjectStatus IdempotencyRecord Reply)

/-! ## Requests -/

inductive ActorKind
  | environmentKey
  | endUserSession
  deriving DecidableEq, Repr

structure Actor where
  kind : ActorKind
  id : String
  deriving DecidableEq, Repr

inductive Operation
  | conversationCreate
  | executionStart
  | executionCancel
  | messageCreate
  deriving DecidableEq, Repr

/-- The unique index of the idempotency records. -/
structure Slot where
  actor : Actor
  operation : Operation
  idempotencyKey : String
  deriving DecidableEq, Repr

/-- What is hashed of a call, in the canonical form of its JSON. -/
inductive Request
  | createConversation (externalSubjectId workflowId : String)
    (externalThreadKey title : Option String) (metadata : Value)
  | startExecution (externalSubjectId workflowId : String) (conversationId : Option String)
    (input : Value)
  | cancelExecution (executionId : String)
  | createMessage (conversationId content : String)

def Request.operation : Request → Operation
  | .createConversation .. => .conversationCreate
  | .startExecution .. => .executionStart
  | .cancelExecution _ => .executionCancel
  | .createMessage .. => .messageCreate

structure Principal where
  workspaceId : String
  environmentId : String
  externalSubjectId : String
  deriving DecidableEq, Repr

/-- The hash of a request, the validation of an input by its schema (`none` if the schema does not
compile), and what an environment key or a session stands for. A key has no subject of its own. -/
structure Setting where
  hashPublicRequest : Request → String
  validate : Value → Value → Option Bool
  principal : Actor → Principal

structure Call where
  actor : Actor
  idempotencyKey : String
  request : Request

def Call.slot (call : Call) : Slot := ⟨call.actor, call.request.operation, call.idempotencyKey⟩

/-! ## Tables -/

inductive EnvironmentName
  | dev
  | production
  deriving DecidableEq, Repr

inductive ExecutionEnvironment
  | draft
  | dev
  | production
  deriving DecidableEq, Repr

def EnvironmentName.execution : EnvironmentName → ExecutionEnvironment
  | .dev => .dev
  | .production => .production

structure EnvironmentColumns where
  environment : EnvironmentName
  applicationId : String
  deriving DecidableEq, Repr

structure Workflow where
  workspaceId : String
  applicationId : String
  archivedAt : Option ℕ
  deriving DecidableEq, Repr

structure WorkflowBinding where
  workspaceId : String
  workflowVersionId : String
  workflowContractRevisionId : String
  allowBackendStart : Bool
  allowEndUserStart : Bool
  enabled : Bool
  deriving DecidableEq, Repr

/-- A backend starts with its environment key, an end user with a session. -/
def WorkflowBinding.allowsStart (binding : WorkflowBinding) : ActorKind → Bool
  | .environmentKey => binding.allowBackendStart
  | .endUserSession => binding.allowEndUserStart

structure WorkflowVersion where
  workflowId : String
  workflowContractRevisionId : Option String
  publishedAt : Option ℕ
  deriving DecidableEq, Repr

structure ContractRevision where
  workflowId : String
  inputSchema : Value

inductive ConversationStatus
  | active
  | closed
  deriving DecidableEq, Repr

structure ConversationIdentity where
  workspaceId : String
  environmentId : String
  workflowId : String
  externalSubjectId : String
  environment : ExecutionEnvironment
  deriving DecidableEq, Repr

structure NewConversation extends ConversationIdentity where
  externalThreadKey : Option String
  title : Option String
  metadata : Value

structure Conversation extends NewConversation where
  status : ConversationStatus
  lastActivityAt : ℕ
  updatedAt : ℕ

inductive ChatMessageRole
  | user
  | assistant
  deriving DecidableEq, Repr

structure ChatMessage where
  workspaceId : String
  conversationId : String
  clientMessageId : Option String
  role : ChatMessageRole
  content : String
  createdAt : ℕ
  deriving DecidableEq, Repr

/-- The other columns of an execution that was started here; `slot` is the key it was started
under, which is not a column. -/
structure Start where
  workflowId : String
  workflowVersionId : String
  workflowContractRevisionId : String
  externalSubjectId : String
  environment : ExecutionEnvironment
  triggerPayload : Value
  slot : Slot

/-- A queued `workflow_execution` message; `slot` is not a column. -/
structure QueuedExecution where
  workspaceId : String
  executionId : String
  slot : Slot
  deriving DecidableEq, Repr

structure AuditLog where
  workspaceId : String
  actorEnvironmentKeyId : String
  resourceId : String
  environmentId : String
  idempotencyKey : String
  deriving DecidableEq, Repr

inductive Rejection
  | resourceNotFound
  | workflowStartNotAllowed
  | conversationIdentityConflict
  | workflowBindingIncompatible
  | validationFailed
  | executionNotCancellable
  deriving DecidableEq, Repr

inductive Outcome
  | created (resourceId : String)
  | replay (resourceId : String)
  | cancelled (resourceId : String)
  | rejected (reason : Rejection)
  | idempotencyConflict
  deriving DecidableEq, Repr

def Outcome.resource : Outcome → Option String
  | .created resourceId => some resourceId
  | .replay resourceId => some resourceId
  | .cancelled resourceId => some resourceId
  | .rejected _ => none
  | .idempotencyConflict => none

/-- An answer that was given, and the record that its transaction left under the key. -/
structure Answer where
  call : Call
  outcome : Outcome
  record : Option IdempotencyRecord

/-- Bindings are keyed by environment and workflow. The answers are not a table. -/
structure Store where
  consent : Consent.Store
  issuerSubjects : String → Option String
  environmentColumns : String → EnvironmentColumns
  workflows : String → Option Workflow
  bindings : String × String → Option WorkflowBinding
  versions : String → Option WorkflowVersion
  revisions : String → Option ContractRevision
  conversations : OrderedMap String Conversation
  messages : OrderedMap String ChatMessage
  starts : String → Option Start
  queue : List QueuedExecution
  auditLogs : List AuditLog
  records : Slot → Option IdempotencyRecord
  answers : List Answer

inductive Lock
  | consent (lock : Consent.Lock)
  | slot (slot : Slot)
  | conversation (id : String)
  | thread (environmentId externalThreadKey : String)
  | message (id : String)
  | clientMessage (conversationId clientMessageId : String)
  deriving DecidableEq, Repr

abbrev Program := Tx Store Lock Reply

/-- The tables of `Consent` as a part of the store. -/
def consentPart : Tx.Part Store Consent.Store Lock Consent.Lock Reply Reply where
  get := Store.consent
  put := fun consent s => { s with consent }
  lock := .consent
  reply := id

/-! ## Idempotency records -/

inductive Reservation
  | reserved
  | replay (resourceId : String)
  | conflict
  deriving DecidableEq, Repr

def Store.setRecord (slot : Slot) (record : Option IdempotencyRecord) (s : Store) : Store :=
  { s with records := Function.update s.records slot record }

def recordDisappeared : String := "Idempotency record disappeared"

def notFinalized : String := "Idempotency result was not finalized"

def alreadyFinalized : String := "Idempotency result was already finalized"

/-- The insert waits for a transaction that has inserted the key and not ended. -/
def reservePublicRequest (slot : Slot) (requestHash : String) : Program Reservation := do
  let taken ← Tx.lockSlot (.slot slot) fun s => s.records slot
  match taken with
  | none => do
    Tx.update (Store.setRecord slot (some ⟨requestHash, none⟩))
    pure .reserved
  | some _ => do
    let existing ← Tx.select fun s => s.records slot
    match existing with
    | none => .halt recordDisappeared
    | some record =>
      if record.requestHash ≠ requestHash then pure .conflict
      else match record.resourceId with
        | none => .halt notFinalized
        | some resourceId => pure (.replay resourceId)

/-- A record is found by its id, which stands for the key here. -/
def finalizePublicRequest (slot : Slot) (resourceId : String) : Program Unit := do
  let updated ← Tx.lockRow (.slot slot) fun s => (s.records slot).filter fun r => r.resourceId = none
  match updated with
  | none => .halt alreadyFinalized
  | some record => Tx.update (Store.setRecord slot (some { record with resourceId := some resourceId }))

def Store.releaseRecord (slot : Slot) (s : Store) : Store :=
  match s.records slot with
  | some record => if record.resourceId = none then s.setRecord slot none else s
  | none => s

def releasePublicRequest (slot : Slot) : Program Unit := Tx.update (Store.releaseRecord slot)

/-- Every rejection gives the key back. -/
def reject (slot : Slot) (reason : Rejection) : Program Outcome := do
  releasePublicRequest slot
  pure (.rejected reason)

/-! ## Lookups -/

structure SubjectIdentity where
  environment : EnvironmentName
  enabled : Bool
  issuerSubject : Option String
  subjectStatus : SubjectStatus
  deriving DecidableEq, Repr

def findIdentity (workspaceId environmentId externalSubjectId : String) (s : Store) :
    Option SubjectIdentity :=
  match s.consent.environments environmentId,
      s.consent.memberships (environmentId, externalSubjectId),
      s.consent.subjects externalSubjectId with
  | some environment, some membership, some subject =>
    if environment.workspaceId = workspaceId ∧ membership = environment.workspaceId ∧
        subject.workspaceId = membership then
      some
        { environment := (s.environmentColumns environmentId).environment
          enabled := environment.enabled
          issuerSubject := s.issuerSubjects externalSubjectId
          subjectStatus := subject.status }
    else none
  | _, _, _ => none

/-- A value that is empty counts as none. -/
def truthy (text : Option String) : Option String := text.filter (· ≠ "")

/-- The environment and the issuer's name of the subject. -/
def resolveSubject (workspaceId environmentId externalSubjectId : String) :
    Program (Option (EnvironmentName × String)) := do
  let identity ← Tx.select (findIdentity workspaceId environmentId externalSubjectId)
  match identity with
  | none => pure none
  | some identity =>
    match truthy identity.issuerSubject with
    | none => pure none
    | some issuerSubject =>
      if identity.enabled = false ∨ identity.subjectStatus = .disabled ∨
          identity.subjectStatus = .erased then pure none
      else pure (some (identity.environment, issuerSubject))

def bindingAllows (workspaceId environmentId workflowId : String) (startKind : ActorKind)
    (s : Store) : Option WorkflowBinding :=
  match s.bindings (environmentId, workflowId), s.workflows workflowId with
  | some binding, some workflow =>
    if binding.workspaceId = workspaceId ∧ workflow.workspaceId = binding.workspaceId ∧
        workflow.archivedAt = none ∧ binding.enabled ∧ binding.allowsStart startKind then
      some binding
    else none
  | _, _ => none

def getPublicConversation (workspaceId environmentId : String) (externalSubjectId : Option String)
    (conversationId : String) (s : Store) : Option Conversation :=
  (s.conversations.get? conversationId).filter fun conversation =>
    conversation.workspaceId = workspaceId ∧ conversation.environmentId = environmentId ∧
      externalSubjectId.all (conversation.externalSubjectId = ·)

def getPublicExecution (workspaceId environmentId : String) (externalSubjectId : Option String)
    (executionId : String) (s : Store) : Option Execution :=
  (s.consent.execution executionId).filter fun execution =>
    execution.workspaceId = workspaceId ∧ execution.environmentId = some environmentId ∧
      externalSubjectId.all (execution.externalSubjectRecordId = some ·)

/-! ## Conversations -/

inductive CreateConversationResult
  | created (id : String)
  | existing (id : String)
  | identityInvalid
  | conversationIdentityConflict
  deriving DecidableEq, Repr

def Store.conversationOfThread (environmentId externalThreadKey : String) (s : Store) :
    Option (String × Conversation) :=
  s.conversations.entries.find? fun p =>
    p.2.environmentId = environmentId ∧ p.2.externalThreadKey = some externalThreadKey

def hasIdentity (conversation : Conversation) (identity : ConversationIdentity) : Bool :=
  conversation.toConversationIdentity = identity

def identityExists (identity : ConversationIdentity) (s : Store) : Bool :=
  match s.consent.environments identity.environmentId, s.workflows identity.workflowId,
      s.consent.memberships (identity.environmentId, identity.externalSubjectId) with
  | some environment, some workflow, some membership =>
    let columns := s.environmentColumns identity.environmentId
    environment.workspaceId = identity.workspaceId ∧ workflow.workspaceId = identity.workspaceId ∧
      workflow.applicationId = columns.applicationId ∧ membership = identity.workspaceId ∧
      ((columns.environment = .dev ∧ identity.environment = .draft) ∨
        columns.environment.execution = identity.environment)
  | _, _, _ => false

def Store.insertConversation (id : String) (row : Conversation) (s : Store) : Store :=
  { s with conversations := s.conversations.set id row }

def threadTaken (input : NewConversation) : Program (Option (String × Conversation)) :=
  match input.externalThreadKey with
  | some key => Tx.lockSlot (.thread input.environmentId key)
      (Store.conversationOfThread input.environmentId key)
  | none => pure none

/-- `none` when the insert meets a row in one of the unique indexes. -/
def insertConversation (input : NewConversation) : Program (Option String) := do
  let id ← Tx.receiving Reply.id
  let now ← Tx.receiving Reply.now
  let taken ← threadTaken input
  if taken.isSome then pure none
  else do
    let used ← Tx.lockSlot (.conversation id) fun s => s.conversations.get? id
    if used.isSome then pure none
    else do
      Tx.update (Store.insertConversation id
        { input with status := .active, lastActivityAt := now, updatedAt := now })
      pure (some id)

def existingConversation (input : NewConversation) : Program (Option (String × Conversation)) :=
  match truthy input.externalThreadKey with
  | some key => Tx.select (Store.conversationOfThread input.environmentId key)
  | none => pure none

def racedConversation (input : NewConversation) : Program (Option (String × Conversation)) :=
  match truthy input.externalThreadKey with
  | some key => Tx.select (Store.conversationOfThread input.environmentId key)
  | none => .halt "invalid input syntax for type uuid"

def createConversation (input : NewConversation) : Program CreateConversationResult := do
  let existing ← existingConversation input
  match existing with
  | some (id, row) =>
    pure (if hasIdentity row input.toConversationIdentity then .existing id
      else .conversationIdentityConflict)
  | none => do
    let exists_ ← Tx.select (identityExists input.toConversationIdentity)
    if exists_ = false then pure .identityInvalid
    else do
      let conversation ← insertConversation input
      match conversation with
      | some id => pure (.created id)
      | none => do
        let raced ← racedConversation input
        match raced with
        | none => pure .conversationIdentityConflict
        | some (id, row) =>
          pure (if hasIdentity row input.toConversationIdentity then .existing id
            else .conversationIdentityConflict)

structure CreateConversationInput where
  workspaceId : String
  environmentId : String
  externalSubjectId : String
  workflowId : String
  startKind : ActorKind
  externalThreadKey : Option String
  title : Option String
  metadata : Value
  slot : Slot
  requestHash : String

def createPublicConversation (input : CreateConversationInput) : Program Outcome := do
  let reservation ← reservePublicRequest input.slot input.requestHash
  match reservation with
  | .conflict => pure .idempotencyConflict
  | .replay resourceId => do
    let conversation ← Tx.select (getPublicConversation input.workspaceId input.environmentId
      (some input.externalSubjectId) resourceId)
    match conversation with
    | none => .halt "Idempotent Conversation disappeared"
    | some _ => pure (.replay resourceId)
  | .reserved => do
    let identity ← resolveSubject input.workspaceId input.environmentId input.externalSubjectId
    match identity with
    | none => reject input.slot .resourceNotFound
    | some (environment, _) => do
      let binding ← Tx.select (bindingAllows input.workspaceId input.environmentId input.workflowId
        input.startKind)
      match binding with
      | none => reject input.slot .workflowStartNotAllowed
      | some _ => do
        let result ← createConversation
          { workspaceId := input.workspaceId
            environmentId := input.environmentId
            workflowId := input.workflowId
            externalSubjectId := input.externalSubjectId
            environment := environment.execution
            externalThreadKey := input.externalThreadKey
            title := input.title
            metadata := input.metadata }
        match result with
        | .identityInvalid => reject input.slot .resourceNotFound
        | .conversationIdentityConflict => reject input.slot .conversationIdentityConflict
        | .created id => do
          finalizePublicRequest input.slot id
          pure (.created id)
        | .existing id => do
          finalizePublicRequest input.slot id
          pure (.created id)

/-! ## Executions -/

structure StartExecutionInput where
  workspaceId : String
  environmentId : String
  externalSubjectId : String
  workflowId : String
  conversationId : Option String
  startKind : ActorKind
  triggerPayload : Value
  slot : Slot
  requestHash : String

/-- The conversation of a start has to be an active one of the subject and of the workflow. -/
def conversationFits (input : StartExecutionInput) (s : Store) : Bool :=
  match truthy input.conversationId with
  | none => true
  | some conversationId =>
    match getPublicConversation input.workspaceId input.environmentId
        (some input.externalSubjectId) conversationId s with
    | none => false
    | some conversation =>
      conversation.workflowId = input.workflowId ∧ conversation.status = .active

/-- The published version of the binding, with the schema of its contract. -/
def boundVersion (workflowId : String) (binding : WorkflowBinding) (s : Store) :
    Option ContractRevision :=
  match s.versions binding.workflowVersionId, s.revisions binding.workflowContractRevisionId with
  | some version, some revision =>
    if version.workflowId = workflowId ∧ revision.workflowId = version.workflowId ∧
        version.workflowContractRevisionId = some binding.workflowContractRevisionId ∧
        version.publishedAt.isSome then some revision
    else none
  | _, _ => none

def Store.insertExecution (id : String) (row : Execution) (start : Start) (s : Store) : Store :=
  { s with
    consent := { s.consent with
      executions := Function.update s.consent.executions id (some ⟨row, []⟩) }
    starts := Function.update s.starts id (some start) }

def insertExecution (input : StartExecutionInput) (binding : WorkflowBinding)
    (environment : EnvironmentName) (issuerSubject : String) : Program String := do
  let id ← Tx.receiving Reply.id
  let used ← Tx.lockSlot (.consent (.execution id)) fun s => s.consent.executions id
  if used.isSome then .halt "duplicate key value violates executions_pkey"
  else do
    Tx.update (Store.insertExecution id
      { id
        workspaceId := input.workspaceId
        environmentId := some input.environmentId
        externalSubjectRecordId := some input.externalSubjectId
        conversationId := input.conversationId
        status := .queued
        leasedBy := none
        leaseExpiresAt := none
        startedAt := none
        completedAt := none
        error := none }
      { workflowId := input.workflowId
        workflowVersionId := binding.workflowVersionId
        workflowContractRevisionId := binding.workflowContractRevisionId
        externalSubjectId := issuerSubject
        environment := environment.execution
        triggerPayload := input.triggerPayload
        slot := input.slot })
    pure id

def Store.queueExecution (message : QueuedExecution) (s : Store) : Store :=
  { s with queue := s.queue ++ [message] }

def createWorkflowExecutionMessage (message : QueuedExecution) : Program Unit :=
  Tx.update (Store.queueExecution message)

def startPublicExecution (setting : Setting) (input : StartExecutionInput) : Program Outcome := do
  let reservation ← reservePublicRequest input.slot input.requestHash
  match reservation with
  | .conflict => pure .idempotencyConflict
  | .replay resourceId => do
    let execution ← Tx.select (getPublicExecution input.workspaceId input.environmentId
      (some input.externalSubjectId) resourceId)
    match execution with
    | none => .halt "Idempotent Execution disappeared"
    | some _ => pure (.replay resourceId)
  | .reserved => do
    let identity ← resolveSubject input.workspaceId input.environmentId input.externalSubjectId
    match identity with
    | none => reject input.slot .resourceNotFound
    | some (environment, issuerSubject) => do
      let binding ← Tx.select (bindingAllows input.workspaceId input.environmentId input.workflowId
        input.startKind)
      match binding with
      | none => reject input.slot .workflowStartNotAllowed
      | some binding => do
        let fits ← Tx.select (conversationFits input)
        if fits = false then reject input.slot .resourceNotFound
        else do
          let version ← Tx.select (boundVersion input.workflowId binding)
          match version with
          | none => reject input.slot .workflowBindingIncompatible
          | some revision =>
            match setting.validate revision.inputSchema input.triggerPayload with
            | none => .halt "schema is invalid"
            | some false => reject input.slot .validationFailed
            | some true => do
              let id ← insertExecution input binding environment issuerSubject
              createWorkflowExecutionMessage
                { workspaceId := input.workspaceId, executionId := id, slot := input.slot }
              finalizePublicRequest input.slot id
              pure (.created id)

def Store.insertAuditLog (log : AuditLog) (s : Store) : Store :=
  { s with auditLogs := s.auditLogs ++ [log] }

structure CancelExecutionInput where
  workspaceId : String
  environmentId : String
  executionId : String
  slot : Slot
  requestHash : String

/-- An execution is found by its id, also when it is cancelled. -/
def cancelPublicExecution (input : CancelExecutionInput) : Program Outcome := do
  let reservation ← reservePublicRequest input.slot input.requestHash
  match reservation with
  | .conflict => pure .idempotencyConflict
  | .replay resourceId => do
    let execution ← Tx.select (getPublicExecution input.workspaceId input.environmentId none
      resourceId)
    match execution with
    | none => .halt "Idempotent Execution disappeared"
    | some _ => pure (.cancelled resourceId)
  | .reserved => do
    let cancelledAt ← Tx.receiving Reply.now
    let execution ← Tx.within consentPart (Consent.cancelExecutionWithPendingApproval
      input.workspaceId input.environmentId input.executionId cancelledAt)
    match execution with
    | some _ => do
      Tx.update (Store.insertAuditLog
        { workspaceId := input.workspaceId
          actorEnvironmentKeyId := input.slot.actor.id
          resourceId := input.executionId
          environmentId := input.environmentId
          idempotencyKey := input.slot.idempotencyKey })
      finalizePublicRequest input.slot input.executionId
      pure (.cancelled input.executionId)
    | none => do
      let existing ← Tx.select (getPublicExecution input.workspaceId input.environmentId none
        input.executionId)
      match existing with
      | none => reject input.slot .resourceNotFound
      | some existing =>
        if existing.status = .cancelled then do
          finalizePublicRequest input.slot input.executionId
          pure (.cancelled input.executionId)
        else reject input.slot .executionNotCancellable

/-! ## Messages -/

structure CreateMessageInput where
  workspaceId : String
  environmentId : String
  externalSubjectId : String
  conversationId : String
  content : String
  slot : Slot
  requestHash : String

def Store.messageOfClient (conversationId clientMessageId : String) (s : Store) :
    Option (String × ChatMessage) :=
  s.messages.entries.find? fun p =>
    p.2.conversationId = conversationId ∧ p.2.clientMessageId = some clientMessageId

def Store.insertMessage (id : String) (row : ChatMessage) (s : Store) : Store :=
  { s with messages := s.messages.set id row }

/-- The conversation's last activity, never moved back. -/
def Store.touchConversation (message : ChatMessage) (updatedAt : ℕ) (s : Store) : Store :=
  { s with conversations := s.conversations.mapValues fun id row =>
      if id = message.conversationId ∧ row.workspaceId = message.workspaceId then
        { row with lastActivityAt := max row.lastActivityAt message.createdAt, updatedAt }
      else row }

def createChatMessage (workspaceId conversationId clientMessageId : String)
    (role : ChatMessageRole) (content : String) : Program String := do
  let id ← Tx.receiving Reply.id
  let createdAt ← Tx.receiving Reply.now
  let taken ← Tx.lockSlot (.clientMessage conversationId clientMessageId)
    (Store.messageOfClient conversationId clientMessageId)
  if taken.isSome then
    .halt "duplicate key value violates chat_messages_conversation_client_message_uidx"
  else do
    let used ← Tx.lockSlot (.message id) fun s => s.messages.get? id
    if used.isSome then .halt "duplicate key value violates chat_messages_pkey"
    else do
      let row : ChatMessage :=
        { workspaceId, conversationId, clientMessageId := some clientMessageId, role, content
          createdAt }
      Tx.update (Store.insertMessage id row)
      let updatedAt ← Tx.receiving Reply.now
      Tx.update (Store.touchConversation row updatedAt)
      pure id

def getPublicMessage (workspaceId conversationId messageId : String) (s : Store) :
    Option ChatMessage :=
  (s.messages.get? messageId).filter fun message =>
    message.workspaceId = workspaceId ∧ message.conversationId = conversationId

def createPublicMessage (input : CreateMessageInput) : Program Outcome := do
  let reservation ← reservePublicRequest input.slot input.requestHash
  match reservation with
  | .conflict => pure .idempotencyConflict
  | .replay resourceId => do
    let message ← Tx.select (getPublicMessage input.workspaceId input.conversationId resourceId)
    match message with
    | none => .halt "Idempotent Message disappeared"
    | some _ => pure (.replay resourceId)
  | .reserved => do
    let conversation ← Tx.select (getPublicConversation input.workspaceId input.environmentId
      (some input.externalSubjectId) input.conversationId)
    match conversation.filter fun conversation => conversation.status = .active with
    | none => reject input.slot .resourceNotFound
    | some _ => do
      let id ← createChatMessage input.workspaceId input.conversationId input.slot.idempotencyKey
        .user input.content
      finalizePublicRequest input.slot id
      pure (.created id)

/-! ## Calls -/

section Calls
variable (setting : Setting)

/-- What the service asks of the repository for a call. -/
def Call.perform (call : Call) : Program Outcome :=
  let principal := setting.principal call.actor
  let requestHash := setting.hashPublicRequest call.request
  match call.request with
  | .createConversation externalSubjectId workflowId externalThreadKey title metadata =>
    createPublicConversation
      { workspaceId := principal.workspaceId
        environmentId := principal.environmentId
        startKind := call.actor.kind
        slot := call.slot
        externalSubjectId, workflowId, externalThreadKey, title, metadata, requestHash }
  | .startExecution externalSubjectId workflowId conversationId input =>
    startPublicExecution setting
      { workspaceId := principal.workspaceId
        environmentId := principal.environmentId
        startKind := call.actor.kind
        triggerPayload := input
        slot := call.slot
        externalSubjectId, workflowId, conversationId, requestHash }
  | .cancelExecution executionId =>
    cancelPublicExecution
      { workspaceId := principal.workspaceId
        environmentId := principal.environmentId
        slot := call.slot
        executionId, requestHash }
  | .createMessage conversationId content =>
    createPublicMessage
      { workspaceId := principal.workspaceId
        environmentId := principal.environmentId
        externalSubjectId := principal.externalSubjectId
        slot := call.slot
        conversationId, content, requestHash }

def Store.answered (call : Call) (outcome : Outcome) (s : Store) : Store :=
  { s with answers := s.answers ++ [⟨call, outcome, s.records call.slot⟩] }

/-- The transaction of a call; the answer is noted with it. -/
def Call.transact (call : Call) : Program Unit := Tx.transaction do
  let outcome ← call.perform setting
  Tx.update (Store.answered call outcome)

end Calls
end Linea.PublicRuntime
