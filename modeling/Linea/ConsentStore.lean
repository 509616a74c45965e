import Linea.Execution
import Linea.Approvals
import Linea.Transactions

/-! The rows behind a consented side effect: external subjects, environments, connections and who
may use or review them, Approval Requests with their Decisions, and Action Intents. Beside a row
stand the audit facts and events written with it and, for the statements of the development, a
record of who claimed, dispatched and called. Columns that no modelled function reads are left
out, and so is retention, which redacts intents that have ended. -/
namespace Linea.Consent

inductive SubjectStatus
  | provisioned
  | verified
  | disabled
  | erased
  deriving DecidableEq, Repr

structure ExternalSubject where
  workspaceId : String
  status : SubjectStatus
  deriving DecidableEq, Repr

structure ProviderPolicy where
  provider : String
  maxScopes : List String
  actionFamilies : List String
  deriving DecidableEq, Repr

/-- `providers` is the connector access policy. -/
structure Environment where
  workspaceId : String
  enabled : Bool
  providers : List ProviderPolicy
  deriving DecidableEq, Repr

inductive Ownership
  | personal
  | environment
  deriving DecidableEq, Repr

inductive AuthorizationKind
  | delegatedUser
  | githubAppInstallation
  deriving DecidableEq, Repr

inductive ConnectionStatus
  | active
  | reauthorizationRequired
  | revoked
  deriving DecidableEq, Repr

structure Connection where
  workspaceId : String
  environmentId : String
  externalSubjectId : Option String
  ownership : Ownership
  authorizationKind : AuthorizationKind
  provider : String
  status : ConnectionStatus
  scopes : List String
  credentialEncrypted : Option String
  deriving DecidableEq, Repr

/-- A row of `connection_access_grants` or of `connection_reviewer_assignments`. -/
structure Authorization where
  id : String
  workspaceId : String
  connectionId : String
  revokedAt : Option ℕ
  deriving DecidableEq, Repr

structure EndUserSession where
  workspaceId : String
  environmentId : String
  externalSubjectId : String
  expiresAt : ℕ
  revokedAt : Option ℕ
  deriving DecidableEq, Repr

/-- The columns of an Approval Request that never change. -/
structure Question where
  workspaceId : String
  environmentId : Option String
  executionId : String
  nodeId : String
  audience : ApprovalAudience
  externalSubjectId : Option String
  approverEmails : Option (List String)
  expiresAt : Option ℕ
  timeoutAction : Option ApprovalTimeoutAction
  actionIntentDigest : Option String
  deriving DecidableEq, Repr

structure ApprovalRequest extends Question where
  status : ApprovalRequestStatus
  version : ℕ
  cancelledAt : Option ℕ
  deriving DecidableEq, Repr

inductive DecisionOutcome
  | approved
  | rejected
  deriving DecidableEq, Repr

inductive DecisionActor
  | workspaceMember (userId : String)
  | externalSubject (externalSubjectId endUserSessionId : String)
  | system
  deriving DecidableEq, Repr

inductive DecisionReason
  | human
  | timeout
  deriving DecidableEq, Repr

structure ApprovalDecision where
  id : String
  outcome : DecisionOutcome
  actor : DecisionActor
  reviewerAssignmentId : Option String
  reason : DecisionReason
  comment : Option String
  idempotencyKey : Option String
  decidedAt : ℕ
  deriving DecidableEq, Repr

def ApprovalDecision.actorExternalSubjectId (decision : ApprovalDecision) : Option String :=
  match decision.actor with
  | .externalSubject externalSubjectId _ => some externalSubjectId
  | _ => none

structure RequestRecord where
  row : ApprovalRequest
  decisions : List ApprovalDecision
  deriving DecidableEq, Repr

structure ActionIntentEnvelope where
  operationRevision : String
  connectionId : String
  connector : String
  operation : String
  target : Value
  parameters : Value
  providerPreconditions : Value

structure ConnectorError where
  code : String
  message : String
  outcomeUnknown : Bool
  deriving DecidableEq, Repr

/-- The columns of an Action Intent that never change before it has ended. -/
structure Invocation where
  workspaceId : String
  environmentId : String
  externalSubjectId : String
  connectionId : String
  connectionAccessGrantId : Option String
  executionId : String
  nodeId : String
  approvalRequestId : String
  connector : String
  operationId : String
  operationRevision : String
  digestVersion : String
  canonicalDigest : String
  canonicalEnvelope : ActionIntentEnvelope
  invocationIdempotencyKey : String

structure ActionIntent extends Invocation where
  status : ActionIntentStatus
  executionClaimId : Option String
  dispatchStartedAt : Option ℕ
  providerAttemptCount : ℕ
  normalizedResult : Option Value
  normalizedError : Option ConnectorError
  updatedAt : ℕ

inductive FactType
  | created
  | consentApproved
  | consentRejected
  | ready
  | executing
  | succeeded
  | failed
  | stale
  | rejected
  | cancelled
  | outcomeUnknown
  deriving DecidableEq, Repr

structure AuditFact where
  factType : FactType
  occurredAt : ℕ
  decisionId : Option String
  failureClass : Option String
  deriving DecidableEq, Repr

/-- `action_intent.executed` and `action_intent.failed`. -/
inductive IntentEvent
  | executed
  | failed
  deriving DecidableEq, Repr

/-- The input of `claimApprovedActionIntent` and `beginActionIntentDispatch`. -/
structure ClaimInput where
  actionIntentId : String
  executionClaimId : String
  provider : String
  actionFamily : String
  requiredScopes : List String
  now : ℕ
  deriving DecidableEq, Repr

/-- A client that runs statements; every attempt is another one. -/
abbrev Client := ℕ

/-- A dispatch that `beginActionIntentDispatch` let through; `attempt` is the count it answers. -/
structure Dispatch where
  client : Client
  attempt : ℕ
  input : ClaimInput
  deriving DecidableEq, Repr

/-- One call of the provider operation's `execute`. -/
structure ProviderCall where
  client : Client
  attempt : ℕ
  parameters : Value
  idempotencyKey : String

structure IntentRecord where
  row : ActionIntent
  facts : List AuditFact
  events : List IntentEvent
  claims : List (String × Client)
  dispatches : List Dispatch
  calls : List ProviderCall

/-- `attempts` are the lease holders the execution has had. -/
structure ExecutionRecord where
  row : Execution
  attempts : List String
  deriving DecidableEq, Repr

structure IdempotencyRecord where
  requestHash : String
  resourceId : Option String
  deriving DecidableEq, Repr

/-- `input` of `decideExternalApprovalRequest`. -/
structure ExternalDecisionInput where
  workspaceId : String
  environmentId : String
  externalSubjectId : String
  endUserSessionId : String
  approvalRequestId : String
  outcome : DecisionOutcome
  comment : Option String
  idempotencyKey : String
  now : ℕ
  deriving DecidableEq, Repr

inductive ExternalDecisionResult
  | decided (decision : ApprovalDecision)
  | replay (decision : ApprovalDecision)
  | expired (decision : ApprovalDecision)
  | alreadyDecided
  | cancelled
  | wrongSubject
  | sessionInvalid
  | decisionConflict
  deriving DecidableEq, Repr

/-- What `decideExternalApprovalRequest` returned, with the Decisions that the request then had. -/
structure Answer where
  input : ExternalDecisionInput
  result : ExternalDecisionResult
  decisions : List ApprovalDecision
  deriving DecidableEq, Repr

/-- The two clock readings of a member's decision on a request. -/
structure Reading where
  approvalRequestId : String
  checkedAt : ℕ
  decidedAt : ℕ
  deriving DecidableEq, Repr

/-- Memberships are keyed by environment and subject, grants and reviewer assignments too; the
idempotency records are those of `approval_request.decision`, by session and key. -/
structure Store where
  subjects : String → Option ExternalSubject
  environments : String → Option Environment
  connections : String → Option Connection
  memberships : String × String → Option String
  grants : String × String → List Authorization
  reviewers : String × String → List Authorization
  sessions : String → Option EndUserSession
  executions : String → Option ExecutionRecord
  requests : OrderedMap String RequestRecord
  intents : OrderedMap String IntentRecord
  decisionKeys : String × String → Option IdempotencyRecord
  answers : List Answer
  readings : List Reading

/-- What can be locked: a row, the advisory lock of an execution, or the place of a row that is
being inserted in a unique index. -/
inductive Lock
  | subject (id : String)
  | environment (id : String)
  | connection (id : String)
  | membership (environmentId externalSubjectId : String)
  | session (id : String)
  | request (id : String)
  | execution (id : String)
  | intent (id : String)
  | advisory (executionId : String)
  | requestSlot (executionId nodeId : String)
  | intentSlot (executionId nodeId invocationIdempotencyKey : String)
  | intentRequestSlot (approvalRequestId : String)
  | decisionSlot (endUserSessionId idempotencyKey : String)
  deriving DecidableEq, Repr

end Linea.Consent
