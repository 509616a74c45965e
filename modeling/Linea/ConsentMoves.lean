import Linea.ConsentGateway

/-! What a transaction of the consent store may change while it holds given locks, row by row. -/
namespace Linea.Consent

/-- `strict` is a system in which only the gateway creates and dispatches intents; otherwise every
transaction may be called by anybody with any arguments. -/
structure Setting where
  strict : Bool
  registry : Registry
  hashing : Hashing

def terminalFact : ActionIntentStatus → Option FactType
  | .succeeded => some .succeeded
  | .failed => some .failed
  | .stale => some .stale
  | .rejected => some .rejected
  | .cancelled => some .cancelled
  | .outcomeUnknown => some .outcomeUnknown
  | .awaitingConsent | .ready | .executing => none

def terminalEvent : ActionIntentStatus → Option IntentEvent
  | .succeeded => some .executed
  | .failed | .stale | .outcomeUnknown => some .failed
  | .awaitingConsent | .ready | .executing | .rejected | .cancelled => none

def FactType.terminal : FactType → Bool
  | .succeeded | .failed | .stale | .rejected | .cancelled | .outcomeUnknown => true
  | .created | .consentApproved | .consentRejected | .ready | .executing => false

/-- The operation of the intent must not be tried twice. -/
def Unrepeatable (registry : Registry) (row : ActionIntent) : Prop :=
  ∃ operation, registeredSideEffectOperation registry row.operationId = some operation ∧
    operation.retrySafety = .none

/-- The envelope was made by the registered operation that it names, and the digest is its digest. -/
def Canonical (setting : Setting) (row : ActionIntent) : Prop :=
  row.canonicalEnvelope.operation = row.operationId ∧
    (∀ operation, registeredSideEffectOperation setting.registry row.operationId = some operation →
      operation.parametersSchema row.canonicalEnvelope.parameters =
        some row.canonicalEnvelope.parameters) ∧
    setting.hashing.digestActionIntent row.canonicalEnvelope = some row.canonicalDigest

/-- Everything that has to hold of the rows of an intent for it to be dispatched. -/
structure Consented (s : Store) (intent : ActionIntent) (input : ClaimInput) : Prop where
  request : ∃ request, s.requestRow intent.approvalRequestId = some request ∧
    request.status = .decided ∧ request.actionIntentDigest = some intent.canonicalDigest
  decision : ∃ decision subject session connection,
    s.decisions intent.approvalRequestId = [decision] ∧ decision.outcome = .approved ∧
    decision.reason = .human ∧ decision.actor = .externalSubject subject session ∧
    s.connections intent.connectionId = some connection ∧
    getConnectionReviewerAuthority s intent.connectionId connection subject =
      some decision.reviewerAssignmentId
  connection : ∃ connection, s.connections intent.connectionId = some connection ∧
    connection.status = .active ∧ connection.credentialEncrypted.isSome ∧
    connection.environmentId = intent.environmentId ∧ connection.provider = input.provider ∧
    ∀ scope ∈ input.requiredScopes, scope ∈ connection.scopes
  environment : ∃ environment policy, s.environments intent.environmentId = some environment ∧
    environment.enabled = true ∧ policy ∈ environment.providers ∧
    policy.provider = input.provider ∧ input.actionFamily ∈ policy.actionFamilies ∧
    ∀ scope ∈ input.requiredScopes, scope ∈ policy.maxScopes
  requester : (∃ subject, s.subjects intent.externalSubjectId = some subject ∧
      subject.status = .verified) ∧
    ∃ connection, s.connections intent.connectionId = some connection ∧
      getConnectionRequesterAuthority s intent.connectionId connection intent.externalSubjectId =
        some intent.connectionAccessGrantId
  lease : ∃ execution, s.execution intent.executionId = some execution ∧
    execution.status = .running ∧ execution.leasedBy = some input.executionClaimId ∧
    ∃ expiry, execution.leaseExpiresAt = some expiry ∧ input.now < expiry

def LeasedTo (s : Store) (executionId executionClaimId : String) : Prop :=
  ∃ execution, s.execution executionId = some execution ∧
    execution.leasedBy = some executionClaimId

section Moves
variable (setting : Setting) (c : Client) (held : Set Lock) (s : Store) (id : String)

/-- One change of an intent's record. A fact about the request, and the call itself, need no lock. -/
inductive IntentStep : IntentRecord → IntentRecord → Prop
  | fact {r : IntentRecord} (fact : AuditFact) (hfact : fact.factType.terminal = false) :
    IntentStep r (r.withFact fact)
  | ready {r : IntentRecord} (now : ℕ) (hheld : .intent id ∈ held)
    (hstatus : r.row.status = .awaitingConsent) :
    IntentStep r (r.withRow fun row => { row with status := .ready, updatedAt := now })
  | claim {r : IntentRecord} (executionClaimId : String) (now : ℕ) (hheld : .intent id ∈ held)
    (hstatus : r.row.status = .ready ∨
      r.row.status = .executing ∧ r.row.executionClaimId ≠ some executionClaimId)
    (hlease : LeasedTo s r.row.executionId executionClaimId)
    (hdecided : s.decisions r.row.approvalRequestId ≠ []) :
    IntentStep r (r.claim c executionClaimId now)
  | dispatch {r : IntentRecord} (input : ClaimInput) (hheld : .intent id ∈ held)
    (hstatus : r.row.status = .executing)
    (hclaim : r.row.executionClaimId = some input.executionClaimId)
    (hconsent : Consented s r.row input)
    (hstrict : setting.strict = true → (input.executionClaimId, c) ∈ r.claims ∧
      (Unrepeatable setting.registry r.row → r.dispatches = [])) :
    IntentStep r (r.dispatch c input)
  | call {r : IntentRecord} (call : ProviderCall)
    (hdispatch : ∃ d ∈ r.dispatches, d.client = c ∧ d.attempt = call.attempt)
    (hclient : call.client = c) (hnew : ∀ other ∈ r.calls, other.attempt ≠ call.attempt)
    (hparameters : call.parameters = r.row.canonicalEnvelope.parameters)
    (hkey : call.idempotencyKey = r.row.invocationIdempotencyKey)
    (hdigest : setting.hashing.digestActionIntent r.row.canonicalEnvelope =
      some r.row.canonicalDigest) :
    IntentStep r (r.withCall call)
  | settle {r : IntentRecord} (row : ActionIntent) (event : IntentEvent) (fact : AuditFact)
    (hheld : .intent id ∈ held) (hstatus : r.row.status = .executing)
    (hinvocation : row.toInvocation = r.row.toInvocation)
    (hstarted : row.dispatchStartedAt = r.row.dispatchStartedAt)
    (hcount : row.providerAttemptCount = r.row.providerAttemptCount)
    (hfact : terminalFact row.status = some fact.factType) (hevent : terminalEvent row.status = some event) :
    IntentStep r (({ r with row := row } : IntentRecord).withEvent event |>.withFact fact)
  | withdraw {r : IntentRecord} (row : ActionIntent) (fact : AuditFact)
    (hheld : .intent id ∈ held)
    (hstatus : r.row.status = .awaitingConsent ∨ r.row.status = .ready)
    (hinvocation : row.toInvocation = r.row.toInvocation)
    (hstarted : row.dispatchStartedAt = r.row.dispatchStartedAt)
    (hcount : row.providerAttemptCount = r.row.providerAttemptCount)
    (hfact : terminalFact row.status = some fact.factType) (hevent : terminalEvent row.status = none) :
    IntentStep r (({ r with row := row } : IntentRecord).withFact fact)

/-- A transaction creates an intent, or takes it through steps. -/
inductive IntentMove : Option IntentRecord → Option IntentRecord → Prop
  | absent : IntentMove none none
  | create (r : IntentRecord) (hheld : .intent id ∈ held)
    (hslot : .intentSlot r.row.executionId r.row.nodeId r.row.invocationIdempotencyKey ∈ held)
    (hfree : ∀ other record, s.intent other = some record →
      ¬ (record.row.executionId = r.row.executionId ∧ record.row.nodeId = r.row.nodeId ∧
        record.row.invocationIdempotencyKey = r.row.invocationIdempotencyKey))
    (hstatus : r.row.status = .awaitingConsent)
    (hnew : r.row.dispatchStartedAt = none ∧ r.row.providerAttemptCount = 0 ∧ r.claims = [] ∧
      r.dispatches = [] ∧ r.calls = [] ∧ r.events = [])
    (hfacts : ∀ fact ∈ r.facts, fact.factType.terminal = false)
    (hcanonical : setting.strict = true → Canonical setting r.row) :
    IntentMove none (some r)
  | steps {r r' : IntentRecord}
    (h : Relation.ReflTransGen (IntentStep setting c held s id) r r') :
    IntentMove (some r) (some r')

/-- A request is created pending, and ends once, under its lock. -/
inductive RequestMove : Option RequestRecord → Option RequestRecord → Prop
  | keep {old : Option RequestRecord} : RequestMove old old
  | create (row : ApprovalRequest) (hheld : .request id ∈ held) (hstatus : row.status = .pending)
    (hcancelled : row.cancelledAt = none) : RequestMove none (some ⟨row, []⟩)
  | decide {r : RequestRecord} (decision : ApprovalDecision) (hheld : .request id ∈ held)
    (hstatus : r.row.status = .pending) :
    RequestMove (some r) (some (r.withDecision decision).markDecided)
  | cancel {r : RequestRecord} (now : ℕ) (hheld : .request id ∈ held)
    (hstatus : r.row.status = .pending) : RequestMove (some r) (some (r.cancel now))

/-- A lease is kept, given up, or taken by an attempt that never held it. -/
inductive ExecutionMove : Option ExecutionRecord → Option ExecutionRecord → Prop
  | keep {old : Option ExecutionRecord} : ExecutionMove old old
  | create (e : ExecutionRecord) (hheld : .execution id ∈ held) (hlease : e.row.leasedBy = none) :
    ExecutionMove none (some e)
  | change {e : ExecutionRecord} (row : Execution) (hheld : .execution id ∈ held)
    (hlease : row.leasedBy = none ∨ row.leasedBy = e.row.leasedBy) :
    ExecutionMove (some e) (some { e with row := row })
  | lease {e : ExecutionRecord} (row : Execution) (attempt : String) (hheld : .execution id ∈ held)
    (hnew : attempt ∉ e.attempts) (hlease : row.leasedBy = some attempt) :
    ExecutionMove (some e) (some { row := row, attempts := e.attempts ++ [attempt] })

end Moves

namespace Answer

/-- The caller may not decide on the request. -/
def Refused (answer : Answer) : Prop :=
  answer.result = .wrongSubject ∨ answer.result = .sessionInvalid

/-- The key of the caller's idempotency record. -/
def key (answer : Answer) : String × String :=
  (answer.input.endUserSessionId, answer.input.idempotencyKey)

/-- What an answer says of the Decision that its request then has. The Decision that it gives is the
only one, and was made by this subject under this key with this outcome and comment. -/
structure Faithful (answer : Answer) : Prop where
  given : ∀ decision, answer.result = .decided decision ∨ answer.result = .replay decision →
    answer.decisions = [decision] ∧ isIdenticalRetry decision answer.input = true
  retry : ∀ decision ∈ answer.decisions, isIdenticalRetry decision answer.input = true →
    answer.result = .decided decision ∨ answer.result = .replay decision ∨ answer.Refused
  other : ∀ decision ∈ answer.decisions,
    decision.idempotencyKey = some answer.input.idempotencyKey →
    isIdenticalRetry decision answer.input = false →
    answer.result = .decisionConflict ∨ answer.Refused
  undecided : answer.decisions = [] →
    answer.result = .decisionConflict ∨ answer.result = .cancelled ∨ answer.Refused

/-- A key that has decided does not decide again: a later use of it in the same session gets the
Decision back if it repeats the first, and a conflict if it does not, unless the caller is refused;
on a request that has no Decision it gets none. -/
structure Binds (decision : ApprovalDecision) (first later : Answer) : Prop where
  once : ∀ other, later.result ≠ .decided other
  same : later.input.approvalRequestId = first.input.approvalRequestId →
    isIdenticalRetry decision later.input = true → later.result = .replay decision ∨ later.Refused
  other : later.input.approvalRequestId = first.input.approvalRequestId →
    isIdenticalRetry decision later.input = false →
    later.result = .decisionConflict ∨ later.Refused
  elsewhere : later.decisions = [] →
    later.result = .decisionConflict ∨ later.result = .cancelled ∨ later.Refused

/-- An earlier and a later answer. -/
def Ordered (first later : Answer) : Prop :=
  ∀ decision, first.result = .decided decision → later.key = first.key →
    Binds decision first later

/-- What a commit adds to the answers: a key decides when it has no record. -/
structure Added (s s' : Store) (answer : Answer) : Prop where
  faithful : answer.Faithful
  decisions : answer.decisions = s'.decisions answer.input.approvalRequestId
  reserved : ∀ decision, answer.result = .decided decision →
    s.decisionKeys answer.key = none ∧ (s'.decisionKeys answer.key).isSome

end Answer

/-- A person decides before the request expires, by the clock reading of the Decision or by the one
before it; an external subject that decided is there; a time-out answers nobody's call. -/
structure DecisionSound (s : Store) (id : String) (q : RequestRecord) (d : ApprovalDecision) :
    Prop where
  human : d.reason = .human → q.row.expired d.decidedAt = false ∨ ∃ reading ∈ s.readings,
    reading.approvalRequestId = id ∧ reading.decidedAt = d.decidedAt ∧
      q.row.expired reading.checkedAt = false
  actor : ∀ u session, d.actor = .externalSubject u session → (s.subjects u).isSome
  timeout : d.reason = .timeout → d.idempotencyKey = none

/-- What one commit may change. Grants and reviewer assignments are guarded by the row of their
environment or of their subject; subjects and memberships are not deleted. -/
structure Move (setting : Setting) (c : Client) (held : Set Lock) (s s' : Store) : Prop where
  subjects : ∀ u, .subject u ∉ held → s'.subjects u = s.subjects u
  present : ∀ u, (s.subjects u).isSome → (s'.subjects u).isSome
  environments : ∀ e, .environment e ∉ held → s'.environments e = s.environments e
  connections : ∀ k, .connection k ∉ held → s'.connections k = s.connections k
  memberships : ∀ k w, s.memberships k = some w → s'.memberships k = some w
  grants : ∀ e u, .environment e ∉ held → .subject u ∉ held → s'.grants (e, u) = s.grants (e, u)
  reviewers : ∀ e u, .environment e ∉ held → .subject u ∉ held →
    s'.reviewers (e, u) = s.reviewers (e, u)
  executions : ∀ e, ExecutionMove held e (s.executions e) (s'.executions e)
  requests : ∀ r, RequestMove held r (s.request r) (s'.request r)
  intents : ∀ i, IntentMove setting c held s i (s.intent i) (s'.intent i)
  single : ∀ i j r r', s.intent i = none → s.intent j = none → s'.intent i = some r →
    s'.intent j = some r' → i = j
  decisionKeys : ∀ key record, s'.decisionKeys key = some record →
    s.decisionKeys key = some record ∨ record.resourceId.isSome ∧
      ∃ request outcome comment q, s'.request request = some q ∧ q.row.status = .decided ∧
        record.requestHash = setting.hashing.hashPublicRequest request outcome comment
  slots : ∀ session key, .decisionSlot session key ∉ held →
    s'.decisionKeys (session, key) = s.decisionKeys (session, key)
  kept : ∀ key, (s.decisionKeys key).isSome → (s'.decisionKeys key).isSome
  answers : s'.answers = s.answers ∨
    ∃ answer, s'.answers = s.answers ++ [answer] ∧ answer.Added s s'
  decided : ∀ r q q' d, s.request r = some q → s'.request r = some q' → d ∈ q'.decisions →
    d ∉ q.decisions → DecisionSound s' r q' d
  readings : ∀ reading ∈ s.readings, reading ∈ s'.readings
  read : ∀ reading ∈ s'.readings, reading ∈ s.readings ∨
    ∃ q, s'.request reading.approvalRequestId = some q ∧
      (q.row.expired reading.checkedAt = false →
        ∃ d ∈ q.decisions, d.reason = .human ∧ d.decidedAt = reading.decidedAt)

end Linea.Consent
