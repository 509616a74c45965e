import Linea.ConsentStore

/-! The statements that the transactions on intents and requests are made of, and the authority
checks of `connection-authority.repository.ts`. -/
namespace Linea.Consent

/-- A clock reading, a generated id, the row that a `limit 1` query finds, whether the workspace has
the member, and what the connector's credential store and provider answer. -/
structure Reply where
  now : ℕ
  id : String
  due : String
  member : Bool
  credential : Option (Option String)
  preconditions : Option Bool
  provider : Except (Option ConnectorError) Value
  aborted : Bool

abbrev Program := Tx Store Lock Reply

/-- `select ... where id = ... for update`: a row that is not there is not locked. -/
def lockRow {α : Type} (lock : Lock) (view : Store → Option α) : Program (Option α) :=
  Tx.selectForUpdate (fun s => if (view s).isSome then [lock] else []) view

/-- An insert takes its place in a unique index unless a row is there. -/
def lockSlot {α : Type} (lock : Lock) (view : Store → Option α) : Program (Option α) :=
  Tx.selectForUpdate (fun s => if (view s).isSome then [] else [lock]) view

namespace Store

def subject (id : String) (s : Store) : Option ExternalSubject := s.subjects id

def request (id : String) (s : Store) : Option RequestRecord := s.requests.get? id

def intent (id : String) (s : Store) : Option IntentRecord := s.intents.get? id

def intentRow (id : String) (s : Store) : Option ActionIntent := (s.intent id).map IntentRecord.row

def requestRow (id : String) (s : Store) : Option ApprovalRequest :=
  (s.request id).map RequestRecord.row

def decisions (requestId : String) (s : Store) : List ApprovalDecision :=
  match s.request requestId with
  | some record => record.decisions
  | none => []

def execution (id : String) (s : Store) : Option Execution :=
  (s.executions id).map ExecutionRecord.row

def setIntent (id : String) (f : IntentRecord → IntentRecord) (s : Store) : Store :=
  { s with intents := s.intents.mapValues fun k record => if k = id then f record else record }

def setRequest (id : String) (f : RequestRecord → RequestRecord) (s : Store) : Store :=
  { s with requests := s.requests.mapValues fun k record => if k = id then f record else record }

def setExecution (id : String) (f : ExecutionRecord → ExecutionRecord) (s : Store) : Store :=
  { s with executions := fun k => if k = id then (s.executions k).map f else s.executions k }

end Store

namespace IntentRecord

def withRow (f : ActionIntent → ActionIntent) (record : IntentRecord) : IntentRecord :=
  { record with row := f record.row }

def withFact (fact : AuditFact) (record : IntentRecord) : IntentRecord :=
  { record with facts := record.facts ++ [fact] }

def withEvent (event : IntentEvent) (record : IntentRecord) : IntentRecord :=
  { record with events := record.events ++ [event] }

end IntentRecord

section Authority

/-- An authorization of the subject for the connection that has not been revoked. -/
def currentAuthorization (authorizations : List Authorization) (connectionId workspaceId : String) :
    Option Authorization :=
  authorizations.find? fun a =>
    a.connectionId = connectionId ∧ a.workspaceId = workspaceId ∧ a.revokedAt = none

/-- The answer `some none` is an owner's, who needs no grant. -/
def getConnectionRequesterAuthority (s : Store) (connectionId : String) (connection : Connection)
    (externalSubjectId : String) : Option (Option String) :=
  match connection.ownership with
  | .personal => if connection.externalSubjectId = some externalSubjectId then some none else none
  | .environment =>
    (currentAuthorization (s.grants (connection.environmentId, externalSubjectId)) connectionId
      connection.workspaceId).map fun grant => some grant.id

/-- A verified subject of the workspace with a membership in the environment. -/
def verifiedMember (s : Store) (workspaceId environmentId externalSubjectId : String) : Bool :=
  (match s.subjects externalSubjectId with
    | some subject => decide (subject.workspaceId = workspaceId ∧ subject.status = .verified)
    | none => false) && (s.memberships (environmentId, externalSubjectId)).isSome

def getConnectionReviewerAuthority (s : Store) (connectionId : String) (connection : Connection)
    (externalSubjectId : String) : Option (Option String) :=
  match connection.ownership with
  | .personal => if connection.externalSubjectId = some externalSubjectId then some none else none
  | .environment =>
    if verifiedMember s connection.workspaceId connection.environmentId externalSubjectId then
      (currentAuthorization (s.reviewers (connection.environmentId, externalSubjectId)) connectionId
        connection.workspaceId).map fun assignment => some assignment.id
    else none

structure ConnectionAuthorityInput where
  workspaceId : String
  environmentId : String
  externalSubjectId : String
  provider : String
  actionFamily : String
  requiredScopes : List String

inductive AuthorityBoundary
  | authorized
  | invalid
  | reauthorizationRequired
  | scopeInsufficient
  deriving DecidableEq, Repr

def connectionOwned (connection : Option Connection) (input : ConnectionAuthorityInput) : Bool :=
  match connection with
  | none => false
  | some c => c.workspaceId = input.workspaceId ∧ c.environmentId = input.environmentId ∧
      (c.ownership = .environment ∨ c.externalSubjectId = some input.externalSubjectId) ∧
      c.provider = input.provider

def providerPolicy (environment : Option Environment) (provider : String) :
    Option ProviderPolicy :=
  environment.bind fun e => e.providers.find? fun candidate => candidate.provider = provider

def connectionMissingScope (connection : Option Connection) (scopes : List String) : Bool :=
  scopes.any fun scope => match connection with
    | none => true
    | some c => scope ∉ c.scopes

def policyAllowsScopes (policy : Option ProviderPolicy) (scopes : List String) : Bool :=
  scopes.all fun scope => match policy with
    | none => false
    | some p => scope ∈ p.maxScopes

def policyAllowsAction (policy : Option ProviderPolicy) (actionFamily : String) : Bool :=
  match policy with
  | none => false
  | some p => actionFamily ∈ p.actionFamilies

def connectionAuthorityBoundary (connection : Option Connection)
    (environment : Option Environment) (input : ConnectionAuthorityInput) : AuthorityBoundary :=
  let policy := providerPolicy environment input.provider
  let owned := connectionOwned connection input
  let status := connection.map Connection.status
  let missing := connectionMissingScope connection input.requiredScopes
  if owned ∧ status = some .reauthorizationRequired then .reauthorizationRequired
  else if owned ∧ status = some .active ∧ policyAllowsAction policy input.actionFamily ∧
      policyAllowsScopes policy input.requiredScopes ∧ missing then .scopeInsufficient
  else if environment.map Environment.enabled ≠ some true ∨ status ≠ some .active ∨
      connection.bind Connection.credentialEncrypted = none ∨ owned = false ∨
      policyAllowsAction policy input.actionFamily = false ∨ missing ∨
      policyAllowsScopes policy input.requiredScopes = false then .invalid
  else .authorized

end Authority

section Audit

/-- `retentionContext`: the environment and the subject, of one workspace. -/
def hasRetentionContext (s : Store) (environmentId externalSubjectId : String) : Bool :=
  match s.environments environmentId, s.subjects externalSubjectId with
  | some environment, some subject => subject.workspaceId = environment.workspaceId
  | _, _ => false

def recordActionIntentFact (id : String) (intent : ActionIntent) (fact : AuditFact) :
    Program Unit := do
  let context ← Tx.select fun s => hasRetentionContext s intent.environmentId intent.externalSubjectId
  if context then Tx.update (Store.setIntent id (.withFact fact))
  else .halt "Connector audit retention context is missing"

/-- The audience of an event is locked before the event is written. -/
def lockAudience (workspaceId environmentId externalSubjectId : String) : Program Unit := do
  let audience ← lockRow (.membership environmentId externalSubjectId) fun s =>
    (s.memberships (environmentId, externalSubjectId)).filter (· = workspaceId)
  match audience with
  | some _ => pure ()
  | none => .halt "Public event audience does not exist"

def createIntentEvent (id : String) (intent : ActionIntent) (event : IntentEvent) :
    Program Unit := do
  lockAudience intent.workspaceId intent.environmentId intent.externalSubjectId
  Tx.update (Store.setIntent id (.withEvent event))

end Audit

/-- `update action_intents set ... where id = ... and guard returning *`. -/
def updateIntent (id : String) (guard : ActionIntent → Bool) (set : IntentRecord → IntentRecord) :
    Program (Option ActionIntent) := do
  let found ← lockRow (.intent id) fun s => (s.intent id).filter fun record => guard record.row
  match found with
  | none => pure none
  | some record => do
    Tx.update (Store.setIntent id set)
    pure (some (set record).row)

end Linea.Consent
