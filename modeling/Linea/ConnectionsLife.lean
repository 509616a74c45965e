import Linea.Tables
import Linea.ConnectionsRefused

/-! The life cycle of a connection credential. A world is the tables together with the calls of
`completeAuthorization` that are under way; an action is one transaction of any of the callers, in
any order. Beside the tables stands a record for the statements of the development: which requests
were claimed and which ended, what was staged under which delivery, and what became of a delivery
whose row is gone. -/
namespace Linea.Connections
open Linea.Tables

/-- `plaintext` is the credential as it is serialized. -/
structure ProviderCredential where
  accountId : String
  accountLabel : String
  grantedScopes : List String
  plaintext : String
  deriving DecidableEq, Repr

/-- Where a call of `completeAuthorization` stands: its credential is being exchanged, or staged
under a delivery, or the call has only its failure left to record. -/
inductive Phase
  | exchanging
  | staged (deliveryId : String) (credential : ProviderCredential)
  | failing
  deriving DecidableEq, Repr

structure Attempt where
  request : AuthorizationRequest
  claimedAt : ℕ
  phase : Phase
  deriving DecidableEq, Repr

inductive Ending
  | installed (connectionId : String) (credentialVersion : ℕ)
  | superseded
  | expired
  | erased
  deriving DecidableEq, Repr

/-- `used` are the identifiers drawn so far, `claimed` and `ended` the requests that a call has
claimed and that a call has completed or failed. -/
structure World where
  store : Store
  attempts : List Attempt
  used : List String
  claimed : List String
  ended : List String
  staged : String → Option String
  ending : String → Option Ending

def start (s : Store) : World :=
  { store := s
    attempts := []
    used := s.requests.map (·.id) ++ s.deliveries.map (·.id)
    claimed := []
    ended := []
    staged := fun _ => none
    ending := fun _ => none }

/-- The store after a transaction, with the given ending for every delivery that it deleted. -/
def World.settle (w : World) (store : Store) (ending : String → Ending) : World :=
  { w with
    store
    ending := fun id =>
      if id ∈ w.store.deliveries.map (·.id) ∧ id ∉ store.deliveries.map (·.id) then some (ending id)
      else w.ending id }

/-- The store that a transaction leaves, which is the one before when it throws. -/
def committed {α : Type} (before : Store) : Except String (α × Store) → Store
  | .ok (_,after) => after
  | .error _ => before

inductive Action
  | createRequest (request : AuthorizationRequest)
  | claim (input : ClaimAuthorizationInput)
  | stage (attempt : ℕ) (credential : ProviderCredential) (deliveryId : String) (now : ℕ)
  | complete (attempt : ℕ) (connectionId : String) (actionFamilies requiredScopes : List String)
      (now : ℕ)
  | fail (attempt : ℕ) (completedAt : ℕ)
  | crash (attempt : ℕ)
  | expireRequests (now : ℕ)
  | rotate (owner : ConnectionOwner) (connectionId : String) (expectedCredentialVersion : ℕ)
      (credentialEncrypted : Ciphertext) (now : ℕ)
  | requireReauthorization (owner : ConnectionOwner) (connectionId : String)
      (expectedCredentialVersion : ℕ) (now : ℕ)
  | revoke (owner : ConnectionOwner) (connectionId : String) (input : RevokeInput)
  | claimDelivery (input : ClaimDeliveryInput) (locked : List String)
  | renewDelivery (deliveryId claimedBy : String) (claimExpiresAt : ℕ)
  | completeDelivery (deliveryId claimedBy : String) (deliveredAt : ℕ)
  | failDelivery (deliveryId claimedBy : String) (retryAt : ℕ) (failureClass : String)
  | expireDeliveries (now : ℕ)
  | erase (workspaceId externalSubjectId auditReference : String) (now : ℕ)
  | changeAuthority (environments : List Environment) (subjects : List ExternalSubject)
      (memberships : List ConnectionOwner) (sessions : List EndUserSession)
  deriving DecidableEq, Repr

def authorizationCleanupDelayMs : ℕ := 5 * 60 * 1000
def revocationLifetimeMs : ℕ := 7 * 24 * 60 * 60 * 1000

def stageInput (request : AuthorizationRequest) (credential : ProviderCredential)
    (deliveryId : String) (now : ℕ) : StageInput :=
  { toConnectionOwner := request.toConnectionOwner
    id := deliveryId
    provider := request.provider
    providerAccountId := credential.accountId
    credentialEncrypted := encryptCredential credential.plaintext
      { workspaceId := request.workspaceId
        environmentId := request.environmentId
        externalSubjectId := some request.externalSubjectId
        recordId := deliveryId
        provider := request.provider ++ ":revocation" }
    availableAt := now + authorizationCleanupDelayMs
    expiresAt := now + revocationLifetimeMs
    now }

def completeInput (attempt : Attempt) (deliveryId : String) (credential : ProviderCredential)
    (connectionId : String) (actionFamilies requiredScopes : List String) (now : ℕ) :
    CompleteAuthorizationInput :=
  { authorizationRequestId := attempt.request.id
    claimedAt := attempt.claimedAt
    connectionId
    providerAccountId := credential.accountId
    accountLabel := credential.accountLabel
    grantedScopes := credential.grantedScopes
    actionFamilies
    requiredScopes
    credentialPlaintext := credential.plaintext
    revocationDeliveryId := deliveryId
    now }

/-- The credential staged under the delivery is in the connection, whatever became of its row. -/
def World.installed (w : World) (deliveryId : String) (connection : Connection) : World :=
  { w with
    ending := Function.update w.ending deliveryId
      (some (.installed connection.id connection.credentialVersion)) }

def World.failing (w : World) (i : ℕ) (attempt : Attempt) : World :=
  { w with attempts := w.attempts.set i { attempt with phase := .failing } }

section Step
variable (localeCompare : String → String → ℤ)

/-- The completion of a staged attempt. -/
def World.complete (w : World) (i : ℕ) (attempt : Attempt) (deliveryId : String)
    (input : CompleteAuthorizationInput) : World :=
  match completeConnectionAuthorizationRequest localeCompare w.store input with
  | .ok (.completed connection,store) =>
    { (w.settle store fun _ => .superseded).installed deliveryId connection with
      attempts := w.attempts.eraseIdx i
      ended := w.ended ++ [attempt.request.id] }
  | .ok (.invalid,store) => (w.settle store fun _ => .superseded).failing i attempt
  | .error _ => w.failing i attempt

/-- An action that is not enabled has no result. Identifiers that the code draws are new. -/
def World.step (w : World) : Action → Option World
  | .createRequest request =>
    if request.id ∈ w.used ∨ request.claimedAt.isSome ∨ request.completedAt.isSome then none
    else some { w with
      store := { w.store with requests := w.store.requests ++ [request] }
      used := request.id :: w.used }
  | .claim input =>
    match claimConnectionAuthorizationRequest w.store input with
    | (none,_) => some w
    | (some request,store) => some { w with
        store
        attempts := w.attempts ++ [⟨request,input.now,.exchanging⟩]
        claimed := w.claimed ++ [request.id] }
  | .stage i credential deliveryId now =>
    match w.attempts[i]? with
    | some ⟨request,claimedAt,.exchanging⟩ =>
      if deliveryId ∈ w.used then none
      else match stageAuthorizationCredentialRevocation w.store
          (stageInput request credential deliveryId now) with
        | .ok store => some { w with
            store
            attempts := w.attempts.set i ⟨request,claimedAt,.staged deliveryId credential⟩
            used := deliveryId :: w.used
            staged := Function.update w.staged deliveryId (some credential.plaintext) }
        | .error _ => some w
    | _ => none
  | .complete i connectionId actionFamilies requiredScopes now =>
    match w.attempts[i]? with
    | some ⟨request,claimedAt,.staged deliveryId credential⟩ =>
      some (w.complete localeCompare i ⟨request,claimedAt,.staged deliveryId credential⟩ deliveryId
        (completeInput ⟨request,claimedAt,.staged deliveryId credential⟩ deliveryId credential
          connectionId actionFamilies requiredScopes now))
    | _ => none
  | .fail i completedAt =>
    match w.attempts[i]? with
    | some attempt =>
      let failed := failConnectionAuthorizationRequest w.store
        ⟨attempt.request.id,attempt.claimedAt,completedAt⟩
      some { w with
        store := failed.2
        attempts := w.attempts.eraseIdx i
        ended := if failed.1 then w.ended ++ [attempt.request.id] else w.ended }
    | none => none
  | .crash i => some { w with attempts := w.attempts.eraseIdx i }
  | .expireRequests now =>
    some { w with store := (deleteExpiredConnectionAuthorizationRequests w.store now).2 }
  | .rotate owner connectionId expected credential now =>
    some { w with
      store := committed w.store
        (rotateConnectionCredential w.store owner connectionId expected credential now) }
  | .requireReauthorization owner connectionId expected now =>
    some { w with
      store := committed w.store
        (requireConnectionReauthorization w.store owner connectionId expected now) }
  | .revoke owner connectionId input =>
    if input.deliveryId.any (· ∈ w.used) then none
    else some { w with
      store := committed w.store (revokeConnection w.store owner connectionId input)
      used := input.deliveryId.toList ++ w.used }
  | .claimDelivery input locked =>
    some { w with store := (claimRevocationDelivery w.store input locked).2 }
  | .renewDelivery deliveryId claimedBy claimExpiresAt =>
    some { w with
      store := (renewRevocationDeliveryClaim w.store deliveryId claimedBy claimExpiresAt).2 }
  | .completeDelivery deliveryId claimedBy deliveredAt =>
    some { w with
      store := committed w.store
        (completeRevocationDelivery w.store deliveryId claimedBy deliveredAt) }
  | .failDelivery deliveryId claimedBy retryAt failureClass =>
    some { w with
      store :=
        (recordRevocationDeliveryFailure w.store deliveryId claimedBy retryAt failureClass).2 }
  | .expireDeliveries now =>
    some (w.settle (committed w.store (deleteExpiredRevocationDeliveries w.store now))
      fun _ => .expired)
  | .erase workspaceId externalSubjectId auditReference now =>
    some (w.settle (committed w.store
      (eraseExternalSubject w.store workspaceId externalSubjectId auditReference now))
        fun _ => .erased)
  | .changeAuthority environments subjects memberships sessions =>
    some { w with store := { w.store with environments, subjects, memberships, sessions } }

end Step

end Linea.Connections
