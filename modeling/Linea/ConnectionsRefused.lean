import Linea.Connections

/-! What a refused authorization leaves behind. `completeConnectionAuthorizationRequest` answers
`invalid` from checks on both sides of `fenceGoogleRevocations`, and the transaction commits
either way. -/
namespace Linea.Connections

/-- The keys of the schema that an audit fact of a connection relies on. -/
structure Referential (s : Store) : Prop where
  environment : ∀ connection ∈ s.connections, ∃ environment ∈ s.environments,
    environment.id = connection.environmentId ∧ environment.workspaceId = connection.workspaceId
  subject : ∀ connection ∈ s.connections, ∀ externalSubjectId,
    connection.externalSubjectId = some externalSubjectId → ∃ subject ∈ s.subjects,
      subject.id = externalSubjectId ∧ subject.workspaceId = connection.workspaceId
  key : ∀ environment ∈ s.environments, ∀ other ∈ s.environments,
    environment.id = other.id → environment = other

lemma Referential.retentionContext {s : Store} (h : Referential s) {connection : Connection}
    (hmem : connection ∈ s.connections) :
    ∃ context, retentionContext s connection.environmentId connection.externalSubjectId
      = .ok context := by
  obtain ⟨environment,hmemEnv,hid,hworkspace⟩ := h.environment connection hmem
  obtain ⟨found,hfound⟩ : ∃ found, s.environments.find? (·.id = connection.environmentId)
      = some found := by
    rw [← Option.isSome_iff_exists,List.find?_isSome]
    exact ⟨environment,hmemEnv,by simpa using hid⟩
  have hsame : found = environment := by
    refine h.key found (List.mem_of_find?_eq_some hfound) environment hmemEnv ?_
    rw [hid]
    simpa using List.find?_some hfound
  cases hsubject : connection.externalSubjectId with
  | none => exact ⟨_,by simp only [Connections.retentionContext,hfound]; rfl⟩
  | some externalSubjectId =>
    obtain ⟨subject,hmemSubject,hsid,hsworkspace⟩ := h.subject connection hmem _ hsubject
    obtain ⟨row,hrow⟩ : ∃ row, (s.subjects.find? fun subject =>
        subject.workspaceId = found.workspaceId ∧ subject.id = externalSubjectId) = some row := by
      rw [← Option.isSome_iff_exists,List.find?_isSome]
      exact ⟨subject,hmemSubject,by simp [hsame,hsid,hsworkspace,hworkspace]⟩
    exact ⟨_,by simp only [Connections.retentionContext,hfound,hrow]; rfl⟩

lemma recordConnectionFact_ok {s s' : Store} {input : FactInput}
    (h : recordConnectionFact s input = .ok s') :
    ∃ fact, s' = { s with facts := s.facts ++ [fact] } := by
  unfold recordConnectionFact at h
  split at h
  · cases h
    exact ⟨_,rfl⟩
  · cases h

lemma recordConnectionFacts_ok {inputs : List FactInput} : ∀ {s s' : Store},
    recordConnectionFacts s inputs = .ok s' →
    ∃ facts, s' = { s with facts := s.facts ++ facts } ∧ facts.length = inputs.length := by
  induction inputs with
  | nil =>
    intro s s' h
    cases h
    exact ⟨[],by simp⟩
  | cons input inputs ih =>
    intro s s' h
    simp only [recordConnectionFacts] at h
    split at h
    case h_1 s₁ hs₁ =>
      obtain ⟨fact,rfl⟩ := recordConnectionFact_ok hs₁
      obtain ⟨facts,rfl,hlen⟩ := ih h
      exact ⟨fact :: facts,by simp,by simp [hlen]⟩
    case h_2 => cases h

/-- The facts of connections that are in the table can always be recorded. -/
lemma Referential.recordConnectionFacts {inputs : List FactInput} : ∀ {s : Store}, Referential s →
    (∀ input ∈ inputs, input.connection ∈ s.connections) →
    ∃ s', recordConnectionFacts s inputs = .ok s' := by
  induction inputs with
  | nil => exact fun _ _ => ⟨_,rfl⟩
  | cons input inputs ih =>
    intro s h hmem
    obtain ⟨context,hcontext⟩ := h.retentionContext (hmem input (by simp))
    have hhead : recordConnectionFact s input
        = .ok { s with facts := s.facts ++ [connectionFact input context] } := by
      simp only [recordConnectionFact,hcontext]
    simp only [Connections.recordConnectionFacts,hhead]
    refine ih ⟨h.environment,h.subject,h.key⟩ fun next hnext => ?_
    exact hmem next (List.mem_cons_of_mem _ hnext)

lemma destroyedFacts_connection {s : Store} {deliveries : List RevocationDelivery}
    {occurredAt : ℕ} {outcome : String} {failureClass : RevocationDelivery → Option String}
    {input : FactInput} (h : input ∈ destroyedFacts s deliveries occurredAt outcome failureClass) :
    input.connection ∈ s.connections := by
  simp only [destroyedFacts,List.mem_filterMap,bind,Option.bind_eq_some_iff] at h
  obtain ⟨delivery,-,connectionId,-,connection,hfind,hinput⟩ := h
  cases hinput
  exact List.mem_of_find?_eq_some hfind

/-- Another delivery of the account that is still to be sent. -/
def superseded (request : AuthorizationRequest) (input : CompleteAuthorizationInput)
    (delivery : RevocationDelivery) : Bool :=
  grantDelivery request input.providerAccountId delivery &&
    delivery.id ≠ input.revocationDeliveryId && delivery.deliveredAt.isNone

/-- Another delivery of the account that keeps it from being connected now. -/
def fencesOff (request : AuthorizationRequest) (input : CompleteAuthorizationInput)
    (delivery : RevocationDelivery) : Bool :=
  grantDelivery request input.providerAccountId delivery &&
    delivery.id ≠ input.revocationDeliveryId && blocksGrant request delivery

/-- The store after the pending deliveries of the account were superseded. -/
def supersede (s : Store) (request : AuthorizationRequest) (input : CompleteAuthorizationInput)
    (facts : List ConnectorAuditFact) : Store :=
  { s with
    facts := s.facts ++ facts
    deliveries := s.deliveries.filter fun delivery =>
      delivery.id ∉ (s.deliveries.filter (superseded request input)).map (·.id) }

section Fence
variable {s s' : Store} {request : AuthorizationRequest} {input : CompleteAuthorizationInput}

/-- The fence in terms of all deliveries of the table. -/
lemma fenceGoogleRevocations_eq (hgoogle : request.provider = "google") :
    fenceGoogleRevocations s request input.providerAccountId input.revocationDeliveryId input.now
      = if s.deliveries.any (fencesOff request input) then .ok (false,s)
        else (recordConnectionFacts s (destroyedFacts s
          (s.deliveries.filter (superseded request input)) input.now "superseded" fun _ => none)).map
            fun recorded => (true,{ recorded with
              deliveries := recorded.deliveries.filter fun delivery =>
                delivery.id ∉ (s.deliveries.filter (superseded request input)).map (·.id) }) := by
  have hpending : (s.deliveries.filter (grantDelivery request input.providerAccountId)).filter
      (fun delivery => delivery.id ≠ input.revocationDeliveryId && delivery.deliveredAt.isNone)
      = s.deliveries.filter (superseded request input) := by
    rw [List.filter_filter]
    refine List.filter_congr fun delivery _ => ?_
    rw [superseded,Bool.and_comm,Bool.and_assoc]
  have hblocked : (s.deliveries.filter (grantDelivery request input.providerAccountId)).any
      (fun delivery => delivery.id ≠ input.revocationDeliveryId && blocksGrant request delivery)
      = s.deliveries.any (fencesOff request input) := by
    rw [List.any_filter]
    congr 1
    funext delivery
    simp only [fencesOff,Bool.and_assoc]
  simp only [fenceGoogleRevocations,hgoogle,ne_eq,not_true_eq_false,if_false,hpending,hblocked]
  split
  · rfl
  · cases Connections.recordConnectionFacts s _ <;> rfl

/-- Everything that the fence can do. -/
lemma fenceGoogleRevocations_cases {answer : Bool}
    (h : fenceGoogleRevocations s request input.providerAccountId input.revocationDeliveryId
      input.now = .ok (answer,s')) :
    (request.provider ≠ "google" ∧ answer = true ∧ s' = s) ∨
    (request.provider = "google" ∧ s.deliveries.any (fencesOff request input) = true ∧
      answer = false ∧ s' = s) ∨
    (request.provider = "google" ∧ s.deliveries.any (fencesOff request input) = false ∧
      answer = true ∧ ∃ facts, s' = supersede s request input facts ∧
        facts.length ≤ (s.deliveries.filter (superseded request input)).length) := by
  by_cases hgoogle : request.provider = "google"
  · rw [fenceGoogleRevocations_eq hgoogle] at h
    right
    cases hany : s.deliveries.any (fencesOff request input) with
    | true =>
      left
      rw [hany,if_pos rfl] at h
      cases h
      exact ⟨hgoogle,rfl,rfl,rfl⟩
    | false =>
      right
      rw [hany,if_neg (by simp)] at h
      cases hrecord : Connections.recordConnectionFacts s (destroyedFacts s
          (s.deliveries.filter (superseded request input)) input.now "superseded"
            fun _ => none) with
      | error message =>
        rw [hrecord] at h
        cases h
      | ok recorded =>
        rw [hrecord] at h
        cases h
        obtain ⟨facts,rfl,hlen⟩ := recordConnectionFacts_ok hrecord
        refine ⟨hgoogle,rfl,rfl,facts,rfl,?_⟩
        rw [hlen]
        exact List.length_filterMap_le _ _
  · left
    simp only [fenceGoogleRevocations,ne_eq,hgoogle,not_false_eq_true,if_true] at h
    cases h
    exact ⟨hgoogle,rfl,rfl⟩

lemma Referential.fenceGoogleRevocations (hrefs : Referential s)
    (hgoogle : request.provider = "google")
    (hany : s.deliveries.any (fencesOff request input) = false) :
    ∃ facts, Connections.fenceGoogleRevocations s request input.providerAccountId
      input.revocationDeliveryId input.now = .ok (true,supersede s request input facts) := by
  obtain ⟨recorded,hrecord⟩ : ∃ recorded, Connections.recordConnectionFacts s (destroyedFacts s
      (s.deliveries.filter (superseded request input)) input.now "superseded" fun _ => none)
        = .ok recorded :=
    hrefs.recordConnectionFacts fun _ hfact => destroyedFacts_connection hfact
  obtain ⟨facts,rfl,-⟩ := recordConnectionFacts_ok hrecord
  refine ⟨facts,?_⟩
  rw [fenceGoogleRevocations_eq hgoogle,hany,if_neg (by simp),hrecord]
  rfl

/-- The later checks read the connections only. -/
lemma refuses_supersede {facts : List ConnectorAuditFact} :
    refuses (supersede s request input facts) request input = refuses s request input := rfl

/-- Superseding a delivery removes a row. -/
lemma supersede_ne {facts : List ConnectorAuditFact}
    (h : s.deliveries.any (superseded request input) = true) :
    supersede s request input facts ≠ s := by
  intro heq
  obtain ⟨delivery,hmem,hsuper⟩ := List.any_eq_true.mp h
  have hkept : delivery ∈ (supersede s request input facts).deliveries := by
    rw [heq]
    exact hmem
  have hgone := (List.mem_filter.mp hkept).2
  simp only [List.mem_map,List.mem_filter,decide_not,Bool.not_eq_true',decide_eq_false_iff_not]
    at hgone
  exact hgone ⟨delivery,⟨hmem,hsuper⟩,rfl⟩

lemma supersede_eq (h : s.deliveries.any (superseded request input) = false)
    {facts : List ConnectorAuditFact}
    (hfacts : facts.length ≤ (s.deliveries.filter (superseded request input)).length) :
    supersede s request input facts = s := by
  have hnone : s.deliveries.filter (superseded request input) = [] := by
    rw [List.filter_eq_nil_iff]
    exact fun delivery hmem => by simpa using List.any_eq_false.mp h delivery hmem
  rw [hnone] at hfacts
  have hnil : facts = [] := List.length_eq_zero_iff.mp (Nat.le_zero.mp hfacts)
  simp [supersede,hnone,hnil]

end Fence

/-- A claimed and authorized Google request finds nothing that keeps its account from being
connected, but another delivery of the account that is still to be sent, and is then refused for
its target or its scopes. -/
def RefusedPastFence (localeCompare : String → String → ℤ) (s : Store)
    (input : CompleteAuthorizationInput) : Prop :=
  ∃ request, claimedRequest s input = some request ∧
    authorizes localeCompare s request input = true ∧ request.provider = "google" ∧
    s.deliveries.any (fencesOff request input) = false ∧
    s.deliveries.any (superseded request input) = true ∧ refuses s request input = true

section Refused
variable {localeCompare : String → String → ℤ} {s s' : Store} {input : CompleteAuthorizationInput}

lemma installConnection_completed {request : AuthorizationRequest}
    {result : CompleteAuthorizationResult} (h : installConnection s request input = .ok (result,s')) :
    result ≠ .invalid := by
  simp only [installConnection,bind,Except.bind] at h
  split at h
  · cases h
  · split at h
    · split at h
      · cases h
      · cases h
        simp
    · cases h

lemma complete_refused (hrefs : Referential s) (h : RefusedPastFence localeCompare s input) :
    ∃ s', completeConnectionAuthorizationRequest localeCompare s input = .ok (.invalid,s') ∧
      s' ≠ s := by
  obtain ⟨request,hrequest,hauthorizes,hgoogle,hany,hsuper,hrefuses⟩ := h
  obtain ⟨facts,hfence⟩ := hrefs.fenceGoogleRevocations hgoogle hany
  refine ⟨supersede s request input facts,?_,supersede_ne hsuper⟩
  simp only [completeConnectionAuthorizationRequest,hrequest,hauthorizes,hfence,refuses_supersede,
    hrefuses,Bool.not_true,Bool.false_eq_true,if_false,if_true]

lemma complete_invalid
    (h : completeConnectionAuthorizationRequest localeCompare s input = .ok (.invalid,s'))
    (hfence : ¬ RefusedPastFence localeCompare s input) : s' = s := by
  unfold completeConnectionAuthorizationRequest at h
  split at h
  case h_1 =>
    cases h
    rfl
  case h_2 request hrequest =>
    split at h
    case isTrue =>
      cases h
      rfl
    case isFalse hauthorizes =>
      split at h
      case h_1 => cases h
      case h_2 fenced hfenced =>
        cases h
        obtain ⟨-,hanswer,-⟩ | ⟨-,-,-,rfl⟩ | ⟨-,-,hanswer,-⟩ :=
          fenceGoogleRevocations_cases hfenced
        · cases hanswer
        · rfl
        · cases hanswer
      case h_3 fenced hfenced =>
        split at h
        case isFalse => exact absurd rfl (installConnection_completed h)
        case isTrue hrefuses =>
          cases h
          obtain ⟨-,-,rfl⟩ | ⟨-,-,hanswer,-⟩ | ⟨hgoogle,hany,-,facts,rfl,hfacts⟩ :=
            fenceGoogleRevocations_cases hfenced
          · rfl
          · cases hanswer
          · refine supersede_eq (by_contra fun hsuper => hfence ?_) hfacts
            exact ⟨request,hrequest,by simpa using hauthorizes,hgoogle,hany,
              by simpa using hsuper,hrefuses⟩

/-- A completion that answers `invalid` leaves every table as it was, unless it is refused only
after the pending revocations of the account were superseded. -/
theorem completeConnectionAuthorizationRequest_invalid (hrefs : Referential s) :
    (∀ s', completeConnectionAuthorizationRequest localeCompare s input = .ok (.invalid,s') →
      s' = s) ↔ ¬ RefusedPastFence localeCompare s input := by
  constructor
  · intro h hrefused
    obtain ⟨s',hinvalid,hne⟩ := complete_refused hrefs hrefused
    exact hne (h s' hinvalid)
  · exact fun hfence s' h => complete_invalid h hfence

end Refused

/-! A subject who revoked the account `ann` re-authorizes the connection of `ben`, but signs in as
`ann` again. -/

def annOwner : ConnectionOwner := ⟨"w","e","u"⟩

def annRevocation (id : String) (connectionId : Option String) : RevocationDelivery :=
  { toConnectionOwner := annOwner, id, connectionId, provider := "google"
    providerAccountId := some "ann"
    credentialEncrypted := some ⟨"token",⟨"w","e",some "u",id,"google:revocation"⟩⟩
    expiresAt := 900, availableAt := 100, attemptCount := 0, lastAttemptAt := none
    lastFailureClass := none, claimedBy := none, claimExpiresAt := none, deliveredAt := none
    createdAt := 30 }

def benConnection (id providerAccountId : String) (status : Consent.ConnectionStatus)
    (revokedAt : Option ℕ) : Connection :=
  { id, workspaceId := "w", environmentId := "e", externalSubjectId := some "u"
    provider := "google", providerAccountId, accountLabel := providerAccountId, status
    scopes := ["mail"], credentialEncrypted := none, credentialVersion := 2, createdAt := 10
    updatedAt := 30, revokedAt }

/-- `pending` are the deliveries beside the staged one. -/
def switchedAccount (pending : List RevocationDelivery) : Store :=
  { environments := [⟨"e","w",true,[⟨"google",["mail"],["send"]⟩],30⟩]
    subjects := [⟨"u","w",.verified,"ref"⟩]
    memberships := [annOwner]
    sessions := [⟨annOwner,"session",900,none⟩]
    requests := [
      { toConnectionOwner := annOwner, id := "request", endUserSessionId := some "session"
        provider := "google", scopes := ["mail"], stateHash := "state"
        codeVerifierEncrypted := some "verifier", targetConnectionId := some "ben"
        resultConnectionId := none, outcome := none, expiresAt := 900, claimedAt := some 50
        completedAt := none, createdAt := 40 }]
    connections := [benConnection "ann" "ann" .revoked (some 30),
      benConnection "ben" "ben" .reauthorizationRequired none]
    deliveries := pending ++ [annRevocation "staged" none]
    facts := [] }

def switchedInput : CompleteAuthorizationInput :=
  { authorizationRequestId := "request", claimedAt := 50, connectionId := "new"
    providerAccountId := "ann", accountLabel := "ann", grantedScopes := ["mail"]
    actionFamilies := ["send"], requiredScopes := ["mail"], credentialPlaintext := "token"
    revocationDeliveryId := "staged", now := 60 }

def compareText (left right : String) : ℤ := if left < right then -1 else if right < left then 1 else 0

lemma switchedAccount_referential (pending : List RevocationDelivery) :
    Referential (switchedAccount pending) := by
  constructor <;> simp [switchedAccount,benConnection]

/-- The refusal destroys the revocation of the account that the subject had revoked, and says so
in a fact. -/
theorem complete_refused_destroys :
    Referential (switchedAccount [annRevocation "pending" (some "ann")]) ∧
    ∃ s', completeConnectionAuthorizationRequest compareText
        (switchedAccount [annRevocation "pending" (some "ann")]) switchedInput
          = .ok (.invalid,s') ∧
      s'.deliveries = [annRevocation "staged" none] ∧
      s'.facts.map (fun fact => (fact.factType,fact.outcome))
        = [(.revocationPayloadDestroyed,some "superseded")] :=
  ⟨switchedAccount_referential _,_,rfl,rfl,rfl⟩

theorem complete_refused_keeps :
    Referential (switchedAccount []) ∧
    (∃ s', completeConnectionAuthorizationRequest compareText (switchedAccount []) switchedInput
      = .ok (.invalid,s')) ∧
    ∀ s', completeConnectionAuthorizationRequest compareText (switchedAccount []) switchedInput
      = .ok (.invalid,s') → s' = switchedAccount [] := by
  refine ⟨switchedAccount_referential _,⟨_,rfl⟩,?_⟩
  rw [completeConnectionAuthorizationRequest_invalid (switchedAccount_referential _)]
  rintro ⟨request,-,-,-,-,hsuper,-⟩
  simp [switchedAccount,superseded,annRevocation,switchedInput] at hsuper

end Linea.Connections
