import Linea.ConsentCreation

/-! Who may see an Approval Request is who may decide it. The listings ask
`externalApprovalEligibility`, a condition over five tables; a decision asks
`getApprovalReviewerAuthority`, a sequence of reads. -/
namespace Linea.Consent

section Eligibility

/-- `action_intents a JOIN connections c ON c.id = a.connection_id`, for one request. -/
def linkedConnections (s : Store) (approvalRequestId : String) : List (String × Connection) :=
  s.intents.entries.filterMap fun p =>
    if p.2.row.approvalRequestId = approvalRequestId then
      (s.connections p.2.row.connectionId).map fun c => (p.2.row.connectionId, c)
    else none

/-- An assignment that is not revoked, in the request's workspace and environment, of a verified
subject that is a member of the environment. -/
def eligibleReviewer (s : Store) (externalSubjectId : String) (request : ApprovalRequest)
    (connectionId : String) : Bool :=
  match request.environmentId with
  | none => false
  | some environmentId =>
    ((s.reviewers (environmentId, externalSubjectId)).any fun r =>
      r.connectionId = connectionId ∧ r.workspaceId = request.workspaceId ∧ r.revokedAt = none) &&
    ((s.subjects externalSubjectId).any fun subject => subject.status = .verified) &&
    (s.memberships (environmentId, externalSubjectId)).isSome

def externalApprovalEligibility (s : Store) (externalSubjectId approvalRequestId : String)
    (request : ApprovalRequest) : Bool :=
  (request.externalSubjectId = some externalSubjectId &&
    !((linkedConnections s approvalRequestId).any fun p => p.2.ownership = .environment)) ||
  (linkedConnections s approvalRequestId).any fun p =>
    p.2.ownership = .environment && eligibleReviewer s externalSubjectId request p.1

end Eligibility

section Equivalence
variable {s : Store} {approvalRequestId externalSubjectId : String} {request : ApprovalRequest}

theorem mem_linkedConnections {p : String × Connection} :
    p ∈ linkedConnections s approvalRequestId ↔ ∃ i row, s.intentRow i = some row ∧
      row.approvalRequestId = approvalRequestId ∧ row.connectionId = p.1 ∧
      s.connections p.1 = some p.2 := by
  obtain ⟨k, c⟩ := p
  constructor
  · intro h
    obtain ⟨⟨i, r⟩, hmem, hp⟩ := List.mem_filterMap.mp h
    split at hp
    · rename_i hid
      obtain ⟨c', hc', heq⟩ := Option.map_eq_some_iff.mp hp
      cases heq
      refine ⟨i, r.row, ?_, hid, rfl, hc'⟩
      simp only [Store.intentRow, Store.intent, OrderedMap.get?_iff_mem.mpr hmem, Option.map_some]
    · cases hp
  · rintro ⟨i, row, hrow, hid, hk, hc⟩
    obtain ⟨r, hr, rfl⟩ := Option.map_eq_some_iff.mp hrow
    refine List.mem_filterMap.mpr ⟨(i, r), OrderedMap.get?_iff_mem.mp hr, ?_⟩
    dsimp only at hk hc ⊢
    rw [if_pos hid, hk, hc]
    rfl

theorem intentOfRequest_some {i : String} {row : ActionIntent}
    (h : s.intentOfRequest approvalRequestId = some (i, row)) :
    s.intentRow i = some row ∧ row.approvalRequestId = approvalRequestId := by
  obtain ⟨⟨i, r⟩, hfind, heq⟩ := Option.map_eq_some_iff.mp h
  cases heq
  have hid := List.find?_some hfind
  refine ⟨?_, by simpa using hid⟩
  simp only [Store.intentRow, Store.intent,
    OrderedMap.get?_iff_mem.mpr (List.mem_of_find?_eq_some hfind), Option.map_some]

theorem intentOfRequest_none (h : s.intentOfRequest approvalRequestId = none) {i : String}
    {row : ActionIntent} (hi : s.intentRow i = some row) :
    row.approvalRequestId ≠ approvalRequestId := by
  obtain ⟨r, hr, rfl⟩ := Option.map_eq_some_iff.mp hi
  have hnone := List.find?_eq_none.mp (Option.map_eq_none_iff.mp h) (i, r)
    (OrderedMap.get?_iff_mem.mp hr)
  simpa using hnone

theorem invocation_of_row {i : String} {row : ActionIntent} (h : s.intentRow i = some row) :
    s.invocation i = some row.toInvocation := by
  rw [Store.invocation, h]
  rfl

/-- Without an intent, both ask whether the request is the subject's own. -/
theorem eligible_unlinked (h : s.intentOfRequest approvalRequestId = none) :
    externalApprovalEligibility s externalSubjectId approvalRequestId request =
      decide (request.externalSubjectId = some externalSubjectId) := by
  have hnil : linkedConnections s approvalRequestId = [] := by
    refine List.eq_nil_iff_forall_not_mem.mpr fun p hp => ?_
    obtain ⟨i, row, hrow, hid, _⟩ := mem_linkedConnections.mp hp
    exact intentOfRequest_none h hrow hid
  simp [externalApprovalEligibility, hnil]

/-- With an intent, the one linked connection decides. -/
theorem eligible_linked (hs : Linked s) {i : String} {row : ActionIntent} {connection : Connection}
    (hrow : s.intentRow i = some row) (hid : row.approvalRequestId = approvalRequestId)
    (hconnection : s.connections row.connectionId = some connection) :
    externalApprovalEligibility s externalSubjectId approvalRequestId request =
      match connection.ownership with
      | .personal => decide (request.externalSubjectId = some externalSubjectId)
      | .environment => eligibleReviewer s externalSubjectId request row.connectionId := by
  have hlinked : ∀ p, p ∈ linkedConnections s approvalRequestId ↔
      p = (row.connectionId, connection) := by
    intro p
    rw [mem_linkedConnections]
    constructor
    · rintro ⟨j, row', hrow', hid', hk, hc⟩
      have hij : i = j := hs.single i j _ _ (invocation_of_row hrow) (invocation_of_row hrow')
        (hid.trans hid'.symm)
      subst hij
      rw [hrow, Option.some.injEq] at hrow'
      subst hrow'
      rw [← hk, hconnection, Option.some.injEq] at hc
      exact Prod.ext hk.symm hc.symm
    · rintro rfl
      exact ⟨i, row, hrow, hid, rfl, hconnection⟩
  have hany : ∀ f : String × Connection → Bool,
      (linkedConnections s approvalRequestId).any f = f (row.connectionId, connection) := by
    intro f
    refine Bool.eq_iff_iff.mpr ?_
    rw [List.any_eq_true]
    constructor
    · rintro ⟨p, hp, hf⟩
      rwa [(hlinked p).mp hp] at hf
    · exact fun hf => ⟨_, (hlinked _).mpr rfl, hf⟩
  rw [externalApprovalEligibility, hany, hany]
  cases connection.ownership <;> simp

/-- The two reviewer checks, for a connection of the request's workspace and environment. -/
theorem eligibleReviewer_iff (hs : Linked s) {k : String} {connection : Connection}
    (howner : connection.ownership = .environment)
    (hworkspace : connection.workspaceId = request.workspaceId)
    (henvironment : request.environmentId = some connection.environmentId) :
    eligibleReviewer s externalSubjectId request k = true ↔
      (getConnectionReviewerAuthority s k connection externalSubjectId).isSome := by
  simp only [eligibleReviewer, henvironment, getConnectionReviewerAuthority, howner,
    currentAuthorization, hworkspace]
  constructor
  · intro h
    simp only [Bool.and_eq_true, List.any_eq_true, decide_eq_true_eq] at h
    obtain ⟨⟨⟨a, ha, hk, hw, hrevoked⟩, hverified⟩, hmember⟩ := h
    obtain ⟨subject, hsubject, hstatus⟩ := (Option.any_eq_true _ _).mp hverified
    have hworkspaces := hs.reviewers _ a ha
    simp only [Store.subjectWorkspace, hsubject, Option.map_some, Option.some.injEq] at hworkspaces
    have hverified : verifiedMember s request.workspaceId connection.environmentId
        externalSubjectId = true := by
      simp only [decide_eq_true_eq] at hstatus
      simp [verifiedMember, hsubject, hworkspaces, hw, hstatus, hmember]
    rw [if_pos hverified, Option.isSome_map, List.find?_isSome]
    exact ⟨a, ha, by simp [hk, hw, hrevoked]⟩
  · intro h
    split at h
    · rename_i hverified
      rw [Option.isSome_map, List.find?_isSome] at h
      simp only [verifiedMember, Bool.and_eq_true] at hverified
      obtain ⟨hsubject, hmember⟩ := hverified
      simp only [Bool.and_eq_true, List.any_eq_true]
      refine ⟨⟨h, ?_⟩, hmember⟩
      cases hu : s.subjects externalSubjectId with
      | none => simp [hu] at hsubject
      | some subject =>
        simp only [hu, decide_eq_true_eq] at hsubject
        simp [hsubject.2]
    · cases h

theorem reads_getApprovalReviewerAuthority :
    (getApprovalReviewerAuthority approvalRequestId request externalSubjectId).reads s = some
      (match (s.intentOfRequest approvalRequestId).bind fun p =>
          (s.connections p.2.connectionId).map fun c => (p.2.connectionId, c) with
        | some (k, c) => getConnectionReviewerAuthority s k c externalSubjectId
        | none => if request.externalSubjectId = some externalSubjectId then some none else none) := by
  change Tx.reads s (match (s.intentOfRequest approvalRequestId).bind fun p =>
      (s.connections p.2.connectionId).map fun c => (p.2.connectionId, c) with
    | some (k, c) => Tx.select fun s => getConnectionReviewerAuthority s k c externalSubjectId
    | none => pure (if request.externalSubjectId = some externalSubjectId then some none else none)) = _
  split <;> rfl

/-- Who may list and open a request, and who may decide it. -/
theorem eligible_iff_authority (hs : Linked s) (hrequest : s.requestRow approvalRequestId = some request) :
    externalApprovalEligibility s externalSubjectId approvalRequestId request = true ↔
      ∃ authority, (getApprovalReviewerAuthority approvalRequestId request externalSubjectId).reads s
        = some (some authority) := by
  rw [reads_getApprovalReviewerAuthority]
  cases hintent : s.intentOfRequest approvalRequestId with
  | none =>
    rw [eligible_unlinked hintent]
    by_cases howner : request.externalSubjectId = some externalSubjectId <;> simp [howner]
  | some p =>
    obtain ⟨i, row⟩ := p
    obtain ⟨hrow, hid⟩ := intentOfRequest_some hintent
    obtain ⟨question, identity, hlink⟩ := hs.intents i _ (invocation_of_row hrow)
    obtain ⟨connection, hconnection, rfl⟩ := Option.map_eq_some_iff.mp hlink.uses
    have hquestion : question = request.toQuestion := by
      have h := hlink.asks
      rw [hid, Store.question, hrequest] at h
      exact (Option.some.inj h).symm
    subst hquestion
    rw [eligible_linked hs hrow hid hconnection]
    simp only [Option.bind_some, hconnection, Option.map_some, Option.some.injEq]
    cases howner : connection.ownership with
    | personal =>
      have hsubject : connection.externalSubjectId = request.externalSubjectId :=
        hlink.owner howner
      simp only [getConnectionReviewerAuthority, howner, hsubject, decide_eq_true_eq]
      by_cases hself : request.externalSubjectId = some externalSubjectId <;> simp [hself]
    | environment =>
      rw [eligibleReviewer_iff hs howner hlink.workspaceId hlink.environmentId,
        Option.isSome_iff_exists]

end Equivalence

section System

def Store.empty : Store where
  subjects _ := none
  environments _ := none
  connections _ := none
  memberships _ := none
  grants _ := []
  reviewers _ := []
  sessions _ := none
  executions _ := none
  requests := .empty
  intents := .empty
  decisionKeys _ := none
  answers := []
  readings := []

/-- The transactions of the repositories. `other` are those that insert none of the rows and set
none of the columns of `SameColumns`: leases and ends of executions, environments and their
policies, sessions, credentials that are rotated or lost, retention. -/
inductive Admits (registry : Registry) (hashing : Hashing) : Client → Program Unit → Prop
  | provisionExternalSubject {c : Client} (workspaceId environmentId : String) :
    Admits registry hashing c (provisionExternalSubject workspaceId environmentId)
  | completeEndUserAuthorization {c : Client} (workspaceId environmentId : String) :
    Admits registry hashing c (completeEndUserAuthorization workspaceId environmentId)
  | createBuilderConversation {c : Client} (workspaceId environmentId : String) :
    Admits registry hashing c (createBuilderConversation workspaceId environmentId)
  | disableExternalSubject {c : Client} (workspaceId externalSubjectId : String) :
    Admits registry hashing c (disableExternalSubject workspaceId externalSubjectId)
  | eraseExternalSubject {c : Client} (workspaceId externalSubjectId : String) :
    Admits registry hashing c (eraseExternalSubject workspaceId externalSubjectId)
  | createSharedEnvironmentConnection {c : Client} (shared : SharedConnection)
    (scopes : List String) (credentialEncrypted : String) : Admits registry hashing c
      (createSharedEnvironmentConnection shared scopes credentialEncrypted)
  | setConnectionSubjectAuthorization {c : Client} (shared : SharedConnection)
    (externalSubjectId : String) (kind : SubjectAuthorizationKind) : Admits registry hashing c
      (setConnectionSubjectAuthorization shared externalSubjectId kind)
  | revokeConnectionSubjectAuthorization {c : Client} (shared : SharedConnection)
    (authorizationId externalSubjectId : String) (kind : SubjectAuthorizationKind) :
    Admits registry hashing c
      (revokeConnectionSubjectAuthorization shared authorizationId externalSubjectId kind)
  | revokeSharedEnvironmentConnection {c : Client} (shared : SharedConnection) :
    Admits registry hashing c (revokeSharedEnvironmentConnection shared)
  | completeConnectionAuthorizationRequest {c : Client} (owner : ConnectionOwner)
    (provider : String) (scopes : List String) (credentialEncrypted : String) :
    Admits registry hashing c
      (completeConnectionAuthorizationRequest owner provider scopes credentialEncrypted)
  | revokeConnection {c : Client} (owner : ConnectionOwner) (connectionId : String) (now : ℕ) :
    Admits registry hashing c (revokeConnection owner connectionId now)
  | createExecution {c : Client} (id : String) (row : Execution) :
    Admits registry hashing c (createExecution id row)
  | createWorkspaceApprovalRequest {c : Client} (workspaceId executionId nodeId : String)
    (approverEmails : Option (List String)) (timeout : Option (ℕ × ApprovalTimeoutAction)) :
    Admits registry hashing c
      (createWorkspaceApprovalRequest workspaceId executionId nodeId approverEmails timeout)
  | createActionIntent {c : Client} (input : CreateActionIntentInput) :
    Admits registry hashing c (do let _ ← createActionIntent input)
  | execute {c : Client} (operationId : String) (input : SideEffectInput) :
    Admits registry hashing c (execute registry hashing c operationId input)
  | decideWorkspaceApprovalRequest {c : Client} (workspaceId approvalRequestId : String)
    (input : WorkspaceDecisionInput) : Admits registry hashing c
      (do let _ ← decideWorkspaceApprovalRequest workspaceId approvalRequestId input)
  | claimAndDecideTimedOutApprovalRequest {c : Client} : Admits registry hashing c
      (do let _ ← claimAndDecideTimedOutApprovalRequest)
  | decideExternalApprovalRequest {c : Client} (input : ExternalDecisionInput) :
    Admits registry hashing c (do let _ ← decideExternalApprovalRequest hashing input)
  | cancelExecution {c : Client} (workspaceId environmentId executionId : String)
    (cancelledAt : ℕ) : Admits registry hashing c (Tx.transaction do
      let _ ← cancelExecutionWithPendingApproval workspaceId environmentId executionId cancelledAt)
  | other {c : Client} (program : Program Unit)
    (h : program.Writes fun change => ∀ s, SameColumns s (change s)) :
    Admits registry hashing c program

variable {registry : Registry} {hashing : Hashing} {c : Client}

theorem linked_empty : Linked Store.empty where
  asked r question h := by cases h
  intents i invocation h := by cases h
  single i j invocation invocation' h := by cases h
  reviewers key a ha := by cases ha

theorem admits_keeps : columns.Keeps (Admits registry hashing) := by
  intro c program hadmits
  cases hadmits with
  | provisionExternalSubject => exact enrolExternalSubject_keeps
  | completeEndUserAuthorization => exact enrolExternalSubject_keeps
  | createBuilderConversation => exact enrolExternalSubject_keeps
  | disableExternalSubject => exact disableExternalSubject_calm.keeps
  | eraseExternalSubject => exact eraseExternalSubject_calm.keeps
  | createSharedEnvironmentConnection => exact createSharedEnvironmentConnection_keeps
  | setConnectionSubjectAuthorization => exact setConnectionSubjectAuthorization_keeps
  | revokeConnectionSubjectAuthorization => exact revokeConnectionSubjectAuthorization_calm.keeps
  | revokeSharedEnvironmentConnection => exact revokeSharedEnvironmentConnection_calm.keeps
  | completeConnectionAuthorizationRequest => exact completeConnectionAuthorizationRequest_keeps
  | revokeConnection => exact revokeConnection_calm.keeps
  | createExecution => exact createExecution_keeps
  | createWorkspaceApprovalRequest => exact createWorkspaceApprovalRequest_keeps
  | createActionIntent input => exact createActionIntent_bind fun _ _ => trivial
  | execute => exact execute_keeps
  | decideWorkspaceApprovalRequest =>
    exact (decideWorkspaceApprovalRequest_calm.bind fun _ => .pure).keeps
  | claimAndDecideTimedOutApprovalRequest =>
    exact (claimAndDecideTimedOutApprovalRequest_calm.bind fun _ => .pure).keeps
  | decideExternalApprovalRequest =>
    exact (decideExternalApprovalRequest_calm.bind fun _ => .pure).keeps
  | cancelExecution =>
    exact (cancelExecutionWithPendingApproval_calm.bind fun _ => .pure).transaction.keeps
  | other _ h => exact (Discipline.Frame.calm_of_writes (F := columnsFrame) h).keeps

theorem linked_of_reachable {sys : System Store Lock Client Reply}
    (h : System.Reachable (Admits registry hashing) Store.empty sys) : Linked sys.store :=
  (Discipline.sound_of_reachable admits_keeps linked_empty h).inv

/-- In every reachable store, a subject may list and open a request if and only if its decision on
it is accepted. -/
theorem eligible_iff_reviewer {sys : System Store Lock Client Reply}
    (h : System.Reachable (Admits registry hashing) Store.empty sys) {approvalRequestId : String}
    {record : RequestRecord} (hrecord : sys.store.request approvalRequestId = some record)
    (externalSubjectId : String) :
    externalApprovalEligibility sys.store externalSubjectId approvalRequestId record.row = true ↔
      ∃ authority, (getApprovalReviewerAuthority approvalRequestId record.row
        externalSubjectId).reads sys.store = some (some authority) := by
  refine eligible_iff_authority (linked_of_reachable h) ?_
  rw [Store.requestRow, hrecord]
  rfl

/-- A program of one client, given the same reply at every step. -/
def playing (c : Client) (program : Program Unit) (steps : ℕ) (id : String) :
    List (Act Store Lock Client Reply) :=
  .start c program ::
    List.replicate steps (.advance c ⟨0, id, "", true, none, none, .error none, false⟩)

def reviewedInvocation : CreateActionIntentInput where
  workspaceId := "workspace"
  executionId := "execution"
  nodeId := "node"
  connectionId := "connection"
  connector := "github"
  actionFamily := "files"
  requiredScopes := ["repo"]
  operationId := "github.files.put"
  operationRevision := "1"
  digestVersion := ACTION_INTENT_DIGEST_VERSION
  canonicalDigest := "digest"
  canonicalEnvelope := ⟨"1", "connection", "github", "github.files.put", .null, .null, .null⟩
  invocationIdempotencyKey := "invocation"
  expiresAt := 10

def githubEnvironment : Environment := ⟨"workspace", true, [⟨"github", ["repo"], ["files"]⟩]⟩

def createEnvironment : Program Unit := Tx.transaction (Tx.update fun s => { s with
  environments := Function.update s.environments "environment" (some githubEnvironment) })

/-- A shared connection with a requester and a reviewer, and an intent of the requester. -/
def reviewedRun : List (Act Store Lock Client Reply) :=
  let shared : SharedConnection := ⟨"workspace", "environment", "connection"⟩
  playing 0 createEnvironment 2 "" ++
    playing 1 (completeEndUserAuthorization "workspace" "environment") 6 "requester" ++
    playing 2 (completeEndUserAuthorization "workspace" "environment") 6 "reviewer" ++
    playing 3 (createSharedEnvironmentConnection shared ["repo"] "credential") 4 "" ++
    playing 4 (setConnectionSubjectAuthorization shared "requester" .requester) 7 "grant" ++
    playing 5 (setConnectionSubjectAuthorization shared "reviewer" .reviewer) 7 "assignment" ++
    playing 6 (createExecution "execution" ⟨"execution", "workspace", some "environment",
      some "requester", none, .running, none, none, none, none, none⟩) 3 "" ++
    playing 7 (do let _ ← createActionIntent reviewedInvocation) 24 "request"

def operationHashing : Hashing where
  digestActionIntent e := some e.operation
  hashPublicRequest id _ _ := id
  digest_operation h h' := Option.some.inj (h.trans h'.symm)
  hash_request h := h

theorem playing_admitted {program : Program Unit} (h : Admits registry hashing c program)
    {steps : ℕ} {id : String} :
    ∀ act ∈ playing c program steps id, act.Admitted (Admits registry hashing) := by
  intro act hact
  rcases List.mem_cons.mp hact with rfl | hact
  · exact h
  · rw [List.eq_of_mem_replicate hact]
    trivial

theorem reviewedRun_admitted :
    ∀ act ∈ reviewedRun, act.Admitted (Admits (fun _ => none) operationHashing) := by
  intro act hact
  have henvironment : createEnvironment.Writes fun change => ∀ s, SameColumns s (change s) :=
    ⟨fun s => { SameColumns.refl s with }, trivial⟩
  simp only [reviewedRun, List.mem_append] at hact
  rcases hact with ((((((hact | hact) | hact) | hact) | hact) | hact) | hact) | hact
  · exact playing_admitted (.other _ henvironment) act hact
  · exact playing_admitted (.completeEndUserAuthorization _ _) act hact
  · exact playing_admitted (.completeEndUserAuthorization _ _) act hact
  · exact playing_admitted (.createSharedEnvironmentConnection _ _ _) act hact
  · exact playing_admitted (.setConnectionSubjectAuthorization _ _ _) act hact
  · exact playing_admitted (.setConnectionSubjectAuthorization _ _ _) act hact
  · exact playing_admitted (.createExecution _ _) act hact
  · exact playing_admitted (.createActionIntent _) act hact

theorem reviewer_of_shared_connection :
    ∃ (sys : System Store Lock Client Reply) (record : RequestRecord),
    System.Reachable (Admits (fun _ => none) operationHashing) Store.empty sys ∧
      sys.store.request "request" = some record ∧
      externalApprovalEligibility sys.store "requester" "request" record.row = false ∧
      ∃ authority, (getApprovalReviewerAuthority "request" record.row "reviewer").reads sys.store =
        some (some authority) := by
  have hrun : (((System.idle Store.empty).run reviewedRun).any fun sys =>
      (sys.store.request "request").any fun record =>
        !externalApprovalEligibility sys.store "requester" "request" record.row &&
          externalApprovalEligibility sys.store "reviewer" "request" record.row) = true := by
    decide +kernel
  obtain ⟨sys, hsys, hany⟩ := (Option.any_eq_true _ _).mp hrun
  obtain ⟨record, hrecord, heligible⟩ := (Option.any_eq_true _ _).mp hany
  rw [Bool.and_eq_true, Bool.not_eq_true'] at heligible
  have hreachable : System.Reachable (Admits (fun _ => none) operationHashing) Store.empty sys :=
    System.Reachable.start.run reviewedRun_admitted hsys
  exact ⟨sys, record, hreachable, hrecord, heligible.1,
    (eligible_iff_reviewer hreachable hrecord "reviewer").mp heligible.2⟩

end System
end Linea.Consent
