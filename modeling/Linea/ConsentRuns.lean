import Linea.ConsentCalls
import Linea.ConsentHolders
import Linea.ConsentReviewers

/-! The runs of the consent store: every schedule of its transactions, with crashes anywhere. In a
strict system only attempts of the gateway create and dispatch intents; in any other the repository's
functions may be called by anybody with any arguments. -/
namespace Linea.Consent
variable {setting : Setting} {c : Client} {held : Set Lock} {s s' : Store} {i : String}
  {r r' : IntentRecord}

section System

/-- A call whose answer is not used. -/
def ignoring {α : Type} (program : Program α) : Program Unit := do
  let _ ← program
  pure ()

/-- The transactions of the repositories, and the attempts of the gateway. -/
inductive Setting.Admits (setting : Setting) : Client → Program Unit → Prop
  | execute {c : Client} (operationId : String) (input : SideEffectInput)
    (h : setting.strict = true) :
    setting.Admits c (execute setting.registry setting.hashing c operationId input)
  | createActionIntent {c : Client} (input : CreateActionIntentInput)
    (h : setting.strict = false) : setting.Admits c (ignoring (createActionIntent input))
  | claimApprovedActionIntent {c : Client} (input : ClaimInput) :
    setting.Admits c (ignoring (claimApprovedActionIntent c input))
  | beginActionIntentDispatch {c : Client} (input : ClaimInput) (h : setting.strict = false) :
    setting.Admits c (ignoring (beginActionIntentDispatch c input))
  | completeActionIntent {c : Client} (actionIntentId executionClaimId : String) (result : Value)
    (completedAt : ℕ) : setting.Admits c
      (ignoring (completeActionIntent actionIntentId executionClaimId result completedAt))
  | failActionIntent {c : Client} (actionIntentId executionClaimId : String)
    (error : ConnectorError) (status : FailureStatus) (failedAt : ℕ) : setting.Admits c
      (ignoring (failActionIntent actionIntentId executionClaimId error status failedAt))
  | rejectActionIntent {c : Client} (id : String) :
    setting.Admits c (ignoring (rejectActionIntent id))
  | cancelExecution {c : Client} (workspaceId environmentId executionId : String)
    (cancelledAt : ℕ) : setting.Admits c (ignoring (Tx.transaction
      (cancelExecutionWithPendingApproval workspaceId environmentId executionId cancelledAt)))
  | createWorkspaceApprovalRequest {c : Client} (workspaceId executionId nodeId : String)
    (approverEmails : Option (List String)) (timeout : Option (ℕ × ApprovalTimeoutAction)) :
    setting.Admits c
      (createWorkspaceApprovalRequest workspaceId executionId nodeId approverEmails timeout)
  | decideWorkspaceApprovalRequest {c : Client} (workspaceId approvalRequestId : String)
    (input : WorkspaceDecisionInput) : setting.Admits c
      (ignoring (decideWorkspaceApprovalRequest workspaceId approvalRequestId input))
  | decideExternalApprovalRequest {c : Client} (input : ExternalDecisionInput) :
    setting.Admits c (ignoring (decideExternalApprovalRequest setting.hashing input))
  | claimAndDecideTimedOutApprovalRequest {c : Client} :
    setting.Admits c (ignoring claimAndDecideTimedOutApprovalRequest)
  | createEnvironment {c : Client} (environmentId : String) (row : Environment) :
    setting.Admits c (Locking.createEnvironment environmentId row)
  | disableEnvironment {c : Client} (workspaceId environmentId : String) :
    setting.Admits c (disableEnvironment workspaceId environmentId)
  | replaceConnectorAccessPolicy {c : Client} (workspaceId environmentId : String)
    (providers : List ProviderPolicy) : setting.Admits c
      (ignoring (replaceConnectorAccessPolicy workspaceId environmentId providers))
  | replaceEnvironmentTrustConfiguration {c : Client} (workspaceId environmentId : String) :
    setting.Admits c (replaceEnvironmentTrustConfiguration workspaceId environmentId)
  | provisionExternalSubject {c : Client} (workspaceId environmentId : String) :
    setting.Admits c (provisionExternalSubject workspaceId environmentId)
  | completeEndUserAuthorization {c : Client} (workspaceId environmentId : String) :
    setting.Admits c (completeEndUserAuthorization workspaceId environmentId)
  | createBuilderConversation {c : Client} (workspaceId environmentId : String) :
    setting.Admits c (createBuilderConversation workspaceId environmentId)
  | disableExternalSubject {c : Client} (workspaceId externalSubjectId : String) :
    setting.Admits c (disableExternalSubject workspaceId externalSubjectId)
  | eraseExternalSubject {c : Client} (workspaceId externalSubjectId : String)
    (owned : List String) :
    setting.Admits c (Locking.eraseExternalSubject workspaceId externalSubjectId owned)
  | createEndUserSession {c : Client} (row : EndUserSession) :
    setting.Admits c (ignoring (createEndUserSession row))
  | revokeEndUserSession {c : Client} (sessionId : String) (now : ℕ) :
    setting.Admits c (revokeEndUserSession sessionId now)
  | deleteExpiredEndUserSessions {c : Client} (before : ℕ) :
    setting.Admits c (deleteExpiredEndUserSessions before)
  | createSharedEnvironmentConnection {c : Client} (shared : SharedConnection)
    (scopes : List String) (credentialEncrypted : String) :
    setting.Admits c (createSharedEnvironmentConnection shared scopes credentialEncrypted)
  | setConnectionSubjectAuthorization {c : Client} (shared : SharedConnection)
    (externalSubjectId : String) (kind : SubjectAuthorizationKind) :
    setting.Admits c (setConnectionSubjectAuthorization shared externalSubjectId kind)
  | revokeConnectionSubjectAuthorization {c : Client} (shared : SharedConnection)
    (authorizationId externalSubjectId : String) (kind : SubjectAuthorizationKind) :
    setting.Admits c
      (Locking.revokeConnectionSubjectAuthorization shared authorizationId externalSubjectId kind)
  | revokeSharedEnvironmentConnection {c : Client} (shared : SharedConnection) :
    setting.Admits c (Locking.revokeSharedEnvironmentConnection shared)
  | completeConnectionAuthorizationRequest {c : Client} (owner : ConnectionOwner)
    (provider : String) (scopes : List String) (credentialEncrypted : String) :
    setting.Admits c
      (completeConnectionAuthorizationRequest owner provider scopes credentialEncrypted)
  | revokeConnection {c : Client} (owner : ConnectionOwner) (connectionId : String) (now : ℕ) :
    setting.Admits c (revokeConnection owner connectionId now)
  | rotateConnectionCredential {c : Client} (owner : ConnectionOwner) (connectionId : String)
    (matched : Connection → Bool) (credentialEncrypted : String) : setting.Admits c
      (ignoring (rotateConnectionCredential owner connectionId matched credentialEncrypted))
  | requireConnectionReauthorization {c : Client} (owner : ConnectionOwner)
    (connectionId : String) (matched : Connection → Bool) : setting.Admits c
      (ignoring (requireConnectionReauthorization owner connectionId matched))
  | createExecution {c : Client} (id : String) (row : Execution) (h : row.leasedBy = none) :
    setting.Admits c (createExecution id row)
  | startExecution {c : Client} (executionId : String) (leaseExpiresAt : ℕ) :
    setting.Admits c (ignoring (startExecution executionId leaseExpiresAt))
  | renewLease {c : Client} (executionId leasedBy : String) (leaseExpiresAt : ℕ) :
    setting.Admits c (ignoring (renewLease executionId leasedBy leaseExpiresAt))
  | pauseExecution {c : Client} (executionId leasedBy : String) :
    setting.Admits c (ignoring (pauseExecution executionId leasedBy))
  | completeExecution {c : Client} (executionId leasedBy : String) (audienceExists : Bool)
    (input : CompleteExecutionInput) : setting.Admits c
      (ignoring (completeExecution executionId leasedBy audienceExists input))
  | failQueuedExecution {c : Client} (executionId : String) (error : ExecutionError) :
    setting.Admits c (ignoring (failQueuedExecution executionId error))
  | resumeWaitingExecution {c : Client} (executionId : String) :
    setting.Admits c (ignoring (resumeWaitingExecution executionId))

theorem ignoring_triple {α : Type} {pre : Store → Prop} {program : Program α}
    {post : α → Store → Prop} (h : Triple setting c pre program post) :
    Triple setting c pre (ignoring program) fun _ _ => True :=
  Discipline.Triple.bind h fun _ => Discipline.Triple.pure fun _ _ => trivial

theorem setting_keeps : (discipline setting).Keeps setting.Admits := by
  intro c program hadmits
  have htriple : Triple setting c (fun _ => True) program fun _ _ => True := by
    cases hadmits with
    | execute _ _ hstrict => exact execute_triple hstrict
    | createActionIntent _ hstrict =>
      refine ignoring_triple (createActionIntent_triple fun h => ?_)
      rw [hstrict] at h
      cases h
    | claimApprovedActionIntent => exact ignoring_triple claimApprovedActionIntent_triple
    | beginActionIntentDispatch _ hstrict =>
      refine ignoring_triple (beginActionIntentDispatch_triple fun h => ?_)
      rw [hstrict] at h
      cases h
    | completeActionIntent => exact ignoring_triple completeActionIntent_triple
    | failActionIntent => exact ignoring_triple failActionIntent_triple
    | rejectActionIntent => exact ignoring_triple rejectActionIntent_triple
    | cancelExecution => exact ignoring_triple cancelExecutionWithPendingApproval_triple
    | createWorkspaceApprovalRequest => exact createWorkspaceApprovalRequest_triple
    | decideWorkspaceApprovalRequest => exact ignoring_triple decideWorkspaceApprovalRequest_triple
    | decideExternalApprovalRequest => exact ignoring_triple decideExternalApprovalRequest_triple
    | claimAndDecideTimedOutApprovalRequest =>
      exact ignoring_triple claimAndDecideTimedOutApprovalRequest_triple
    | createEnvironment => exact createEnvironment_triple
    | disableEnvironment => exact disableEnvironment_triple
    | replaceConnectorAccessPolicy => exact ignoring_triple replaceConnectorAccessPolicy_triple
    | replaceEnvironmentTrustConfiguration => exact replaceEnvironmentTrustConfiguration_triple
    | provisionExternalSubject => exact enrolExternalSubject_triple
    | completeEndUserAuthorization => exact enrolExternalSubject_triple
    | createBuilderConversation => exact enrolExternalSubject_triple
    | disableExternalSubject => exact disableExternalSubject_triple
    | eraseExternalSubject => exact eraseExternalSubject_triple
    | createEndUserSession => exact ignoring_triple createEndUserSession_triple
    | revokeEndUserSession => exact updateSessions_triple
    | deleteExpiredEndUserSessions => exact updateSessions_triple
    | createSharedEnvironmentConnection => exact createSharedEnvironmentConnection_triple
    | setConnectionSubjectAuthorization => exact setConnectionSubjectAuthorization_triple
    | revokeConnectionSubjectAuthorization => exact revokeConnectionSubjectAuthorization_triple
    | revokeSharedEnvironmentConnection => exact revokeSharedEnvironmentConnection_triple
    | completeConnectionAuthorizationRequest => exact completeConnectionAuthorizationRequest_triple
    | revokeConnection => exact revokeConnection_triple
    | rotateConnectionCredential => exact ignoring_triple updateConnections_triple
    | requireConnectionReauthorization => exact ignoring_triple updateConnections_triple
    | createExecution _ _ hrow => exact createExecution_triple hrow
    | startExecution => exact ignoring_triple startExecution_triple
    | renewLease => exact ignoring_triple renewLease_triple
    | pauseExecution => exact ignoring_triple pauseExecution_triple
    | completeExecution => exact ignoring_triple completeExecution_triple
    | failQueuedExecution => exact ignoring_triple failQueuedExecution_triple
    | resumeWaitingExecution => exact ignoring_triple resumeWaitingExecution_triple
  exact htriple.keeps

theorem inv_empty : Inv setting Store.empty where
  leases e record attempt h := by cases h
  records i r h := by cases h
  unique i j r r' h := by cases h
  requests i r h := by cases h
  decisionKeys key record h := by cases h
  answers answer h := by cases h
  made answer h := by cases h
  order := .nil
  decided i q d h := by cases h
  read reading h := by cases h

/-- The stores of a system that started empty. -/
abbrev Setting.Reaches (setting : Setting) (sys : System Store Lock Client Reply) : Prop :=
  System.Reachable setting.Admits Store.empty sys

theorem sound_of_reaches {sys : System Store Lock Client Reply} (h : setting.Reaches sys) :
    Discipline.Sound (discipline setting) sys :=
  Discipline.sound_of_reachable setting_keeps inv_empty h

end System

section Example

/-- A program of one client, given the same reply at every step. -/
def performing (c : Client) (program : Program Unit) (steps : ℕ) (id : String) :
    List (Act Store Lock Client Reply) :=
  .start c program :: List.replicate steps
    (.advance c ⟨5, id, "", true, some none, some true, .ok .null, false⟩)

theorem performing_admitted {program : Program Unit} (h : setting.Admits c program) {steps : ℕ}
    {id : String} : ∀ act ∈ performing c program steps id, act.Admitted setting.Admits := by
  intro act hact
  rcases List.mem_cons.mp hact with rfl | hact
  · exact h
  · rw [List.eq_of_mem_replicate hact]
    trivial

def putFile : SideEffectOperation where
  id := "github.files.put"
  revision := "1"
  provider := "github"
  actionFamily := "files"
  requiredScopes := ["repo"]
  installationPermissions := none
  retrySafety := .none
  normalize v := some ⟨.null, v, .null⟩
  parametersSchema := some
  preconditionsSchema := some
  displayable _ := true
  parametersSchema_again := by
    intro v w h
    cases h
    rfl

def putSetting : Setting where
  strict := true
  registry id := if id = "github.files.put" then some putFile else none
  hashing := operationHashing

def putInput : SideEffectInput where
  executionId := "execution"
  workspaceId := "workspace"
  nodeId := "node"
  connectionId := "connection"
  operationInput := .null
  invocationIdempotencyKey := "invocation"
  executionClaimId := "attempt"

def putApproval : ExternalDecisionInput where
  workspaceId := "workspace"
  environmentId := "environment"
  externalSubjectId := "requester"
  endUserSessionId := "session"
  approvalRequestId := "request"
  outcome := .approved
  comment := none
  idempotencyKey := "key"
  now := 5

def attempt (c : Client) : Program Unit :=
  execute putSetting.registry putSetting.hashing c "github.files.put" putInput

/-- A subject connects an account, and an attempt of its execution asks for consent. -/
def askingRun : List (Act Store Lock Client Reply) :=
  performing 0 (Locking.createEnvironment "environment" githubEnvironment) 3 "" ++
    performing 1 (completeEndUserAuthorization "workspace" "environment") 6 "requester" ++
    performing 2 (completeConnectionAuthorizationRequest ⟨"workspace", "environment", "requester"⟩
      "github" ["repo"] "credential") 7 "connection" ++
    performing 3 (createExecution "execution" ⟨"execution", "workspace", some "environment",
      some "requester", none, .queued, none, none, none, none, none⟩) 3 "" ++
    performing 4 (ignoring (startExecution "execution" 100)) 5 "attempt" ++
    performing 5 (attempt 5) 28 "request"

def putDecision : ApprovalDecision where
  id := "decision"
  outcome := .approved
  actor := .externalSubject "requester" "session"
  reviewerAssignmentId := none
  reason := .human
  comment := none
  idempotencyKey := some "key"
  decidedAt := 5

/-- The subject's decision, as it is sent under its key. -/
def putDeciding (outcome : DecisionOutcome) : Program Unit :=
  ignoring (decideExternalApprovalRequest putSetting.hashing { putApproval with outcome := outcome })

/-- The subject approves, sends this again, and sends a rejection under the same key; the attempt that
follows calls the provider. -/
def approvedRun : List (Act Store Lock Client Reply) :=
  performing 6 (ignoring (createEndUserSession
    ⟨"workspace", "environment", "requester", 100, none⟩)) 7 "session" ++
    performing 7 (putDeciding .approved) 24 "decision" ++
    performing 8 (putDeciding .approved) 10 "" ++
    performing 9 (putDeciding .rejected) 10 "" ++
    performing 10 (attempt 10) 60 ""

theorem askingRun_admitted : ∀ act ∈ askingRun, act.Admitted putSetting.Admits := by
  intro act hact
  simp only [askingRun, List.mem_append] at hact
  rcases hact with ((((hact | hact) | hact) | hact) | hact) | hact
  · exact performing_admitted (.createEnvironment _ _) act hact
  · exact performing_admitted (.completeEndUserAuthorization _ _) act hact
  · exact performing_admitted (.completeConnectionAuthorizationRequest _ _ _ _) act hact
  · exact performing_admitted (.createExecution _ _ rfl) act hact
  · exact performing_admitted (.startExecution _ _) act hact
  · exact performing_admitted (.execute _ _ rfl) act hact

theorem approvedRun_admitted : ∀ act ∈ approvedRun, act.Admitted putSetting.Admits := by
  intro act hact
  simp only [approvedRun, List.mem_append] at hact
  rcases hact with (((hact | hact) | hact) | hact) | hact
  · exact performing_admitted (.createEndUserSession _) act hact
  · exact performing_admitted (.decideExternalApprovalRequest _) act hact
  · exact performing_admitted (.decideExternalApprovalRequest _) act hact
  · exact performing_admitted (.decideExternalApprovalRequest _) act hact
  · exact performing_admitted (.execute _ _ rfl) act hact

/-- The run: an intent that waits, and then has been called once. The key has decided once too. -/
theorem approvedRun_calls : ∃ sys sys' r q r' q',
    (putSetting.Reaches sys ∧ sys.run approvedRun = some sys' ∧ putSetting.Reaches sys') ∧
      (sys.store.intent "request" = some r ∧ r.row.status = .awaitingConsent) ∧
      (sys.store.request "request" = some q ∧ q.row.status = .pending) ∧
      (sys'.store.intent "request" = some r' ∧ r'.row.status = .succeeded ∧
        r'.row.operationId = "github.files.put" ∧ r'.calls.length = 1 ∧
        ∃ d, r'.dispatches = [d]) ∧
      (sys'.store.request "request" = some q' ∧ q'.row.status = .decided) ∧
      sys'.store.answers.map Answer.result =
        [.decided putDecision, .replay putDecision, .decisionConflict] := by
  have hrun : (((System.idle Store.empty).run askingRun).any fun sys =>
      ((sys.store.intent "request").any fun r => decide (r.row.status = .awaitingConsent)) &&
      ((sys.store.request "request").any fun q => decide (q.row.status = .pending)) &&
      (sys.run approvedRun).any fun sys' =>
        ((sys'.store.intent "request").any fun r => decide (r.row.status = .succeeded ∧
          r.row.operationId = "github.files.put" ∧ r.calls.length = 1 ∧
          r.dispatches.length = 1)) &&
        ((sys'.store.request "request").any fun q => decide (q.row.status = .decided)) &&
        decide (sys'.store.answers.map Answer.result =
          [.decided putDecision, .replay putDecision, .decisionConflict])) = true := by
    decide +kernel
  obtain ⟨sys, hsys, hrest⟩ := (Option.any_eq_true _ _).mp hrun
  rw [Bool.and_eq_true, Bool.and_eq_true] at hrest
  obtain ⟨⟨hr, hq⟩, hlater⟩ := hrest
  obtain ⟨r, hr, hwaiting⟩ := (Option.any_eq_true _ _).mp hr
  obtain ⟨q, hq, hpending⟩ := (Option.any_eq_true _ _).mp hq
  obtain ⟨sys', hsys', hlater⟩ := (Option.any_eq_true _ _).mp hlater
  rw [Bool.and_eq_true, Bool.and_eq_true] at hlater
  obtain ⟨⟨hr', hq'⟩, hanswers⟩ := hlater
  obtain ⟨r', hr', hcalled⟩ := (Option.any_eq_true _ _).mp hr'
  obtain ⟨q', hq', hdecided⟩ := (Option.any_eq_true _ _).mp hq'
  have hcalled := of_decide_eq_true hcalled
  have hreaches : putSetting.Reaches sys := System.Reachable.start.run askingRun_admitted hsys
  exact ⟨sys, sys', r, q, r', q', ⟨hreaches, hsys', hreaches.run approvedRun_admitted hsys'⟩,
    ⟨hr, of_decide_eq_true hwaiting⟩, ⟨hq, of_decide_eq_true hpending⟩,
    ⟨hr', hcalled.1, hcalled.2.1, hcalled.2.2.1, List.length_eq_one_iff.mp hcalled.2.2.2⟩,
    ⟨hq', of_decide_eq_true hdecided⟩, of_decide_eq_true hanswers⟩

end Example

section Calls
variable {sys sys' : System Store Lock Client Reply} {act : Act Store Lock Client Reply}

/-- Every call is for a dispatch of its own. -/
theorem RecordInv.calls_le (h : RecordInv setting s r) : r.calls.length ≤ r.dispatches.length := by
  have hsub : r.calls.map ProviderCall.attempt ⊆ r.dispatches.map Dispatch.attempt := by
    intro n hn
    obtain ⟨call, hcall, rfl⟩ := List.mem_map.mp hn
    obtain ⟨d, hd, hattempt, _⟩ := h.callOf call hcall
    exact List.mem_map.mpr ⟨d, hd, hattempt⟩
  simpa using (h.callTags.subperm hsub).length_le

/-- However attempts of workers overlap, fail and take over from each other, an operation that must
not be tried twice is called at most once for an intent; every call carries the parameters of the
envelope that has the intent's digest, and the intent's idempotency key. -/
theorem called_at_most_once (hstrict : setting.strict = true) (h : setting.Reaches sys)
    (hr : sys.store.intent i = some r) :
    (Unrepeatable setting.registry r.row → r.calls.length ≤ 1) ∧
      ∀ call ∈ r.calls, call.parameters = r.row.canonicalEnvelope.parameters ∧
        call.idempotencyKey = r.row.invocationIdempotencyKey ∧
        setting.hashing.digestActionIntent r.row.canonicalEnvelope =
          some r.row.canonicalDigest := by
  have hinv := (sound_of_reaches h).inv.records i r hr
  exact ⟨fun hunrepeatable => hinv.calls_le.trans (hinv.once hstrict hunrepeatable), hinv.carried⟩

theorem put_called_once : ∃ sys r, putSetting.Reaches sys ∧
    sys.store.intent "request" = some r ∧ Unrepeatable putSetting.registry r.row ∧
    r.calls.length = 1 ∧ r.calls.length ≤ 1 := by
  obtain ⟨_, sys, _, _, r, _, ⟨_, _, hreaches⟩, _, _, ⟨hr, _, hid, hcalls, _⟩, _⟩ :=
    approvedRun_calls
  have hunrepeatable : Unrepeatable putSetting.registry r.row := by
    refine ⟨putFile, ?_, rfl⟩
    rw [hid]
    rfl
  exact ⟨sys, r, hreaches, hr, hunrepeatable, hcalls,
    (called_at_most_once rfl hreaches hr).1 hunrepeatable⟩

/-- A later store of the same run. -/
def Leads (sys sys' : System Store Lock Client Reply) : Prop := ∃ acts, sys.run acts = some sys'

theorem Leads.step (h : Leads sys sys') {sys'' : System Store Lock Client Reply}
    (hstep : sys'.step act = some sys'') : Leads sys sys'' := by
  obtain ⟨acts, hrun⟩ := h
  refine ⟨acts ++ [act], ?_⟩
  induction acts generalizing sys with
  | nil =>
    cases hrun
    simp [System.run, hstep]
  | cons first rest ih =>
    simp only [System.run, Option.bind_eq_some_iff] at hrun
    obtain ⟨next, hnext, hrun⟩ := hrun
    simp only [List.cons_append, System.run, hnext, Option.bind_some]
    exact ih hrun

end Calls

section Lives
variable {sys sys' : System Store Lock Client Reply} {acts : List (Act Store Lock Client Reply)}

/-- The life cycle of an intent. -/
inductive StatusStep : ActionIntentStatus → ActionIntentStatus → Prop
  | ready : StatusStep .awaitingConsent .ready
  | claim : StatusStep .ready .executing
  | settle {status : ActionIntentStatus}
    (h : status ∈ [.succeeded, .failed, .stale, .outcomeUnknown]) : StatusStep .executing status
  | withdraw {status status' : ActionIntentStatus} (h : status ∈ [.awaitingConsent, .ready])
    (h' : status' ∈ [.rejected, .cancelled]) : StatusStep status status'

theorem StatusStep.open {status status' : ActionIntentStatus} (h : StatusStep status status') :
    terminalFact status = none := by
  cases h with
  | ready => rfl
  | claim => rfl
  | settle => rfl
  | withdraw h =>
    simp only [List.mem_cons, List.not_mem_nil, or_false] at h
    rcases h with rfl | rfl <;> rfl

theorem settled_status {status : ActionIntentStatus} {event : IntentEvent}
    (h : terminalEvent status = some event) :
    status ∈ [.succeeded, .failed, .stale, .outcomeUnknown] := by
  cases status <;> simp [terminalEvent] at h ⊢

theorem withdrawn_status {status : ActionIntentStatus} {factType : FactType}
    (hfact : terminalFact status = some factType) (hevent : terminalEvent status = none) :
    status ∈ [.rejected, .cancelled] := by
  cases status <;> simp [terminalFact, terminalEvent] at hfact hevent ⊢

theorem IntentStep.status (h : IntentStep setting c held s i r r') :
    Relation.ReflTransGen StatusStep r.row.status r'.row.status := by
  cases h with
  | fact => exact .refl
  | dispatch => exact .refl
  | call => exact .refl
  | ready now hheld hstatus =>
    rw [hstatus]
    exact .single .ready
  | claim attempt now hheld hstatus =>
    rcases hstatus with hstatus | ⟨hstatus, _⟩
    · rw [hstatus]
      exact .single .claim
    · rw [hstatus]
      exact .refl
  | settle row event fact hheld hstatus _ _ _ hfact hevent =>
    rw [hstatus]
    exact .single (.settle (settled_status hevent))
  | withdraw row fact hheld hstatus _ _ _ hfact hevent =>
    exact .single (.withdraw (by simpa using hstatus) (withdrawn_status hfact hevent))

theorem steps_status (h : Relation.ReflTransGen (IntentStep setting c held s i) r r') :
    Relation.ReflTransGen StatusStep r.row.status r'.row.status := by
  induction h with
  | refl => exact .refl
  | tail _ hstep ih => exact ih.trans hstep.status

/-- What a later store shows of an intent. -/
def Lives (i : String) (s s' : Store) : Prop :=
  ∀ r, s.intent i = some r → ∃ r', s'.intent i = some r' ∧
    r'.row.toInvocation = r.row.toInvocation ∧
    Relation.ReflTransGen StatusStep r.row.status r'.row.status

theorem Lives.trans {t : Store} (h : Lives i s s') (h' : Lives i s' t) : Lives i s t := by
  intro r hr
  obtain ⟨r₁, hr₁, hsame₁, hpath₁⟩ := h r hr
  obtain ⟨r₂, hr₂, hsame₂, hpath₂⟩ := h' r₁ hr₁
  exact ⟨r₂, hr₂, hsame₂.trans hsame₁, hpath₁.trans hpath₂⟩

theorem Move.lives (h : Move setting c held s s') : Lives i s s' := by
  intro r hr
  obtain ⟨r', hr', hsteps⟩ := h.intent_some hr
  exact ⟨r', hr', steps_invocation hsteps, steps_status hsteps⟩

theorem status_ended {status status' : ActionIntentStatus}
    (h : Relation.ReflTransGen StatusStep status status') (hended : terminalFact status ≠ none) :
    status' = status := by
  cases Relation.ReflTransGen.cases_head h with
  | inl heq => exact heq.symm
  | inr hstep =>
    obtain ⟨_, hstep, _⟩ := hstep
    exact absurd hstep.open hended

/-- Along every run an intent keeps the columns of its invocation and goes through its life cycle;
once it has ended its status stays. It has the one audit fact of its end, and the one event, if it
has ended so, and none before. -/
theorem intent_lives (h : setting.Reaches sys) (hacts : ∀ act ∈ acts, act.Admitted setting.Admits)
    (hrun : sys.run acts = some sys') (hr : sys.store.intent i = some r) :
    ∃ r', sys'.store.intent i = some r' ∧ r'.row.toInvocation = r.row.toInvocation ∧
      Relation.ReflTransGen StatusStep r.row.status r'.row.status ∧
      (terminalFact r.row.status ≠ none → r'.row.status = r.row.status) ∧
      (r'.facts.filter fun fact => fact.factType.terminal).map AuditFact.factType =
        (terminalFact r'.row.status).toList ∧
      r'.events = (terminalEvent r'.row.status).toList := by
  have hlives : Lives i sys.store sys'.store := by
    refine Discipline.rel_of_reachable ?_ ?_ ?_ setting_keeps (sound_of_reaches h) hacts hrun
    · exact fun s r hr => ⟨r, hr, rfl, .refl⟩
    · exact fun h h' => Lives.trans h h'
    · exact fun _ hmove => Move.lives hmove
  obtain ⟨r', hr', hsame, hpath⟩ := hlives r hr
  have hinv := (sound_of_reaches (h.run hacts hrun)).inv.records i r' hr'
  exact ⟨r', hr', hsame, hpath, status_ended hpath, hinv.facts, hinv.events⟩

theorem put_lives : ∃ sys sys' r r', putSetting.Reaches sys ∧ sys.run approvedRun = some sys' ∧
    sys.store.intent "request" = some r ∧ r.row.status = .awaitingConsent ∧
    sys'.store.intent "request" = some r' ∧
    Relation.ReflTransGen StatusStep r.row.status r'.row.status := by
  obtain ⟨sys, sys', r, _, _, _, ⟨hreaches, hrun, _⟩, ⟨hr, hstatus⟩, _⟩ := approvedRun_calls
  obtain ⟨r', hr', _, hpath, _⟩ := intent_lives hreaches approvedRun_admitted hrun hr
  exact ⟨sys, sys', r, r', hreaches, hrun, hr, hstatus, hr', hpath⟩

end Lives

section Decisions
variable {sys sys' : System Store Lock Client Reply} {acts : List (Act Store Lock Client Reply)}
  {q : RequestRecord}

/-- What a later store shows of a request. -/
def Remains (i : String) (s s' : Store) : Prop :=
  ∀ q, s.request i = some q → ∃ q', s'.request i = some q' ∧
    q'.row.toQuestion = q.row.toQuestion ∧ (q.row.status ≠ .pending → q' = q)

theorem Remains.trans {t : Store} (h : Remains i s s') (h' : Remains i s' t) : Remains i s t := by
  intro q hq
  obtain ⟨q₁, hq₁, hsame₁, hended₁⟩ := h q hq
  obtain ⟨q₂, hq₂, hsame₂, hended₂⟩ := h' q₁ hq₁
  refine ⟨q₂, hq₂, hsame₂.trans hsame₁, fun hstatus => ?_⟩
  have heq := hended₁ hstatus
  subst heq
  exact hended₂ hstatus

theorem Move.remains (h : Move setting c held s s') : Remains i s s' := by
  intro q hq
  obtain ⟨q', hq', hsame, _, hended⟩ := h.request_some hq
  exact ⟨q', hq', hsame, hended⟩

theorem RequestInv.decided_iff (h : RequestInv q) :
    q.row.status = .decided ↔ ∃ decision, q.decisions = [decision] := by
  refine ⟨fun hstatus => (h.decided hstatus).1, ?_⟩
  rintro ⟨decision, hdecision⟩
  cases hstatus : q.row.status with
  | decided => rfl
  | pending =>
    rw [(h.pending hstatus).1] at hdecision
    cases hdecision
  | cancelled =>
    rw [(h.cancelled hstatus).1] at hdecision
    cases hdecision

theorem RequestInv.cancelled_iff (h : RequestInv q) :
    q.row.status = .cancelled ↔ q.row.cancelledAt ≠ none := by
  refine ⟨fun hstatus => (h.cancelled hstatus).2, fun hcancelled => ?_⟩
  cases hstatus : q.row.status with
  | cancelled => rfl
  | pending => exact absurd (h.pending hstatus).2 hcancelled
  | decided => exact absurd (h.decided hstatus).2 hcancelled

/-- Along every run a request keeps its question, and once it has ended it stays as it is. It is
decided when it has its one Decision, cancelled when it has the time of that, and has no Decision
then; a person's Decision was made before the request expired, by the clock reading it carries or by
the one its transaction took before. -/
theorem request_ends_once (h : setting.Reaches sys)
    (hacts : ∀ act ∈ acts, act.Admitted setting.Admits) (hrun : sys.run acts = some sys')
    (hq : sys.store.request i = some q) :
    ∃ q', sys'.store.request i = some q' ∧ q'.row.toQuestion = q.row.toQuestion ∧
      (q.row.status ≠ .pending → q' = q) ∧
      (q'.row.status = .decided ↔ ∃ decision, q'.decisions = [decision]) ∧
      (q'.row.status = .cancelled ↔ q'.row.cancelledAt ≠ none) ∧
      (q'.row.status ≠ .decided → q'.decisions = []) ∧
      ∀ d ∈ q'.decisions, d.reason = .human → q'.row.expired d.decidedAt = false ∨
        ∃ reading ∈ sys'.store.readings, reading.approvalRequestId = i ∧
          reading.decidedAt = d.decidedAt ∧ q'.row.expired reading.checkedAt = false := by
  have hremains : Remains i sys.store sys'.store := by
    refine Discipline.rel_of_reachable ?_ ?_ ?_ setting_keeps (sound_of_reaches h) hacts hrun
    · exact fun s q hq => ⟨q, hq, rfl, fun _ => rfl⟩
    · exact fun h h' => Remains.trans h h'
    · exact fun _ hmove => Move.remains hmove
  obtain ⟨q', hq', hsame, hended⟩ := hremains q hq
  have hinv := (sound_of_reaches (h.run hacts hrun)).inv
  have hrequest := hinv.requests i q' hq'
  refine ⟨q', hq', hsame, hended, hrequest.decided_iff, hrequest.cancelled_iff, fun hstatus => ?_,
    fun d hd => (hinv.decided i q' d hq' hd).human⟩
  cases hstatus' : q'.row.status with
  | decided => exact absurd hstatus' hstatus
  | pending => exact (hrequest.pending hstatus').1
  | cancelled => exact (hrequest.cancelled hstatus').1

theorem put_request_ends : ∃ sys sys' q q', putSetting.Reaches sys ∧
    sys.run approvedRun = some sys' ∧ sys.store.request "request" = some q ∧
    q.row.status = .pending ∧ sys'.store.request "request" = some q' ∧
    q'.row.toQuestion = q.row.toQuestion ∧
    (q'.row.status = .decided ↔ ∃ decision, q'.decisions = [decision]) := by
  obtain ⟨sys, sys', _, q, _, _, ⟨hreaches, hrun, _⟩, _, ⟨hq, hstatus⟩, _⟩ := approvedRun_calls
  obtain ⟨q', hq', hsame, _, hdecided, _⟩ :=
    request_ends_once hreaches approvedRun_admitted hrun hq
  exact ⟨sys, sys', q, q', hreaches, hrun, hq, hstatus, hq', hsame, hdecided⟩

/-- Every answer is true of the Decision that its request then has, and a repeated decision gets it
back unless the caller is refused. A key that has decided in a session never decides again there:
with the same content on the same request it gets its Decision back, with other content a conflict,
and on a request without a Decision none. Nobody has halted because an idempotency record was there
for a request that is still pending. -/
theorem retry_answered (h : setting.Reaches sys) :
    (∀ answer ∈ sys.store.answers, answer.Faithful) ∧
      sys.store.answers.Pairwise Answer.Ordered ∧
      ∀ c thread, sys.threads c = some thread → thread.program ≠ .halt decisionExists := by
  have hsound := sound_of_reaches h
  exact ⟨hsound.inv.answers, hsound.inv.order, fun c thread hthread hhalt =>
    hsound.permits hthread hhalt rfl⟩

theorem put_answered : ∃ sys, putSetting.Reaches sys ∧ sys.store.answers.map Answer.result =
      [.decided putDecision, .replay putDecision, .decisionConflict] ∧
    (∀ answer ∈ sys.store.answers, answer.Faithful) ∧
    sys.store.answers.Pairwise Answer.Ordered := by
  obtain ⟨_, sys, _, _, _, _, ⟨_, _, hreaches⟩, _, _, _, _, hanswers⟩ := approvedRun_calls
  obtain ⟨hfaithful, hordered, _⟩ := retry_answered hreaches
  exact ⟨sys, hreaches, hanswers, hfaithful, hordered⟩

end Decisions
end Linea.Consent
