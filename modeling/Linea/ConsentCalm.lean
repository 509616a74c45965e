import Linea.ConsentLinks

/-! The programs that insert none of the rows that refer to others. Each is calm: whatever it
commits, the columns of `SameColumns` are as they were. -/
namespace Linea.Consent
variable {α β : Type}

abbrev Calm (program : Program α) : Prop := columnsFrame.Calm program

section Statements

theorem lockRow_calm {lock : Lock} {view : Store → Option α} : Calm (lockRow lock view) :=
  .selectForUpdate

theorem lockSlot_calm {lock : Lock} {view : Store → Option α} : Calm (lockSlot lock view) :=
  .selectForUpdate

theorem recordActionIntentFact_calm {id : String} {intent : ActionIntent} {fact : AuditFact} :
    Calm (recordActionIntentFact id intent fact) := by
  refine .bind .select fun context => ?_
  split
  · exact .update fun _ => .setIntent fun _ => rfl
  · exact .halt

theorem lockAudience_calm {workspaceId environmentId externalSubjectId : String} :
    Calm (lockAudience workspaceId environmentId externalSubjectId) := by
  refine .bind lockRow_calm fun audience => ?_
  split
  · exact .pure
  · exact .halt

theorem createIntentEvent_calm {id : String} {intent : ActionIntent} {event : IntentEvent} :
    Calm (createIntentEvent id intent event) :=
  .bind lockAudience_calm fun _ => .update fun _ => .setIntent fun _ => rfl

theorem updateIntent_calm {id : String} {guard : ActionIntent → Bool}
    {set : IntentRecord → IntentRecord}
    (hset : ∀ r, (set r).row.toInvocation = r.row.toInvocation) :
    Calm (updateIntent id guard set) := by
  refine .bind lockRow_calm fun found => ?_
  split
  · exact .pure
  · exact .bind (.update fun s => .setIntent hset) fun _ => .pure

theorem publishRequestEvent_calm {question : Question} : Calm (publishRequestEvent question) := by
  unfold publishRequestEvent
  split
  · exact .pure
  · exact lockAudience_calm
  · exact .halt

end Statements

section Intents

theorem readRequesterAuthority_calm {connectionId externalSubjectId : String}
    {connection : Option Connection} :
    Calm (readRequesterAuthority connectionId connection externalSubjectId) := by
  unfold readRequesterAuthority
  split
  · exact .select
  · exact .pure

theorem readReviewerAuthority_calm {connectionId : String} {connection : Option Connection}
    {decision : Option ApprovalDecision} :
    Calm (readReviewerAuthority connectionId connection decision) := by
  unfold readReviewerAuthority
  split
  · exact .select
  · exact .pure

theorem currentConsent_calm {authority : LockedAuthority} {input : ClaimInput} :
    Calm (currentConsent authority input) := by
  refine .bind (.bind readRequesterAuthority_calm fun _ => .pure) fun authorized => ?_
  split
  · refine .bind readReviewerAuthority_calm fun reviewer => ?_
    split <;> exact .pure
  · exact .pure

theorem lockActiveActionIntentExecution_calm {actionIntentId executionClaimId : String} {now : ℕ} :
    Calm (lockActiveActionIntentExecution actionIntentId executionClaimId now) := by
  refine .bind .select fun claimed => ?_
  split
  · exact .pure
  · exact .bind lockRow_calm fun _ => .pure

theorem failRecoveredActionIntent_calm {intent : ActionIntent} {input : ClaimInput}
    {priorClaimId : String} : Calm (failRecoveredActionIntent intent input priorClaimId) := by
  refine .bind (updateIntent_calm fun r => rfl) fun failed => ?_
  split
  · exact .pure
  · exact .bind createIntentEvent_calm fun _ => .bind recordActionIntentFact_calm fun _ => .pure

theorem recoverExecutingActionIntent_calm {client : Client} {authority : LockedAuthority}
    {input : ClaimInput} : Calm (recoverExecutingActionIntent client authority input) := by
  unfold recoverExecutingActionIntent
  split
  · exact .pure
  split
  · exact .pure
  refine .bind currentConsent_calm fun valid => ?_
  split
  · exact .halt
  split
  · exact failRecoveredActionIntent_calm
  refine .bind (updateIntent_calm fun r => rfl) fun recovered => ?_
  split <;> exact .pure

theorem cancelUnauthorizedActionIntent_calm {id : String} {now : ℕ} :
    Calm (cancelUnauthorizedActionIntent id now) := by
  refine .bind (updateIntent_calm fun r => rfl) fun cancelled => ?_
  split
  · exact .bind recordActionIntentFact_calm fun _ => .pure
  · exact .pure

theorem markReady_calm {id : String} {intent : ActionIntent} {now : ℕ} :
    Calm (markReady id intent now) := by
  unfold markReady
  split
  · refine .bind (updateIntent_calm fun r => rfl) fun ready => ?_
    split
    · exact recordActionIntentFact_calm
    · exact .pure
  · exact .pure

theorem claimReadyActionIntent_calm {client : Client} {intent : ActionIntent}
    {connection : Connection} {input : ClaimInput} :
    Calm (claimReadyActionIntent client intent connection input) := by
  refine .bind markReady_calm fun _ => .bind (updateIntent_calm fun r => rfl) fun claimed => ?_
  split
  · exact .pure
  · exact .bind recordActionIntentFact_calm fun _ => .pure

theorem claimApprovedActionIntent_calm {client : Client} {input : ClaimInput} :
    Calm (claimApprovedActionIntent client input) := by
  refine .transaction (.bind .select fun snapshot => ?_)
  split
  · exact .pure
  split
  · exact .pure
  refine .bind .select fun decisionSnapshot => ?_
  split
  · exact .pure
  refine .bind .selectForUpdate fun subject => .bind lockRow_calm fun environment => ?_
  refine .bind lockRow_calm fun connection => .bind lockRow_calm fun request => ?_
  refine .bind lockRow_calm fun execution => .bind .select fun decision => ?_
  refine .bind lockRow_calm fun intent => ?_
  split
  · exact .pure
  split
  · exact .pure
  split
  · exact .bind recoverExecutingActionIntent_calm fun _ => .pure
  split
  · exact .pure
  refine .bind currentConsent_calm fun consent => ?_
  split
  · exact .bind cancelUnauthorizedActionIntent_calm fun _ => .pure
  split
  · exact .halt
  · exact .bind claimReadyActionIntent_calm fun _ => .pure

theorem beginActionIntentDispatch_calm {client : Client} {input : ClaimInput} :
    Calm (beginActionIntentDispatch client input) := by
  refine .transaction (.bind .select fun snapshot => ?_)
  split
  · exact .pure
  split
  · exact .pure
  refine .bind .select fun decisionSnapshot => .bind .selectForUpdate fun subject => ?_
  refine .bind lockRow_calm fun environment => .bind lockRow_calm fun connection => ?_
  refine .bind lockRow_calm fun request => .bind .select fun decision => ?_
  refine .bind lockActiveActionIntentExecution_calm fun active => ?_
  split
  · exact .pure
  refine .bind currentConsent_calm fun consent => ?_
  split
  · exact .bind failRecoveredActionIntent_calm fun _ => .pure
  · exact updateIntent_calm fun r => rfl

theorem settleActionIntent_calm {actionIntentId executionClaimId : String} {now : ℕ}
    {settlement : Settlement}
    (hset : ∀ row, (settlement.set row).toInvocation = row.toInvocation) :
    Calm (settleActionIntent actionIntentId executionClaimId now settlement) := by
  refine .transaction (.bind lockActiveActionIntentExecution_calm fun active => ?_)
  split
  · exact .pure
  refine .bind (updateIntent_calm fun r => hset r.row) fun settled => ?_
  split
  · exact .pure
  · exact .bind createIntentEvent_calm fun _ => .bind recordActionIntentFact_calm fun _ => .pure

theorem rejectActionIntent_calm {id : String} : Calm (rejectActionIntent id) := by
  refine .transaction (.bind .receiving fun now => .bind (updateIntent_calm fun r => rfl)
    fun rejected => ?_)
  split
  · exact .pure
  · exact .bind .select fun _ => .bind recordActionIntentFact_calm fun _ => .pure

end Intents

section Cancellation

theorem recordCancellations_calm {now : ℕ} :
    ∀ {intents : List (String × ActionIntent)}, Calm (recordCancellations now intents)
  | [] => .pure
  | _ :: _ => .bind recordActionIntentFact_calm fun _ => recordCancellations_calm

theorem recordApprovalCancellations_calm :
    ∀ {requests : List ApprovalRequest}, Calm (recordApprovalCancellations requests)
  | [] => .pure
  | request :: rest => by
    refine .bind ?_ fun _ => recordApprovalCancellations_calm
    unfold recordApprovalCancellation
    split
    · exact lockAudience_calm
    · exact .pure

theorem cancelNonExecutingActionIntents_calm {workspaceId : String} {scope : CancellationScope}
    {cancelledAt : ℕ} : Calm (cancelNonExecutingActionIntents workspaceId scope cancelledAt) := by
  refine .bind .select fun snapshots => ?_
  split
  · exact .pure
  refine .bind .selectForUpdate fun _ => .bind (.bind .select fun _ => .selectForUpdate)
    fun locked => ?_
  dsimp only
  split
  · exact .pure
  split
  · exact .pure
  refine .bind (.update fun s => .cancelIntents _ _) fun _ => ?_
  refine .bind recordCancellations_calm fun _ => .bind .selectForUpdate fun requests => ?_
  refine .bind (.update fun s => .cancelRequests _ _) fun _ => ?_
  exact .bind recordApprovalCancellations_calm fun _ => .pure

def OwnedBy (id : String) (owner : ExecutionOwner) (s : Store) : Prop :=
  s.executionOwner id = some owner

theorem OwnedBy.permanent {id : String} {owner : ExecutionOwner} :
    columns.Permanent (OwnedBy id owner) :=
  fun _ hs hmove => hmove.execution_stays hs

variable {c : Client} {held : Set Lock} {pending : Store → Store} {known : Store → Prop}
  {next : Option Execution → Program α}
  {post : Set Lock → (Store → Store) → (Store → Prop) → α → Prop}

/-- An execution is locked and seen after a change that keeps its owner. -/
theorem lockExecution_bind {id : String} {change : Execution → Option Execution}
    (hchange : ∀ e e', change e = some e' → ownerOf e' = ownerOf e)
    (hquiet : columnsFrame.Quiet known pending)
    (hnone : ∀ held' known', columnsFrame.Quiet known' pending →
      columns.wp c (next none) held' pending known' post)
    (hsome : ∀ e held' known', columnsFrame.Quiet known' pending →
      (∀ s, known' s → OwnedBy id (ownerOf e) s) →
      columns.wp c (next (some e)) held' pending known' post) :
    columns.wp c ((lockRow (.execution id) fun s => (s.execution id).bind change) >>= next) held
      pending known post := by
  refine Discipline.wp_lock_bind fun s held' known' hinv hs _ _ hknown => ?_
  have hquiet' := hquiet.mono fun t ht => (hknown t ht).1
  cases hview : ((pending s).execution id).bind change with
  | none => exact hnone held' known' hquiet'
  | some e =>
    obtain ⟨old, hold, he⟩ := Option.bind_eq_some_iff.mp hview
    refine hsome e held' known' hquiet' fun t ht => ?_
    refine Discipline.Permanent.rely OwnedBy.permanent (hknown t ht).2 ?_
    rw [OwnedBy, ← (hquiet s hinv hs).executions id, Store.executionOwner, hold, hchange old e he]
    rfl

theorem setExecution_quiet {id : String} {e : Execution} (hquiet : columnsFrame.Quiet known pending)
    (hknown : ∀ s, known s → OwnedBy id (ownerOf e) s) :
    columnsFrame.Quiet known fun s => (pending s).setExecution id (.withRow fun _ => e) :=
  hquiet.update fun s hinv hs =>
    .setExecution (((hquiet s hinv hs).executions id).trans (hknown s hs))

theorem resumeDecisionExecution_calm {executionId : String} :
    Calm (resumeDecisionExecution executionId) := by
  refine ⟨fun hquiet => lockExecution_bind (fun e e' h => ?_) hquiet (fun _ _ hquiet => hquiet)
    fun e held' known' hquiet hknown => setExecution_quiet hquiet hknown⟩
  unfold Execution.requeue at h
  split at h
  · cases h
    rfl
  · cases h

theorem cancelExecution_owner {e e' : Execution} {workspaceId environmentId : String}
    {cancelledAt : ℕ} (h : (if e.workspaceId = workspaceId then
      e.cancelExecution environmentId cancelledAt else none) = some e') : ownerOf e' = ownerOf e := by
  unfold Execution.cancelExecution at h
  split at h
  · split at h
    · cases h
      rfl
    · cases h
  · cases h

theorem cancelExecutionWithPendingApproval_calm {workspaceId environmentId executionId : String}
    {cancelledAt : ℕ} : Calm (cancelExecutionWithPendingApproval workspaceId environmentId
      executionId cancelledAt) := by
  refine .bind .selectForUpdate fun _ => .bind .select fun found => ?_
  refine .bind .selectForUpdate fun waiting => ?_
  split
  · exact .halt
  refine ⟨fun hquiet => lockExecution_bind (fun _ _ h => cancelExecution_owner h) hquiet
    (fun _ _ hquiet => hquiet) fun e held' known' hquiet hknown => ?_⟩
  refine cancelNonExecutingActionIntents_calm.bind_of OwnedBy.permanent hquiet hknown
    fun intents held' pending known hquiet hknown => ?_
  split
  · exact hquiet
  refine Discipline.wp_update_bind ?_
  have hquiet := setExecution_quiet hquiet hknown
  split
  · refine Discipline.Frame.Calm.quiet (.bind lockRow_calm fun cancelled => ?_) hquiet
    split
    · exact .halt
    refine .bind (.update fun s => .cancelRequests _ _) fun _ => ?_
    exact .bind publishRequestEvent_calm fun _ => .pure
  · exact hquiet

end Cancellation

section Decisions

theorem recordActionIntentDecisionFact_calm {requestId : String} {request : ApprovalRequest}
    {decision : ApprovalDecision} :
    Calm (recordActionIntentDecisionFact requestId request decision) := by
  unfold recordActionIntentDecisionFact
  split
  · exact .pure
  refine .bind .select fun intent => ?_
  split
  · exact .pure
  · exact recordActionIntentFact_calm

theorem recordDecision_calm {requestId : String} {request : ApprovalRequest}
    {input : RecordDecisionInput} : Calm (recordDecision requestId request input) := by
  refine .bind .receiving fun id => .bind .select fun existing => ?_
  split
  · exact .halt
  refine .bind (.update fun _ => .setRequest fun _ => rfl) fun _ => ?_
  refine .bind lockRow_calm fun waiting => ?_
  split
  · exact .halt
  refine .bind (.update fun _ => .setRequest fun _ => rfl) fun _ => ?_
  refine .bind recordActionIntentDecisionFact_calm fun _ => ?_
  refine .bind resumeDecisionExecution_calm fun _ => ?_
  exact .bind publishRequestEvent_calm fun _ => .pure

theorem recordTimeoutDecision_calm {requestId : String} {request : ApprovalRequest} {now : ℕ} :
    Calm (recordTimeoutDecision requestId request now) := by
  unfold recordTimeoutDecision
  split
  · exact .halt
  · exact recordDecision_calm

theorem decideWorkspaceApprovalRequest_calm {workspaceId approvalRequestId : String}
    {input : WorkspaceDecisionInput} :
    Calm (decideWorkspaceApprovalRequest workspaceId approvalRequestId input) := by
  refine .transaction (.bind .receiving fun member => .bind lockRow_calm fun request => ?_)
  split
  · exact .pure
  refine .bind .receiving fun checkedAt => .bind .receiving fun decidedAt => ?_
  refine .bind (.update fun s => { SameColumns.refl s with }) fun _ => ?_
  split
  · exact .bind recordTimeoutDecision_calm fun _ => .pure
  · exact .bind recordDecision_calm fun _ => .pure

theorem claimAndDecideTimedOutApprovalRequest_calm :
    Calm claimAndDecideTimedOutApprovalRequest := by
  refine .transaction (.bind .receiving fun now => .bind .receiving fun id => ?_)
  refine .bind lockRow_calm fun due => ?_
  split
  · exact .pure
  · exact .bind recordTimeoutDecision_calm fun _ => .pure

theorem getApprovalReviewerAuthority_calm {requestId externalSubjectId : String}
    {request : ApprovalRequest} :
    Calm (getApprovalReviewerAuthority requestId request externalSubjectId) := by
  refine .bind .select fun linked => ?_
  split
  · exact .select
  · exact .pure

theorem isExternalRequestOwner_calm {request : Option ApprovalRequest}
    {input : ExternalDecisionInput} : Calm (isExternalRequestOwner request input) := by
  unfold isExternalRequestOwner
  split
  · exact .pure
  split
  · exact .pure
  · exact .bind getApprovalReviewerAuthority_calm fun _ => .pure

theorem decidePendingExternalRequest_calm {hashing : Hashing} {request : ApprovalRequest}
    {input : ExternalDecisionInput} : Calm (decidePendingExternalRequest hashing request input) := by
  refine .bind (.bind lockSlot_calm fun existing => ?_) fun reservation => ?_
  · split
    · exact .bind (.update fun s => { SameColumns.refl s with }) fun _ => .pure
    split
    · exact .pure
    split
    · exact .halt
    · exact .pure
  · split
    · exact .pure
    · exact .halt
    refine .bind getApprovalReviewerAuthority_calm fun _ => .bind recordDecision_calm fun _ => ?_
    exact .bind (.update fun s => { SameColumns.refl s with }) fun _ => .pure

theorem decideExternalApprovalRequest_calm {hashing : Hashing} {input : ExternalDecisionInput} :
    Calm (decideExternalApprovalRequest hashing input) := by
  refine .transaction (.bind ?_ fun _ =>
    .bind (.update fun s => { SameColumns.refl s with }) fun _ => .pure)
  refine .bind .select fun snapshot => .bind isExternalRequestOwner_calm fun owner => ?_
  split
  · exact .pure
  refine .bind .select fun session => ?_
  split
  · exact .pure
  refine .bind lockRow_calm fun request => .bind isExternalRequestOwner_calm fun owner => ?_
  split
  · exact .pure
  split
  · exact .pure
  split
  · exact .pure
  · refine .bind .select fun decision => ?_
    unfold resolveExistingExternalDecision
    split
    · exact .halt
    split
    · exact .pure
    split
    · exact .pure
    split <;> exact .pure
  · split
    · exact .bind recordTimeoutDecision_calm fun _ => .pure
    · exact decidePendingExternalRequest_calm

end Decisions

section Authorities

theorem disableExternalSubject_calm {workspaceId externalSubjectId : String} :
    Calm (disableExternalSubject workspaceId externalSubjectId) := by
  refine .transaction (.bind lockRow_calm fun existing => ?_)
  split
  · exact .pure
  · exact .pure
  · exact .pure
  refine .bind .receiving fun now => .bind cancelNonExecutingActionIntents_calm fun _ => ?_
  refine .bind (.update fun _ => .setSubjectStatus _ _) fun _ => ?_
  exact .update fun s => { SameColumns.refl s with }

theorem eraseExternalSubject_calm {workspaceId externalSubjectId : String} :
    Calm (eraseExternalSubject workspaceId externalSubjectId) := by
  refine .transaction (.bind lockRow_calm fun existing => ?_)
  split
  · exact .pure
  · exact .pure
  refine .bind .receiving fun now => ?_
  refine .bind (.update fun s => { SameColumns.refl s with }) fun _ => ?_
  refine .bind (.update fun _ => .revokeReviewers _ _ _) fun _ => ?_
  refine .bind cancelNonExecutingActionIntents_calm fun _ => ?_
  refine .bind (.update fun _ => .eraseConnections _ _) fun _ => ?_
  refine .bind (.update fun _ => .setSubjectStatus _ _) fun _ => ?_
  exact .update fun s => { SameColumns.refl s with }

theorem revokeConnectionSubjectAuthorization_calm {shared : SharedConnection}
    {authorizationId externalSubjectId : String} {kind : SubjectAuthorizationKind} :
    Calm (revokeConnectionSubjectAuthorization shared authorizationId externalSubjectId kind) := by
  refine .transaction (.bind lockRow_calm fun _ => .bind .select fun connection => ?_)
  split
  · exact .halt
  refine .bind .select fun existing => ?_
  split
  · exact .halt
  split
  · exact .pure
  refine .bind .receiving fun now => .bind (.update fun _ => .setAuthorizations fun a => ?_)
    fun _ => ?_
  · split
    · exact a.revoke_workspaceId now
    · rfl
  · split
    · exact .bind cancelNonExecutingActionIntents_calm fun _ => .pure
    · exact .pure

theorem revokeSharedEnvironmentConnection_calm {shared : SharedConnection} :
    Calm (revokeSharedEnvironmentConnection shared) := by
  refine .transaction (.bind lockRow_calm fun _ => .bind .select fun connection => ?_)
  split
  · exact .halt
  · exact .pure
  refine .bind .receiving fun now => .bind cancelNonExecutingActionIntents_calm fun _ => ?_
  exact .update fun _ => .setConnection fun _ => rfl

theorem revokeConnection_calm {owner : ConnectionOwner} {connectionId : String} {now : ℕ} :
    Calm (revokeConnection owner connectionId now) := by
  refine .transaction (.bind lockRow_calm fun connection => ?_)
  split
  · exact .pure
  refine .bind (.update fun _ => .setConnection fun _ => rfl) fun _ => ?_
  exact .bind cancelNonExecutingActionIntents_calm fun _ => .pure

end Authorities

section Gateway

theorem failSideEffect_calm {actionIntentId executionClaimId : String} {error : ConnectorError}
    {status : FailureStatus} :
    Calm (failSideEffect actionIntentId executionClaimId error status : Program α) := by
  refine .bind .receiving fun failedAt => .bind (settleActionIntent_calm fun _ => rfl)
    fun failed => ?_
  split <;> exact .halt

theorem dispatchAttempt_calm {call : SideEffectCall} {failed : ConnectorError → Bool → Program Value}
    (hfailed : ∀ error aborted, Calm (failed error aborted)) :
    Calm (dispatchAttempt call failed) := by
  refine .bind .receiving fun now => .bind beginActionIntentDispatch_calm fun dispatch => ?_
  split
  · exact .halt
  refine .bind (.bind (.transaction (.update fun _ => .setIntent fun _ => rfl)) fun _ =>
    .receiving) fun answer => ?_
  split
  · exact .halt
  · exact .bind .receiving fun aborted => hfailed _ aborted
  refine .bind .receiving fun completedAt => .bind (settleActionIntent_calm fun _ => rfl)
    fun completed => ?_
  split
  · exact .halt
  · exact .pure

theorem dispatchLoop_calm {call : SideEffectCall} {retries : ℕ} :
    Calm (dispatchLoop call retries) := by
  induction retries with
  | zero => exact dispatchAttempt_calm fun _ _ => failSideEffect_calm
  | succ retries ih =>
    refine dispatchAttempt_calm fun error aborted => ?_
    split
    · exact ih
    · exact failSideEffect_calm

theorem checkPreconditions_calm {claimed : ActionIntent}
    {actionIntentId executionClaimId : String} :
    Calm (checkPreconditions claimed actionIntentId executionClaimId) := by
  unfold checkPreconditions
  split
  · refine .bind .receiving fun valid => ?_
    split
    · exact failSideEffect_calm
    · exact .pure
    · exact failSideEffect_calm
  · exact .pure

theorem invokeSideEffect_calm {client : Client} {operation : SideEffectOperation}
    {actionIntentId executionClaimId : String} {claimed : ActionIntent}
    {installationId : Option String} :
    Calm (invokeSideEffect client operation actionIntentId claimed installationId
      executionClaimId) := by
  unfold invokeSideEffect
  split
  · refine .bind checkPreconditions_calm fun _ => ?_
    split
    · exact .halt
    · exact dispatchLoop_calm
  · exact .halt

theorem dispatchClaimedSideEffect_calm {client : Client} {operation : SideEffectOperation}
    {actionIntentId executionClaimId : String} {claimed : ActionIntent} {recovered : Bool} :
    Calm (dispatchClaimedSideEffect client operation actionIntentId claimed recovered
      executionClaimId) := by
  unfold dispatchClaimedSideEffect
  split
  · exact failSideEffect_calm
  refine .bind .receiving fun credential => ?_
  split
  · split <;> exact failSideEffect_calm
  split
  · exact .halt
  · exact .bind invokeSideEffect_calm fun _ => .pure

theorem executeApprovedSideEffect_calm {client : Client} {operation : SideEffectOperation}
    {input : SideEffectInput} {consent : ActionIntentConsent} :
    Calm (executeApprovedSideEffect client operation input consent) := by
  unfold executeApprovedSideEffect
  split
  · exact .halt
  refine .bind .receiving fun now => .bind claimApprovedActionIntent_calm fun claimed => ?_
  split
  · exact .halt
  · exact .halt
  · exact .halt
  · exact .halt
  · unfold resolveTerminalActionIntent
    split
    · exact .pure
    · split
      · exact .halt
      · exact .pure
    · split <;> exact .halt
    · split <;> exact .halt
    · split <;> exact .halt
    · exact .halt
  · exact dispatchClaimedSideEffect_calm
  · exact dispatchClaimedSideEffect_calm

theorem resolveSideEffectConsent_calm {hashing : Hashing} {client : Client}
    {operation : SideEffectOperation} {input : SideEffectInput} {consent : ActionIntentConsent} :
    Calm (resolveSideEffectConsent hashing client operation input consent) := by
  unfold resolveSideEffectConsent
  split
  · exact .pure
  · exact .halt
  · exact .halt
  split
  · exact .bind rejectActionIntent_calm fun _ => .pure
  split
  · exact executeApprovedSideEffect_calm
  · exact .halt

end Gateway
end Linea.Consent
