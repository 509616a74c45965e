import Linea.Approvals

/-! Paused executions and what can wake them. Over every interleaving of workers, decisions,
timers, cancellations and revocations, a paused execution keeps a pending Approval Request or an
unfired timer as long as no revocation cancels the last request it waits for. -/
namespace Linea.Wakeup
open OrderedMap Database

inductive Op
  | tick (elapsed : ℕ)
  | createExecution (id workspaceId : String)
      (environmentId externalSubjectRecordId conversationId : Option String)
  | startExecution (id attemptId : String) (leaseExpiresAt : ℕ)
  | renewLease (id attemptId : String) (leaseExpiresAt : ℕ)
  | completeExecution (id attemptId : String) (audienceExists : Bool)
      (input : CompleteExecutionInput)
  | createApprovalRequest (id : String) (request : ApprovalRequest)
  | createActionIntent (admitted : Bool) (grantId : Option String) (requestId intentId : String)
      (input : CreateActionIntentInput)
  | advanceActionIntent (id : String) (status : ActionIntentStatus)
  | createWaitTimer (id : String) (timer : WaitTimer)
  | claimPauseForPendingApprovalRequest (workspaceId executionId nodeId attemptId : String)
  | claimPauseForPendingWait (workspaceId executionId nodeId attemptId : String)
  | decideApprovalRequest (admitted : Bool) (id : String)
  | claimAndDecideTimedOutApprovalRequest (id : String)
  | claimAndResolveDueWaitTimer (id : String)
  | cancelExecutionWithPendingApproval (workspaceId environmentId executionId : String)
  | revokeConnection (workspaceId id : String)
  | revokeConnectionAccessGrant (workspaceId id : String)
  | disableExternalSubject (workspaceId id : String)

/-- The statuses an intent is moved to by `rejectActionIntent`, `claimApprovedActionIntent`,
`completeActionIntent` and `failActionIntent`. -/
def intentTransitions : ActionIntentStatus → List ActionIntentStatus
  | .awaitingConsent => [.rejected, .executing, .cancelled]
  | .ready => [.executing, .cancelled]
  | .executing => [.succeeded, .failed, .stale, .outcomeUnknown]
  | _ => []

def advanceActionIntent (db : Database) (id : String) (status : ActionIntentStatus) :
    Option Database :=
  match db.actionIntents.get? id with
  | none => none
  | some intent =>
    if status ∈ intentTransitions intent.status then
      some { db with actionIntents := db.actionIntents.set id { intent with status := status } }
    else none

/-- A new execution is queued and nobody's. -/
def createExecution (db : Database) (id workspaceId : String)
    (environmentId externalSubjectRecordId conversationId : Option String) : Option Database :=
  if id ∈ db.executions.keys then none
  else
    some { db with
      executions := db.executions.set id
        ⟨id, workspaceId, environmentId, externalSubjectRecordId, conversationId, .queued,
          none, none, none, none, none⟩ }

/-- The state after a committed transaction. -/
def commit (db : Database) : Op → Option Database
  | .tick elapsed => some { db with clock := db.clock + elapsed }
  | .createExecution id workspaceId environmentId externalSubjectRecordId conversationId =>
    createExecution db id workspaceId environmentId externalSubjectRecordId conversationId
  | .startExecution id attemptId leaseExpiresAt =>
    db.updateExecution id fun e => e.startExecution db.clock attemptId leaseExpiresAt
  | .renewLease id attemptId leaseExpiresAt =>
    db.updateExecution id fun e => e.renewLease db.clock attemptId leaseExpiresAt
  | .completeExecution id attemptId audienceExists input =>
    db.updateExecution id fun e =>
      (e.completeExecution db.clock audienceExists attemptId input).map Prod.fst
  | .createApprovalRequest id request => db.createApprovalRequest id request
  | .createActionIntent admitted grantId requestId intentId input =>
    db.createActionIntent admitted grantId requestId intentId input
  | .advanceActionIntent id status => advanceActionIntent db id status
  | .createWaitTimer id timer => db.createWaitTimer id timer
  | .claimPauseForPendingApprovalRequest workspaceId executionId nodeId attemptId =>
    db.claimPauseForPendingApprovalRequest workspaceId executionId nodeId attemptId
  | .claimPauseForPendingWait workspaceId executionId nodeId attemptId =>
    db.claimPauseForPendingWait workspaceId executionId nodeId attemptId
  | .decideApprovalRequest admitted id => db.decideApprovalRequest admitted id
  | .claimAndDecideTimedOutApprovalRequest id => db.claimAndDecideTimedOutApprovalRequest id
  | .claimAndResolveDueWaitTimer id => db.claimAndResolveDueWaitTimer id
  | .cancelExecutionWithPendingApproval workspaceId environmentId executionId =>
    db.cancelExecutionWithPendingApproval workspaceId environmentId executionId
  | .revokeConnection workspaceId id => some (db.revoke workspaceId (.connection id))
  | .revokeConnectionAccessGrant workspaceId id =>
    some (db.revoke workspaceId (.connectionAccessGrant id))
  | .disableExternalSubject workspaceId id => some (db.revoke workspaceId (.externalSubject id))

def emptyDatabase : Database :=
  ⟨0, OrderedMap.empty, OrderedMap.empty, OrderedMap.empty, OrderedMap.empty⟩

/-- The states reached by transactions that are all allowed where they run. -/
inductive Reachable (allowed : Database → Op → Prop) : Database → Prop
  | start : Reachable allowed emptyDatabase
  | step {db db' : Database} {op : Op} (before : Reachable allowed db) (ok : allowed db op)
      (committed : commit db op = some db') : Reachable allowed db'

def PendingFor (db : Database) (executionId requestId : String) : Prop :=
  ∃ request, db.approvalRequests.get? requestId = some request ∧
    request.executionId = executionId ∧ request.status = .pending

def UnfiredFor (db : Database) (executionId timerId : String) : Prop :=
  ∃ timer, db.waitTimers.get? timerId = some timer ∧ timer.executionId = executionId ∧
    timer.fired = false

/-- Something is left that can put the execution back into the queue. -/
def HasWakeup (db : Database) (executionId : String) : Prop :=
  (∃ id, PendingFor db executionId id) ∨ ∃ id, UnfiredFor db executionId id

def Paused (db : Database) (executionId : String) : Prop :=
  ∃ e, db.executions.get? executionId = some e ∧ e.status = .paused

/-- Intents belong to a request of their own execution, expiring requests have a timeout action. -/
structure Sound (db : Database) : Prop where
  linked : ∀ id intent, db.actionIntents.get? id = some intent → ∃ request,
    db.approvalRequests.get? intent.approvalRequestId = some request ∧
      request.executionId = intent.executionId
  timeouts : ∀ id request, db.approvalRequests.get? id = some request →
    request.expiresAt.isSome → request.timeoutAction.isSome

structure Inv (db : Database) : Prop where
  sound : Sound db
  waiting : ∀ id, Paused db id → HasWakeup db id

variable {db db' : Database} {id : String}

theorem HasWakeup.mono (h : HasWakeup db id)
    (hr : ∀ rid, PendingFor db id rid → PendingFor db' id rid)
    (ht : ∀ tid, UnfiredFor db id tid → UnfiredFor db' id tid) : HasWakeup db' id :=
  h.imp (fun ⟨rid, h⟩ => ⟨rid, hr rid h⟩) fun ⟨tid, h⟩ => ⟨tid, ht tid h⟩

/-- Requests under other ids are untouched by a write. -/
theorem PendingFor.set {rid rid' : String} {request : ApprovalRequest}
    (h : PendingFor db id rid) (hne : rid ≠ rid') :
    PendingFor { db with approvalRequests := db.approvalRequests.set rid' request } id rid := by
  obtain ⟨r, hr, hx, hp⟩ := h
  exact ⟨r, by simpa [get?_set_of_ne _ hne] using hr, hx, hp⟩

theorem UnfiredFor.set {tid tid' : String} {timer : WaitTimer} (h : UnfiredFor db id tid)
    (hne : tid ≠ tid') :
    UnfiredFor { db with waitTimers := db.waitTimers.set tid' timer } id tid := by
  obtain ⟨t, ht, hx, hf⟩ := h
  exact ⟨t, by simpa [get?_set_of_ne _ hne] using ht, hx, hf⟩

/-- A write to one execution row that pauses the execution only if something wakes it. -/
theorem Sound.setExecution (h : Sound db) {e : Execution}
    (he : e.status = .paused → HasWakeup db id)
    (hw : ∀ i, i ≠ id → Paused db i → HasWakeup db i) :
    Inv { db with executions := db.executions.set id e } := by
  refine ⟨⟨h.linked, h.timeouts⟩, ?_⟩
  rintro i ⟨x, hx, hp⟩
  simp only [get?_set] at hx
  split_ifs at hx with heq
  · cases hx
    exact heq ▸ he hp
  · exact hw i heq ⟨x, hx, hp⟩

theorem Inv.updateExecution (h : Inv db) {f : Execution → Option Execution}
    (hf : ∀ e e', f e = some e' → e'.status = .paused → HasWakeup db id)
    (hup : db.updateExecution id f = some db') : Inv db' := by
  obtain ⟨e, e', _, hfe, rfl⟩ := updateExecution_some hup
  exact h.sound.setExecution (hf e e' hfe) fun i _ hi => h.waiting i hi

/-- Putting the execution back into the queue repairs the invariant for it. -/
theorem Sound.resumeExecution (h : Sound db) (hw : ∀ i, i ≠ id → Paused db i → HasWakeup db i) :
    Inv (db.resumeExecution id) := by
  unfold Database.resumeExecution
  cases hup : db.updateExecution id Execution.requeue with
  | some db' =>
    obtain ⟨e, e', _, hf, rfl⟩ := updateExecution_some hup
    obtain ⟨_, rfl⟩ := Execution.requeue_some hf
    exact h.setExecution (fun hp => nomatch hp) hw
  | none =>
    refine ⟨h, fun i hi => hw i (fun heq => ?_) hi⟩
    obtain ⟨x, hx, hp⟩ := hi
    simp only [Option.getD_none, heq] at hx
    simp [Database.updateExecution, hx, Execution.requeue, hp] at hup

/-- A request is written over one of the same execution, or under a fresh id. -/
theorem Sound.setRequest (h : Sound db) {rid : String} {request : ApprovalRequest}
    (hold : ∀ old, db.approvalRequests.get? rid = some old →
      old.executionId = request.executionId)
    (ht : request.expiresAt.isSome → request.timeoutAction.isSome) :
    Sound { db with approvalRequests := db.approvalRequests.set rid request } := by
  refine ⟨fun iid intent hi => ?_, fun r x hx => ?_⟩
  · obtain ⟨x, hx, hex⟩ := h.linked iid intent hi
    by_cases heq : intent.approvalRequestId = rid
    · rw [heq] at hx
      exact ⟨request, by simp [heq], (hold x hx).symm.trans hex⟩
    · exact ⟨x, by simpa [get?_set_of_ne _ heq] using hx, hex⟩
  · simp only [get?_set] at hx
    split_ifs at hx with heq
    · cases hx
      exact ht
    · exact h.timeouts r x hx

theorem Inv.insertRequest (h : Inv db) {rid : String} {request : ApprovalRequest}
    (hc : db.createApprovalRequest rid request = some db') : Inv db' := by
  obtain ⟨hnew, htimeout, rfl⟩ := createApprovalRequest_some hc
  have hne : ∀ r x, db.approvalRequests.get? r = some x → r ≠ rid := fun r x hx heq =>
    hnew (mem_keys_iff.mpr ⟨x, heq ▸ hx⟩)
  refine ⟨h.sound.setRequest (fun old ho => absurd rfl (hne _ old ho)) htimeout, fun i hi => ?_⟩
  refine (h.waiting i hi).mono (fun r hr => hr.set ?_) fun t ht => ht
  obtain ⟨x, hx, _⟩ := hr
  exact hne r x hx

/-- Writing an intent that has a request of its own execution. -/
theorem Inv.setIntent (h : Inv db) {iid : String} {intent : ActionIntent}
    (hr : ∃ request, db.approvalRequests.get? intent.approvalRequestId = some request ∧
      request.executionId = intent.executionId) :
    Inv { db with actionIntents := db.actionIntents.set iid intent } := by
  refine ⟨⟨fun i x hx => ?_, h.sound.timeouts⟩, h.waiting⟩
  simp only [get?_set] at hx
  split_ifs at hx with heq
  · cases hx
    exact hr
  · exact h.sound.linked i x hx

theorem Inv.insertTimer (h : Inv db) {tid : String} {timer : WaitTimer}
    (hc : db.createWaitTimer tid timer = some db') : Inv db' := by
  unfold Database.createWaitTimer at hc
  split_ifs at hc with hg
  obtain rfl := Option.some.inj hc
  simp only [not_or] at hg
  refine ⟨⟨h.sound.linked, h.sound.timeouts⟩, fun i hi => ?_⟩
  refine (h.waiting i hi).mono (fun r hr => hr) fun t ht => ht.set fun heq => ?_
  obtain ⟨x, hx, _⟩ := ht
  exact hg.1 (mem_keys_iff.mpr ⟨x, heq ▸ hx⟩)

/-- Deciding a request wakes the execution that waits for it. -/
theorem Inv.recordDecision (h : Inv db) {rid : String} {request : ApprovalRequest}
    (hr : db.approvalRequests.get? rid = some request) : Inv (db.recordDecision rid request) := by
  refine Sound.resumeExecution (h.sound.setRequest (fun old ho => ?_)
    (h.sound.timeouts rid request hr)) fun i hne hi => ?_
  · rw [hr] at ho
    cases ho
    rfl
  · refine (h.waiting i hi).mono (fun r hp => hp.set fun heq => ?_) fun t ht => ht
    obtain ⟨x, hx, hex, _⟩ := hp
    rw [heq, hr] at hx
    cases hx
    exact hne hex.symm

theorem Inv.fireTimer (h : Inv db) {tid : String}
    (hc : db.claimAndResolveDueWaitTimer tid = some db') : Inv db' := by
  unfold Database.claimAndResolveDueWaitTimer at hc
  split at hc
  · cases hc
  · rename_i timer htimer
    split_ifs at hc
    obtain rfl := Option.some.inj hc
    refine Sound.resumeExecution ⟨h.sound.linked, h.sound.timeouts⟩ fun i hne hi => ?_
    refine (h.waiting i hi).mono (fun r hr => hr) fun t ht => ht.set fun heq => ?_
    obtain ⟨x, hx, hex, _⟩ := ht
    rw [heq, htimer] at hx
    cases hx
    exact hne hex.symm

theorem mem_scopedRequestIds {workspaceId rid : String} {scope : CancellationScope}
    (h : rid ∈ db.scopedRequestIds workspaceId scope) : ∃ iid intent,
      db.actionIntents.get? iid = some intent ∧ inScope workspaceId scope intent = true ∧
      intent.approvalRequestId = rid := by
  obtain ⟨intent, hi, rfl⟩ := List.mem_map.mp h
  obtain ⟨hmem, hscope⟩ := List.mem_filter.mp hi
  obtain ⟨⟨iid, x⟩, hx, rfl⟩ := List.mem_map.mp hmem
  exact ⟨iid, x, get?_iff_mem.mpr hx, hscope, rfl⟩

theorem PendingFor.cancelScoped {workspaceId rid : String} {scope : CancellationScope}
    (h : PendingFor db id rid) (hout : rid ∉ db.scopedRequestIds workspaceId scope) :
    PendingFor (db.cancelScoped workspaceId scope) id rid := by
  obtain ⟨r, hr, hx, hp⟩ := h
  exact ⟨r, by simp [Database.cancelScoped, get?_mapValues, hr, hout], hx, hp⟩

/-- A cancellation changes statuses of intents and requests only. -/
theorem Sound.cancelScoped (h : Sound db) (workspaceId : String) (scope : CancellationScope) :
    Sound (db.cancelScoped workspaceId scope) := by
  refine ⟨fun iid intent hi => ?_, fun rid r hr => ?_⟩
  · simp only [Database.cancelScoped, get?_mapValues, Option.map_eq_some_iff] at hi
    obtain ⟨old, hold, heq⟩ := hi
    have hsame : intent.approvalRequestId = old.approvalRequestId ∧
        intent.executionId = old.executionId := by
      split_ifs at heq <;> subst heq <;> exact ⟨rfl, rfl⟩
    obtain ⟨r, hr, hex⟩ := h.linked iid old hold
    rw [hsame.1, hsame.2]
    simp only [Database.cancelScoped, get?_mapValues, hr, Option.map_some, Option.some.injEq,
      exists_eq_left']
    split_ifs <;> exact hex
  · simp only [Database.cancelScoped, get?_mapValues, Option.map_eq_some_iff] at hr
    obtain ⟨old, hold, heq⟩ := hr
    have := h.timeouts rid old hold
    split_ifs at heq <;> subst heq <;> exact this

theorem cancelNonExecutingActionIntents_cases (db : Database) (workspaceId : String)
    (scope : CancellationScope) :
    let result := db.cancelNonExecutingActionIntents workspaceId scope
    result.db = db ∧ result.cancelled = false ∨
      result.db = db.cancelScoped workspaceId scope ∧ result.cancelled = true ∧
        (db.scopedIntents workspaceId scope).any cancellable = true := by
  simp only [cancelNonExecutingActionIntents]
  split_ifs with _ hany
  · exact Or.inl ⟨rfl, rfl⟩
  · exact Or.inr ⟨rfl, rfl, hany⟩
  · exact Or.inl ⟨rfl, rfl⟩

/-- A paused execution that waits for a request of an intent in scope also waits for something
that the cancellation does not touch. -/
def Spared (db : Database) (workspaceId : String) (scope : CancellationScope) : Prop :=
  (db.scopedIntents workspaceId scope).any cancellable = true → ∀ id, Paused db id →
    (∃ rid ∈ db.scopedRequestIds workspaceId scope, PendingFor db id rid) →
    (∃ rid ∉ db.scopedRequestIds workspaceId scope, PendingFor db id rid) ∨
      ∃ tid, UnfiredFor db id tid

/-- Revocations spare the executions that are paused; every other transaction is free. -/
def spares (db : Database) : Op → Prop
  | .revokeConnection workspaceId id => Spared db workspaceId (.connection id)
  | .revokeConnectionAccessGrant workspaceId id =>
    Spared db workspaceId (.connectionAccessGrant id)
  | .disableExternalSubject workspaceId id => Spared db workspaceId (.externalSubject id)
  | _ => True

theorem Inv.revoke (h : Inv db) {workspaceId : String} {scope : CancellationScope}
    (hs : Spared db workspaceId scope) : Inv (db.revoke workspaceId scope) := by
  unfold Database.revoke
  rcases cancelNonExecutingActionIntents_cases db workspaceId scope with
    ⟨heq, _⟩ | ⟨heq, _, hany⟩
  · rw [heq]
    exact h
  · rw [heq]
    refine ⟨h.sound.cancelScoped workspaceId scope, fun i hi => ?_⟩
    rcases h.waiting i hi with ⟨rid, hr⟩ | ⟨tid, ht⟩
    · by_cases hin : rid ∈ db.scopedRequestIds workspaceId scope
      · rcases hs hany i hi ⟨rid, hin, hr⟩ with ⟨rid', hout, hr'⟩ | ⟨tid, ht⟩
        · exact Or.inl ⟨rid', hr'.cancelScoped hout⟩
        · exact Or.inr ⟨tid, ht⟩
      · exact Or.inl ⟨rid, hr.cancelScoped hin⟩
    · exact Or.inr ⟨tid, ht⟩

/-- Cancelling an execution touches its own requests only. -/
theorem other_request_kept (h : Sound db) {workspaceId executionId rid : String}
    (hne : id ≠ executionId) (hp : PendingFor db id rid) :
    rid ∉ db.scopedRequestIds workspaceId (.execution executionId) := by
  intro hin
  obtain ⟨iid, intent, hi, hscope, rfl⟩ := mem_scopedRequestIds hin
  obtain ⟨r, hr, hex⟩ := h.linked iid intent hi
  obtain ⟨r', hr', hex', _⟩ := hp
  rw [hr] at hr'
  cases hr'
  simp only [inScope, Bool.and_eq_true, decide_eq_true_eq] at hscope
  exact hne (hex'.symm.trans (hex.trans hscope.2))

theorem Inv.cancelExecution (h : Inv db) {workspaceId environmentId executionId : String}
    (hc : db.cancelExecutionWithPendingApproval workspaceId environmentId executionId = some db') :
    Inv db' := by
  obtain ⟨cancelled, hstatus, hres⟩ := cancelExecutionWithPendingApproval_some hc
  have hrow : ∀ d : Database, cancelled.status = .paused → HasWakeup d executionId := by
    rw [hstatus]
    exact fun _ hp => nomatch hp
  rcases cancelNonExecutingActionIntents_cases db workspaceId (.execution executionId) with
    ⟨hdb, _⟩ | ⟨hdb, hflag, _⟩
  · simp only [hdb] at hres
    rcases hres with rfl | ⟨_, rid, request, hr, hex, rfl⟩
    · exact h.sound.setExecution (hrow db) fun i _ hi => h.waiting i hi
    · have hs : Sound { db with approvalRequests :=
          db.approvalRequests.set rid { request with status := .cancelled } } := by
        refine h.sound.setRequest (fun old ho => ?_) (h.sound.timeouts rid request hr)
        rw [hr] at ho
        cases ho
        rfl
      refine hs.setExecution (hrow _) fun i hne hi => ?_
      refine (h.waiting i hi).mono (fun r hp => hp.set fun heq => ?_) fun t ht => ht
      obtain ⟨x, hx, hex', _⟩ := hp
      rw [heq, hr] at hx
      cases hx
      exact hne (hex'.symm.trans hex)
  · simp only [hdb, hflag] at hres
    rcases hres with rfl | ⟨hfalse, _⟩
    · refine (h.sound.cancelScoped workspaceId _).setExecution (hrow _) fun i hne hi => ?_
      exact (h.waiting i hi).mono (fun r hp => hp.cancelScoped (other_request_kept h.sound hne hp))
        fun t ht => ht
    · cases hfalse

/-- Pausing for a pending request or an unfired timer. -/
theorem Inv.pause (h : Inv db) {executionId attemptId : String}
    (hw : HasWakeup db executionId)
    (hc : (db.updateExecution executionId fun e => e.pauseExecution db.clock attemptId) =
      some db') : Inv db' :=
  h.updateExecution (fun _ _ _ _ => hw) hc

/-- Every transaction that spares the paused executions keeps the invariant. -/
theorem Inv.commit (h : Inv db) {op : Op} (hs : spares db op) (hc : commit db op = some db') :
    Inv db' := by
  cases op with
  | tick elapsed =>
    obtain rfl := Option.some.inj hc
    exact ⟨⟨h.sound.linked, h.sound.timeouts⟩, h.waiting⟩
  | createExecution i workspaceId environmentId subject conversation =>
    simp only [Wakeup.commit, createExecution] at hc
    split_ifs at hc
    obtain rfl := Option.some.inj hc
    exact h.sound.setExecution (fun hp => nomatch hp) fun i _ hi => h.waiting i hi
  | startExecution i attemptId expiry =>
    refine h.updateExecution (fun e e' he hp => ?_) hc
    obtain ⟨_, rfl⟩ := Execution.startExecution_some he
    cases hp
  | renewLease i attemptId expiry =>
    refine h.updateExecution (fun e e' he hp => ?_) hc
    obtain ⟨⟨hrun, _⟩, rfl⟩ := Execution.renewLease_some he
    simp [hrun] at hp
  | completeExecution i attemptId audienceExists input =>
    refine h.updateExecution (fun e e' he hp => ?_) hc
    obtain ⟨⟨x, event⟩, hx, rfl⟩ := Option.map_eq_some_iff.mp he
    obtain ⟨_, rfl, _⟩ := Execution.completeExecution_some hx
    have := input.allowed
    simp only at hp
    rw [hp] at this
    simp [terminalStatuses] at this
  | createApprovalRequest rid request => exact h.insertRequest hc
  | createActionIntent admitted grantId requestId intentId input =>
    obtain ⟨db1, request, intent, hr, hex, hdb, rfl⟩ := createActionIntent_some hc
    have h1 : Inv db1 := by
      rcases hdb with rfl | ⟨r, hcreate⟩
      · exact h
      · exact h.insertRequest hcreate
    exact h1.setIntent ⟨request, hr, hex⟩
  | advanceActionIntent iid status =>
    simp only [Wakeup.commit, advanceActionIntent] at hc
    split at hc
    · cases hc
    · rename_i intent hintent
      split_ifs at hc
      obtain rfl := Option.some.inj hc
      exact h.setIntent (h.sound.linked iid intent hintent)
  | createWaitTimer tid timer => exact h.insertTimer hc
  | claimPauseForPendingApprovalRequest workspaceId executionId nodeId attemptId =>
    simp only [Wakeup.commit, Database.claimPauseForPendingApprovalRequest] at hc
    split at hc
    · rename_i rid request hfind
      split_ifs at hc with hp
      obtain ⟨hr, hex⟩ := findRequest_some hfind
      exact h.pause (Or.inl ⟨rid, request, hr, hex, hp.2⟩) hc
    · cases hc
  | claimPauseForPendingWait workspaceId executionId nodeId attemptId =>
    simp only [Wakeup.commit, Database.claimPauseForPendingWait] at hc
    split at hc
    · rename_i tid timer hfind
      split_ifs at hc with hp
      obtain ⟨ht, hex⟩ := findTimer_some hfind
      exact h.pause (Or.inr ⟨tid, timer, ht, hex, hp.2⟩) hc
    · cases hc
  | decideApprovalRequest admitted rid =>
    simp only [Wakeup.commit, Database.decideApprovalRequest] at hc
    split at hc
    · cases hc
    · rename_i request hr
      split_ifs at hc
      obtain rfl := Option.some.inj hc
      exact h.recordDecision hr
  | claimAndDecideTimedOutApprovalRequest rid =>
    simp only [Wakeup.commit, Database.claimAndDecideTimedOutApprovalRequest] at hc
    split at hc
    · cases hc
    · rename_i request hr
      split_ifs at hc
      obtain rfl := Option.some.inj hc
      exact h.recordDecision hr
  | claimAndResolveDueWaitTimer tid => exact h.fireTimer hc
  | cancelExecutionWithPendingApproval workspaceId environmentId executionId =>
    exact h.cancelExecution hc
  | revokeConnection workspaceId i =>
    obtain rfl := Option.some.inj hc
    exact h.revoke hs
  | revokeConnectionAccessGrant workspaceId i =>
    obtain rfl := Option.some.inj hc
    exact h.revoke hs
  | disableExternalSubject workspaceId i =>
    obtain rfl := Option.some.inj hc
    exact h.revoke hs

theorem inv_empty : Inv emptyDatabase := by
  refine ⟨⟨fun id intent h => ?_, fun id request h => ?_⟩, fun id h => ?_⟩
  · simp [emptyDatabase] at h
  · simp [emptyDatabase] at h
  · obtain ⟨e, he, _⟩ := h
    simp [emptyDatabase] at he

theorem reachable_inv (h : Reachable spares db) : Inv db := by
  induction h with
  | start => exact inv_empty
  | step _ ok committed ih => exact ih.commit ok committed

def run (db : Database) (ops : List Op) : Database :=
  ops.foldl (fun db op => (commit db op).getD db) db

def Queued (db : Database) (executionId : String) : Prop :=
  ∃ e, db.executions.get? executionId = some e ∧ e.status = .queued

theorem queued_resumeExecution (h : Paused db id) : Queued (db.resumeExecution id) id := by
  obtain ⟨e, he, hp⟩ := h
  refine ⟨{ e with status := .queued }, ?_, rfl⟩
  simp [Database.resumeExecution, Database.updateExecution, he, Execution.requeue, hp]

/-- A decision, a timeout or a timer firing puts a paused execution back into the queue. -/
theorem wakeup_queues (h : Sound db) (hp : Paused db id) (hw : HasWakeup db id) :
    ∃ ops, Queued (run db ops) id := by
  rcases hw with ⟨rid, request, hr, hex, hpending⟩ | ⟨tid, timer, ht, hex, hfired⟩
  · refine ⟨[.decideApprovalRequest true rid], ?_⟩
    have htimeout : expired db.clock request = true → request.timeoutAction.isSome = true := by
      intro hx
      refine h.timeouts rid request hr ?_
      unfold expired at hx
      cases hexp : request.expiresAt with
      | none => simp [hexp] at hx
      | some t => rfl
    have hcommit : commit db (.decideApprovalRequest true rid) =
        some (db.recordDecision rid request) := by
      simp only [commit, Database.decideApprovalRequest, hr]
      rw [if_pos ⟨trivial, hpending, htimeout⟩]
    simp only [run, List.foldl_cons, List.foldl_nil, hcommit, Option.getD_some]
    exact hex ▸ queued_resumeExecution (hex ▸ hp)
  · refine ⟨[.tick timer.resumeAt, .claimAndResolveDueWaitTimer tid], ?_⟩
    have hcommit : commit { db with clock := db.clock + timer.resumeAt }
        (.claimAndResolveDueWaitTimer tid) =
        some ({ db with clock := db.clock + timer.resumeAt, waitTimers :=
          db.waitTimers.set tid { timer with fired := true } }.resumeExecution
            timer.executionId) := by
      simp [commit, Database.claimAndResolveDueWaitTimer, ht, hfired]
    have htick : commit db (.tick timer.resumeAt) =
        some { db with clock := db.clock + timer.resumeAt } := rfl
    simp only [run, List.foldl_cons, List.foldl_nil, htick, Option.getD_some, hcommit]
    exact hex ▸ queued_resumeExecution (hex ▸ hp)

/-- No lost wakeup. In every state reached by workers, decisions, timers, cancellations and
revocations that spare the paused executions, a paused execution has a pending request or an
unfired timer of its own, and some transactions put it back into the queue. -/
theorem paused_has_wakeup (db : Database) (reached : Reachable spares db) (id : String)
    (paused : Paused db id) : HasWakeup db id ∧ ∃ ops, Queued (run db ops) id := by
  have h := reachable_inv reached
  have hw := h.waiting id paused
  exact ⟨hw, wakeup_queues h.sound paused hw⟩

theorem Reachable.run {allowed : Database → Op → Prop} (h : Reachable allowed db) (ops : List Op)
    (ok : ∀ op ∈ ops, ∀ db, allowed db op) : Reachable allowed (Wakeup.run db ops) := by
  induction ops generalizing db with
  | nil => exact h
  | cons op ops ih =>
    refine @ih ((commit db op).getD db) ?_ fun o ho => ok o (List.mem_cons_of_mem op ho)
    cases hc : commit db op with
    | none => exact h
    | some db' => exact h.step (ok op List.mem_cons_self db) hc

/-- A worker claims an execution, a connector node asks for consent, and the execution pauses. -/
def awaitConsent : List Op :=
  [.createExecution "e" "w" (some "env") (some "subject") none, .startExecution "e" "attempt" 30,
    .createActionIntent true none "request" "intent"
      ⟨"w", "e", "send", "connection", "e:send", "digest", some 600⟩,
    .claimPauseForPendingApprovalRequest "w" "e" "send" "attempt"]

theorem paused_has_wakeup_awaitConsent : HasWakeup (run emptyDatabase awaitConsent) "e" :=
  (paused_has_wakeup (run emptyDatabase awaitConsent)
    (Reachable.start.run awaitConsent (by simp [awaitConsent, spares])) "e" ⟨_, rfl, rfl⟩).1

/-- Revoking the connection cancels the request and leaves the execution paused for ever. -/
theorem revocation_strands_execution :
    ∃ db, Reachable (fun _ _ => True) db ∧ Paused db "e" ∧ ¬ HasWakeup db "e" := by
  refine ⟨run emptyDatabase (awaitConsent ++ [.revokeConnection "w" "connection"]),
    Reachable.start.run _ fun _ _ _ => trivial, ⟨_, rfl, rfl⟩, ?_⟩
  rintro (⟨rid, request, hr, _, hpending⟩ | ⟨tid, timer, ht, _⟩)
  · have hmem := get?_iff_mem.mp hr
    have hrows : (run emptyDatabase
        (awaitConsent ++ [.revokeConnection "w" "connection"])).approvalRequests.entries =
        [("request", ⟨"w", "e", "send", .externalSubject, .cancelled, some 600, some .autoReject,
          some "digest"⟩)] := rfl
    rw [hrows, List.mem_singleton] at hmem
    cases hmem
    cases hpending
  · have hmem := get?_iff_mem.mp ht
    have hrows : (run emptyDatabase
        (awaitConsent ++ [.revokeConnection "w" "connection"])).waitTimers.entries = [] := rfl
    rw [hrows] at hmem
    cases hmem

end Linea.Wakeup
