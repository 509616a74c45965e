import Linea.Pauses
import Linea.WalkerMeaning

/-! At most one thing to wait for. An attempt that has created a row stands at the row's node
until it has paused or stopped, so as long as the lease does not change hands in between, nobody
creates a second row. -/
namespace Linea.Worker.Pauses
open Walker Validate OrderedMap

variable {g : WorkflowGraph} {payload : Value} {w w' : World} {s s' : System} {act : Act}
  {a b n id : String} {timer : Bool} {counted : Bool → Prop} {cancels : Prop}

/-- The row of that id, a timer or a request, is waited for at the node. -/
def World.Waits (w : World) (timer : Bool) (node id : String) : Prop :=
  match timer with
  | true => ∃ t, w.waitTimers.get? id = some t ∧ t.nodeId = node ∧ t.fired = false
  | false => ∃ r, w.approvalRequests.get? id = some r ∧ r.nodeId = node ∧ r.status = .pending

/-- Wait nodes have timers, approval and connector nodes have requests. -/
def holdsRow (timer : Bool) (type : NodeType) : Prop :=
  match timer with
  | true => type = .wait
  | false => type = .approval ∨ type = .connector

/-- The attempt stands at the node, or has stopped walking. -/
def standsAt (timer : Bool) (node : String) : Phase → Prop
  | .checking _ p => p.node.id = node ∧ holdsRow timer p.node.type
  | .invoking _ p => p.node.id = node ∧ holdsRow timer p.node.type
  | .pausing _ p => p.node.id = node ∧ holdsRow timer p.node.type
  | .failing _ p _ _ => p.node.id = node ∧ holdsRow timer p.node.type
  | .completing _ => True
  | .aborting => True
  | .done => True
  | _ => False

/-- Every row belongs to the execution, and a node has one of a kind. -/
structure Owned (w : World) : Prop where
  requests : ∀ id r, w.approvalRequests.get? id = some r →
    r.executionId = w.execution.id ∧ r.workspaceId = w.execution.workspaceId
  timers : ∀ id t, w.waitTimers.get? id = some t → t.executionId = w.execution.id
  requestOf : ∀ i i' r r', w.approvalRequests.get? i = some r →
    w.approvalRequests.get? i' = some r' → r.nodeId = r'.nodeId → i = i'
  timerOf : ∀ i i' t t', w.waitTimers.get? i = some t →
    w.waitTimers.get? i' = some t' → t.nodeId = t'.nodeId → i = i'

/-- Rows of the counted kinds: one at most is waited for, and while the execution runs the holder
of its lease stands at that row's node. -/
structure OneWait (counted : Bool → Prop) (w : World) : Prop where
  owned : Owned w
  one : ∀ k k' n n' i i', counted k → counted k' → w.Waits k n i → w.Waits k' n' i' →
    k = k' ∧ i = i'
  holder : ∀ k n i, counted k → w.Waits k n i → w.execution.status = .running →
    ∃ a, w.execution.leasedBy = some a ∧ standsAt k n (w.worker.phase a)

/-- The lease does not change hands while a row is waited for, and rows are created under the
lease of a running execution. -/
def Exclusive (counted : Bool → Prop) (w : World) : PauseAct → Prop
  | .work (.claim a leaseExpiresAt) =>
    (w.execution.startExecution w.worker.clock a leaseExpiresAt).isSome →
      ∀ k n i, counted k → ¬ w.Waits k n i
  | .createRequest a _ _ _ =>
    counted false → w.execution.status = .running ∧ w.execution.leasedBy = some a
  | .createTimer a _ _ _ =>
    counted true → w.execution.status = .running ∧ w.execution.leasedBy = some a
  | .createIntent a _ _ _ _ _ _ _ => counted false → w.execution.leasedBy = some a
  | _ => True

theorem holdsRow_unique {k : Bool} {type : NodeType} (h : holdsRow k type)
    (h' : holdsRow timer type) : k = timer := by
  cases k <;> cases timer <;> simp_all [holdsRow]

/-- Nothing moves an attempt away from the node but an output or a row found decided. -/
theorem standsAt_of_effect [Columns] (h : Effect g payload s act s') (hb : standsAt timer n (s.phase b))
    (hout : ∀ v, act ≠ .invoke b (.output v)) (hdecided : act ≠ .pause b .alreadyDecided) :
    standsAt timer n (s'.phase b) := by
  cases h with
  | clock => exact hb
  | row => exact hb
  | @claim a _ _ idle =>
    by_cases hba : b = a
    · subst hba
      rw [idle] at hb
      exact hb.elim
    · rw [withPhase_of_ne _ hba]
      exact hb
  | @quiet _ a ph move =>
    by_cases hba : b = a
    · subst hba
      rw [withPhase_self]
      generalize hph : s.phase b = old at hb move
      cases move with
      | stop => trivial
      | finish => trivial
      | readState => exact hb.elim
      | readVariables => exact hb.elim
      | begin => exact hb.elim
      | checkLease => exact hb
      | invoke l p outcome =>
        cases outcome with
        | output v => exact absurd rfl (hout v)
        | error message => exact hb
        | retry => exact hb
        | pause => exact hb
        | leaseLost => trivial
      | notWritten => exact hb.elim
      | decided => exact absurd rfl hdecided
    · rw [withPhase_of_ne _ hba]
      exact hb
  | @finished _ a =>
    by_cases hba : b = a
    · subst hba
      rw [withPhase_self]
      trivial
    · rw [withPhase_of_ne _ hba]
      exact hb
  | @marker a _ _ loaded =>
    by_cases hba : b = a
    · subst hba
      rw [loaded] at hb
      exact hb.elim
    · rw [withPhase_of_ne _ hba]
      exact hb
  | @success a _ _ _ _ _ recording =>
    by_cases hba : b = a
    · subst hba
      rw [recording] at hb
      exact hb.elim
    · rw [withPhase_of_ne _ hba]
      exact hb
  | @failure a =>
    by_cases hba : b = a
    · subst hba
      rw [withPhase_self]
      trivial
    · rw [withPhase_of_ne _ hba]
      exact hb

/-- What decisions, timers, revocations and, if it `cancels`, a cancellation do to the tables and
to the row of the execution: nothing new is waited for, and the execution does not start to run. -/
structure Settled (cancels : Prop) (executionId : String) (db db' : Database) : Prop where
  requests : ∀ id r', db'.approvalRequests.get? id = some r' →
    ∃ r, db.approvalRequests.get? id = some r ∧ r'.executionId = r.executionId ∧
      r'.workspaceId = r.workspaceId ∧ r'.nodeId = r.nodeId ∧
      (r'.status = .pending → r.status = .pending)
  timers : ∀ id t', db'.waitTimers.get? id = some t' →
    ∃ t, db.waitTimers.get? id = some t ∧ t'.executionId = t.executionId ∧
      t'.nodeId = t.nodeId ∧ (t'.fired = false → t.fired = false)
  execution : ∀ e', db'.executions.get? executionId = some e' →
    ∃ e, db.executions.get? executionId = some e ∧ (e' = e ∨ e.requeue = some e' ∨
      cancels ∧ ∃ environmentId now, e.cancelExecution environmentId now = some e')

namespace Settled
variable {cancels : Prop} {db db' : Database} {executionId : String}

theorem refl (executionId : String) (db : Database) : Settled cancels executionId db db where
  requests _ r h := ⟨r, h, rfl, rfl, rfl, fun hp => hp⟩
  timers _ t h := ⟨t, h, rfl, rfl, fun hf => hf⟩
  execution e h := ⟨e, h, Or.inl rfl⟩

theorem setRequest (h : Settled cancels executionId db db') {r : ApprovalRequest}
    (hr : db.approvalRequests.get? id = some r) {status : ApprovalRequestStatus}
    (hs : status ≠ .pending) :
    Settled cancels executionId db { db' with
      approvalRequests := db'.approvalRequests.set id { r with status := status } } where
  requests i r' h' := by
    by_cases hi : i = id
    · subst hi
      rw [get?_set_self] at h'
      obtain rfl := Option.some.inj h'
      exact ⟨r, hr, rfl, rfl, rfl, fun hp => absurd hp hs⟩
    · rw [get?_set_of_ne _ hi] at h'
      exact h.requests i r' h'
  timers := h.timers
  execution := h.execution

theorem setTimer (h : Settled cancels executionId db db') {t : WaitTimer}
    (ht : db.waitTimers.get? id = some t) :
    Settled cancels executionId db { db' with
      waitTimers := db'.waitTimers.set id { t with fired := true } } where
  requests := h.requests
  timers i t' h' := by
    by_cases hi : i = id
    · subst hi
      rw [get?_set_self] at h'
      obtain rfl := Option.some.inj h'
      exact ⟨t, ht, rfl, rfl, fun hf => (by cases hf)⟩
    · rw [get?_set_of_ne _ hi] at h'
      exact h.timers i t' h'
  execution := h.execution

/-- The row of the execution is requeued or cancelled. -/
theorem setExecution (h : Settled cancels executionId db db') {e e' : Execution} {i : String}
    (he : db.executions.get? i = some e) (hchange : e.requeue = some e' ∨
      cancels ∧ ∃ environmentId now, e.cancelExecution environmentId now = some e') :
    Settled cancels executionId db { db' with executions := db'.executions.set i e' } where
  requests := h.requests
  timers := h.timers
  execution x hx := by
    by_cases hi : executionId = i
    · subst hi
      rw [get?_set_self] at hx
      obtain rfl := Option.some.inj hx
      exact ⟨e, he, Or.inr hchange⟩
    · rw [get?_set_of_ne _ hi] at hx
      exact h.execution x hx

theorem resume (h : Settled cancels executionId db db') (hex : db'.executions = db.executions)
    (i : String) : Settled cancels executionId db (db'.resumeExecution i) := by
  unfold Database.resumeExecution
  cases hu : db'.updateExecution i Execution.requeue with
  | none => exact h
  | some db2 =>
    obtain ⟨e, e', he, hreq, rfl⟩ := Database.updateExecution_some hu
    rw [hex] at he
    exact h.setExecution he (Or.inl hreq)

theorem decide {admitted : Bool} (h : db.decideApprovalRequest admitted id = some db') :
    Settled False executionId db db' := by
  unfold Database.decideApprovalRequest at h
  split at h
  · cases h
  · rename_i request hr
    split_ifs at h
    cases h
    exact ((refl executionId db).setRequest hr (fun hs => (by cases hs))).resume rfl _

theorem timeOut (h : db.claimAndDecideTimedOutApprovalRequest id = some db') :
    Settled False executionId db db' := by
  unfold Database.claimAndDecideTimedOutApprovalRequest at h
  split at h
  · cases h
  · rename_i request hr
    split_ifs at h
    cases h
    exact ((refl executionId db).setRequest hr (fun hs => (by cases hs))).resume rfl _

theorem fire (h : db.claimAndResolveDueWaitTimer id = some db') :
    Settled False executionId db db' := by
  unfold Database.claimAndResolveDueWaitTimer at h
  split at h
  · cases h
  · rename_i timer ht
    split_ifs at h
    cases h
    exact ((refl executionId db).setTimer ht).resume rfl _

theorem cancelScoped (executionId : String) (db : Database) (workspaceId : String)
    (scope : CancellationScope) :
    Settled cancels executionId db (db.cancelScoped workspaceId scope) where
  requests i r' h' := by
    simp only [Database.cancelScoped, get?_mapValues, Option.map_eq_some_iff] at h'
    obtain ⟨r, hr, rfl⟩ := h'
    refine ⟨r, hr, ?_⟩
    split_ifs with hc
    · exact ⟨rfl, rfl, rfl, fun _ => hc.2⟩
    · exact ⟨rfl, rfl, rfl, fun hp => hp⟩
  timers _ t h := ⟨t, h, rfl, rfl, fun hf => hf⟩
  execution e h := ⟨e, h, Or.inl rfl⟩

theorem cancelNonExecuting (cancels : Prop) (executionId : String) (db : Database) (workspaceId : String)
    (scope : CancellationScope) :
    Settled cancels executionId db (db.cancelNonExecutingActionIntents workspaceId scope).db ∧
      (db.cancelNonExecutingActionIntents workspaceId scope).db.executions = db.executions := by
  simp only [Database.cancelNonExecutingActionIntents]
  split_ifs
  · exact ⟨refl executionId db, rfl⟩
  · exact ⟨cancelScoped executionId db workspaceId scope, rfl⟩
  · exact ⟨refl executionId db, rfl⟩

/-- Only this one cancels. -/
theorem cancelLocked {pending : List (String × ApprovalRequest)}
    {workspaceId environmentId i : String}
    (h : Pauses.cancelLocked db pending workspaceId environmentId i = some db') :
    Settled True executionId db db' := by
  unfold Pauses.cancelLocked at h
  split at h
  · cases h
  · rename_i e he
    split_ifs at h
    split at h
    · cases h
    · rename_i cancelled hc
      have hdone := (cancelNonExecuting True executionId db workspaceId
        (.execution i)).1.setExecution he (Or.inr ⟨trivial, environmentId, db.clock, hc⟩)
      simp only at h
      split_ifs at h
      split at h
      · rename_i id _ hnone _
        split at h
        · rename_i request hget
          split_ifs at h
          cases h
          rw [cancelNonExecuting_unchanged hnone] at hget
          exact hdone.setRequest hget (fun hs => (by cases hs))
        · cases h
      · cases h
        exact hdone

end Settled

@[simp] theorem withTables_worker (w : World) (db : Database) :
    (w.withTables db).worker = w.worker := rfl

@[simp] theorem withTables_execution (w : World) (db : Database) :
    (w.withTables db).execution = w.execution := rfl

@[simp] theorem withDatabase_phase (w : World) (db : Database) :
    (w.withDatabase db).worker.phase = w.worker.phase := rfl

theorem database_execution (w : World) :
    w.database.executions.get? w.execution.id = some w.execution :=
  get?_set_self _ _ _

/-- Tables and row after a settled transaction. -/
theorem Waits_settled {db : Database} (h : Settled cancels w.execution.id w.database db)
    (hw : (w.withTables db).Waits timer n id) : w.Waits timer n id := by
  cases timer with
  | true =>
    obtain ⟨t', ht', rfl, hf⟩ := hw
    obtain ⟨t, ht, _, hn, hfired⟩ := h.timers id t' ht'
    exact ⟨t, ht, hn.symm, hfired hf⟩
  | false =>
    obtain ⟨r', hr', rfl, hp⟩ := hw
    obtain ⟨r, hr, _, _, hn, hpending⟩ := h.requests id r' hr'
    exact ⟨r, hr, hn.symm, hpending hp⟩

theorem execution_change {db : Database} (h : Settled cancels w.execution.id w.database db) :
    (w.withDatabase db).execution = w.execution ∨
      w.execution.requeue = some (w.withDatabase db).execution ∨
      cancels ∧ ∃ environmentId now,
        w.execution.cancelExecution environmentId now = some (w.withDatabase db).execution := by
  have heq : (w.withDatabase db).execution =
      (db.executions.get? w.execution.id).getD w.execution := rfl
  cases hd : db.executions.get? w.execution.id with
  | none =>
    rw [heq, hd]
    exact Or.inl rfl
  | some e' =>
    obtain ⟨e, he, hchange⟩ := h.execution e' hd
    obtain rfl := Option.some.inj ((database_execution w).symm.trans he)
    rw [heq, hd]
    exact hchange

theorem execution_settled {db : Database} (h : Settled cancels w.execution.id w.database db) :
    (w.withDatabase db).execution.id = w.execution.id ∧
      (w.withDatabase db).execution.workspaceId = w.execution.workspaceId ∧
      ((w.withDatabase db).execution.status = .running →
        (w.withDatabase db).execution = w.execution) := by
  rcases execution_change h with heq | hreq | ⟨_, _, _, hc⟩
  · rw [heq]
    exact ⟨rfl, rfl, fun _ => rfl⟩
  · obtain ⟨_, heq⟩ := Execution.requeue_some hreq
    rw [heq]
    exact ⟨rfl, rfl, fun hr => (by cases hr)⟩
  · obtain ⟨_, heq⟩ := Execution.cancelExecution_some hc
    rw [heq]
    exact ⟨rfl, rfl, fun hr => (by cases hr)⟩

theorem Owned.settled {db : Database} (ho : Owned w) (h : Settled cancels w.execution.id w.database db) :
    Owned (w.withDatabase db) := by
  obtain ⟨hid, hws, _⟩ := execution_settled h
  constructor
  · intro id r' hr'
    obtain ⟨r, hr, hx, hy, _⟩ := h.requests id r' hr'
    rw [hid, hws, hx, hy]
    exact ho.requests id r hr
  · intro id t' ht'
    obtain ⟨t, ht, hx, _⟩ := h.timers id t' ht'
    rw [hid, hx]
    exact ho.timers id t ht
  · intro i i' r r' hr hr' hn
    obtain ⟨q, hq, _, _, hqn, _⟩ := h.requests i r hr
    obtain ⟨q', hq', _, _, hqn', _⟩ := h.requests i' r' hr'
    exact ho.requestOf i i' q q' hq hq' (hqn.symm.trans (hn.trans hqn'))
  · intro i i' t t' ht ht' hn
    obtain ⟨q, hq, _, hqn, _⟩ := h.timers i t ht
    obtain ⟨q', hq', _, hqn', _⟩ := h.timers i' t' ht'
    exact ho.timerOf i i' q q' hq hq' (hqn.symm.trans (hn.trans hqn'))

theorem OneWait.settled {db : Database} (h : OneWait counted w)
    (hs : Settled cancels w.execution.id w.database db) : OneWait counted (w.withDatabase db) where
  owned := h.owned.settled hs
  one k k' n n' i i' hk hk' hi hi' :=
    h.one k k' n n' i i' hk hk' (Waits_settled hs hi) (Waits_settled hs hi')
  holder k n i hk hi hr := by
    obtain ⟨_, _, hrun⟩ := execution_settled hs
    have hsame := hrun hr
    rw [hsame] at hr ⊢
    exact h.holder k n i hk (Waits_settled hs hi) hr

theorem withDatabase_of_executions {db : Database}
    (h : db.executions = w.database.executions) : w.withDatabase db = w.withTables db := by
  unfold World.withDatabase
  rw [h, database_execution]
  rfl

/-- A step of the worker that lets no attempt leave a node whose row is waited for. -/
theorem OneWait.worked [Columns] {missing : String → Bool} (h : OneWait counted w)
    (hs : step g payload w.worker act = some s')
    (hclaim : ∀ a t, act = .claim a t →
      (w.execution.startExecution w.worker.clock a t).isSome →
        ∀ k n i, counted k → ¬ w.Waits k n i)
    (hstay : ∀ k n i b, counted k → w.Waits k n i → standsAt k n (w.worker.phase b) →
      (∀ v, act ≠ .invoke b (.output v)) ∧ act ≠ .pause b .alreadyDecided) :
    OneWait counted { w with worker := s', missing := missing } := by
  have hrow := step_row hs
  obtain ⟨hid, hws⟩ := hrow.ids
  refine ⟨⟨?_, ?_, h.owned.requestOf, h.owned.timerOf⟩, h.one, ?_⟩
  · intro i r hr
    have hold := h.owned.requests i r hr
    exact ⟨hold.1.trans hid.symm, hold.2.trans hws.symm⟩
  · intro i t ht
    exact (h.owned.timers i t ht).trans hid.symm
  · intro k n i hk hi hr
    rcases hrow.running hr with ⟨hrun, hlease⟩ | ⟨a, t, rfl, he⟩
    · obtain ⟨b, hb, hat⟩ := h.holder k n i hk hi hrun
      obtain ⟨hout, hdecided⟩ := hstay k n i b hk hi hat
      exact ⟨b, hlease.trans hb, standsAt_of_effect (step_effect hs) hat hout hdecided⟩
    · have hsome : (w.execution.startExecution w.worker.clock a t).isSome := by
        rw [World.execution, he]
        rfl
      exact absurd hi (hclaim a t rfl hsome k n i hk)

theorem Waits_congr (hr : w'.approvalRequests = w.approvalRequests)
    (ht : w'.waitTimers = w.waitTimers) : w'.Waits timer n id ↔ w.Waits timer n id := by
  unfold World.Waits
  rw [hr, ht]

/-- The rows and the execution stay, and nobody leaves a node. -/
theorem OneWait.congr (h : OneWait counted w) (hr : w'.approvalRequests = w.approvalRequests)
    (ht : w'.waitTimers = w.waitTimers) (he : w'.execution = w.execution)
    (hphase : ∀ k n b, standsAt k n (w.worker.phase b) → standsAt k n (w'.worker.phase b)) :
    OneWait counted w' where
  owned := by
    constructor
    · rw [hr, he]
      exact h.owned.requests
    · rw [ht, he]
      exact h.owned.timers
    · rw [hr]
      exact h.owned.requestOf
    · rw [ht]
      exact h.owned.timerOf
  one k k' n n' i i' hk hk' hi hi' :=
    h.one k k' n n' i i' hk hk' ((Waits_congr hr ht).mp hi) ((Waits_congr hr ht).mp hi')
  holder k n i hk hi hrun := by
    rw [he] at hrun ⊢
    obtain ⟨b, hb, hat⟩ := h.holder k n i hk ((Waits_congr hr ht).mp hi) hrun
    exact ⟨b, hb, hphase k n b hat⟩

/-- The holder of the lease creates a row at the node where it stands. -/
theorem OneWait.added (timer : Bool) (id : String) {l : Loaded} {p : Pass}
    (h : OneWait counted w) (ha : w.worker.phase a = .invoking l p) (hkind : holdsRow timer p.node.type)
    (hsame : w'.execution = w.execution) (howned : Owned w')
    (hrows : ∀ k n i, w'.Waits k n i → w.Waits k n i ∨ k = timer ∧ n = p.node.id ∧ i = id)
    (hfree : ∀ i, ¬ w.Waits timer p.node.id i)
    (hlease : counted timer → w.execution.status = .running ∧ w.execution.leasedBy = some a)
    (hphase : ∀ k n b, standsAt k n (w.worker.phase b) → standsAt k n (w'.worker.phase b)) :
    OneWait counted w' := by
  have hhere : standsAt timer p.node.id (w.worker.phase a) := by
    rw [ha]
    exact ⟨rfl, hkind⟩
  -- an older row would be waited for at the node where the holder stands
  have halone : counted timer → ∀ k n i, counted k → ¬ w.Waits k n i := by
    intro ht k n i hk hi
    obtain ⟨hr, hl⟩ := hlease ht
    obtain ⟨b, hb, hat⟩ := h.holder k n i hk hi hr
    rw [hl] at hb
    obtain rfl := Option.some.inj hb
    rw [ha] at hat
    obtain ⟨rfl, hk'⟩ := hat
    obtain rfl := holdsRow_unique hk' hkind
    exact hfree i hi
  refine ⟨howned, ?_, ?_⟩
  · intro k k' n n' i i' hk hk' hi hi'
    rcases hrows k n i hi with hold | ⟨rfl, rfl, rfl⟩
    · rcases hrows k' n' i' hi' with hold' | ⟨rfl, rfl, rfl⟩
      · exact h.one k k' n n' i i' hk hk' hold hold'
      · exact absurd hold (halone hk' k n i hk)
    · rcases hrows k' n' i' hi' with hold' | ⟨rfl, rfl, rfl⟩
      · exact absurd hold' (halone hk k' n' i' hk')
      · exact ⟨rfl, rfl⟩
  · intro k n i hk hi hr
    rw [hsame] at hr ⊢
    rcases hrows k n i hi with hold | ⟨rfl, rfl, rfl⟩
    · obtain ⟨b, hb, hat⟩ := h.holder k n i hk hold hr
      exact ⟨b, hb, hphase k n b hat⟩
    · exact ⟨a, (hlease hk).2, hphase k _ a hhere⟩

theorem standsAt_handlerPauses {l : Loaded} {p : Pass} {retried : Bool}
    (ha : w.worker.phase a = .invoking l p) (hb : standsAt timer n (w.worker.phase b)) :
    standsAt timer n ((w.handlerPauses a l p retried).worker.phase b) := by
  change standsAt timer n ((w.worker.withPhase a _).phase b)
  by_cases hba : b = a
  · subst hba
    rw [withPhase_self]
    rw [ha] at hb
    cases retried
    · exact hb
    · exact hb
  · rw [withPhase_of_ne _ hba]
    exact hb

theorem createApprovalRequest_free {db db' : Database} {request : ApprovalRequest}
    (h : db.createApprovalRequest id request = some db') :
    ∀ i r, db.approvalRequests.get? i = some r → r.executionId = request.executionId →
      r.nodeId ≠ request.nodeId := by
  unfold Database.createApprovalRequest at h
  split_ifs at h with hg
  simp only [not_or, Bool.not_eq_true, Option.isSome_eq_false_iff, Option.isNone_iff_eq_none] at hg
  intro i r hr hx hn
  have hnone := hg.2.1
  unfold Database.findRequest at hnone
  rw [List.find?_eq_none] at hnone
  exact hnone (i, r) (mem_of_get? hr) (by simp [hx, hn])

theorem createWaitTimer_some {db db' : Database} {t : WaitTimer}
    (h : db.createWaitTimer id t = some db') :
    (∀ i t', db.waitTimers.get? i = some t' → t'.executionId = t.executionId →
      t'.nodeId ≠ t.nodeId) ∧
    db' = { db with waitTimers := db.waitTimers.set id { t with fired := false } } := by
  unfold Database.createWaitTimer at h
  split_ifs at h with hg
  simp only [not_or, Bool.not_eq_true, Option.isSome_eq_false_iff, Option.isNone_iff_eq_none] at hg
  refine ⟨?_, (Option.some.inj h).symm⟩
  intro i t' ht hx hn
  have hnone := hg.2
  unfold Database.findTimer at hnone
  rw [List.find?_eq_none] at hnone
  exact hnone (i, t') (mem_of_get? ht) (by simp [hx, hn])

/-- A request of the execution's own, under a new id. -/
theorem OneWait.addedRequest {l : Loaded} {p : Pass} {request : ApprovalRequest}
    {db : Database} (h : OneWait counted w)
    (ha : w.worker.phase a = .invoking l p)
    (hkind : p.node.type = .approval ∨ p.node.type = .connector)
    (hx : request.executionId = w.execution.id)
    (hws : request.workspaceId = w.execution.workspaceId) (hn : request.nodeId = p.node.id)
    (hdb : w.database.createApprovalRequest id request = some db)
    (hlease : counted false → w.execution.status = .running ∧ w.execution.leasedBy = some a)
    {w' : World} (hrequests : w'.approvalRequests = db.approvalRequests)
    (htimers : w'.waitTimers = w.waitTimers) (hsame : w'.execution = w.execution)
    (hphase : ∀ k n b, standsAt k n (w.worker.phase b) → standsAt k n (w'.worker.phase b)) :
    OneWait counted w' := by
  have hfree := createApprovalRequest_free hdb
  obtain ⟨_, _, rfl⟩ := Database.createApprovalRequest_some hdb
  have hget : ∀ i r, w'.approvalRequests.get? i = some r →
      w.approvalRequests.get? i = some r ∨ i = id ∧ r = { request with status := .pending } := by
    intro i r hr
    rw [hrequests, get?_set] at hr
    split_ifs at hr with hi
    · exact Or.inr ⟨hi, (Option.some.inj hr).symm⟩
    · exact Or.inl hr
  have hnew : ∀ i r, w.approvalRequests.get? i = some r → r.nodeId ≠ request.nodeId := by
    intro i r hr
    exact hfree i r hr ((h.owned.requests i r hr).1.trans hx.symm)
  refine h.added false id ha hkind hsame ⟨?_, ?_, ?_, ?_⟩ ?_ ?_ hlease hphase
  · intro i r hr
    rw [hsame]
    rcases hget i r hr with hold | ⟨_, rfl⟩
    · exact h.owned.requests i r hold
    · exact ⟨hx, hws⟩
  · intro i t ht
    rw [htimers] at ht
    rw [hsame]
    exact h.owned.timers i t ht
  · intro i i' r r' hr hr' hnode
    rcases hget i r hr with hold | ⟨rfl, rfl⟩
    · rcases hget i' r' hr' with hold' | ⟨rfl, rfl⟩
      · exact h.owned.requestOf i i' r r' hold hold' hnode
      · exact absurd hnode (hnew i r hold)
    · rcases hget i' r' hr' with hold' | ⟨rfl, rfl⟩
      · exact absurd hnode.symm (hnew i' r' hold')
      · rfl
  · rw [htimers]
    exact h.owned.timerOf
  · intro k n i hi
    cases k with
    | true =>
      obtain ⟨t, ht, hrest⟩ := hi
      rw [htimers] at ht
      exact Or.inl ⟨t, ht, hrest⟩
    | false =>
      obtain ⟨r, hr, hnode, hp⟩ := hi
      rcases hget i r hr with hold | ⟨rfl, rfl⟩
      · exact Or.inl ⟨r, hold, hnode, hp⟩
      · exact Or.inr ⟨rfl, hnode.symm.trans hn, rfl⟩
  · rintro i ⟨r, hr, hnode, _⟩
    exact hnew i r hr (hnode.trans hn.symm)

theorem OneWait.addedTimer {l : Loaded} {p : Pass} {t : WaitTimer} {db : Database}
    (h : OneWait counted w) (ha : w.worker.phase a = .invoking l p)
    (hkind : p.node.type = .wait) (hx : t.executionId = w.execution.id)
    (hn : t.nodeId = p.node.id) (hdb : w.database.createWaitTimer id t = some db)
    (hlease : counted true → w.execution.status = .running ∧ w.execution.leasedBy = some a)
    {w' : World} (hrequests : w'.approvalRequests = w.approvalRequests)
    (htimers : w'.waitTimers = db.waitTimers) (hsame : w'.execution = w.execution)
    (hphase : ∀ k n b, standsAt k n (w.worker.phase b) → standsAt k n (w'.worker.phase b)) :
    OneWait counted w' := by
  obtain ⟨hfree, rfl⟩ := createWaitTimer_some hdb
  have hget : ∀ i t', w'.waitTimers.get? i = some t' →
      w.waitTimers.get? i = some t' ∨ i = id ∧ t' = { t with fired := false } := by
    intro i t' ht
    rw [htimers, get?_set] at ht
    split_ifs at ht with hi
    · exact Or.inr ⟨hi, (Option.some.inj ht).symm⟩
    · exact Or.inl ht
  have hnew : ∀ i t', w.waitTimers.get? i = some t' → t'.nodeId ≠ t.nodeId := by
    intro i t' ht
    exact hfree i t' ht ((h.owned.timers i t' ht).trans hx.symm)
  refine h.added true id ha hkind hsame ⟨?_, ?_, ?_, ?_⟩ ?_ ?_ hlease hphase
  · intro i r hr
    rw [hrequests] at hr
    rw [hsame]
    exact h.owned.requests i r hr
  · intro i t' ht
    rw [hsame]
    rcases hget i t' ht with hold | ⟨_, rfl⟩
    · exact h.owned.timers i t' hold
    · exact hx
  · rw [hrequests]
    exact h.owned.requestOf
  · intro i i' q q' hq hq' hnode
    rcases hget i q hq with hold | ⟨rfl, rfl⟩
    · rcases hget i' q' hq' with hold' | ⟨rfl, rfl⟩
      · exact h.owned.timerOf i i' q q' hold hold' hnode
      · exact absurd hnode (hnew i q hold)
    · rcases hget i' q' hq' with hold' | ⟨rfl, rfl⟩
      · exact absurd hnode.symm (hnew i' q' hold')
      · rfl
  · intro k n i hi
    cases k with
    | false =>
      obtain ⟨r, hr, hrest⟩ := hi
      rw [hrequests] at hr
      exact Or.inl ⟨r, hr, hrest⟩
    | true =>
      obtain ⟨t', ht, hnode, hf⟩ := hi
      rcases hget i t' ht with hold | ⟨rfl, rfl⟩
      · exact Or.inl ⟨t', hold, hnode, hf⟩
      · exact Or.inr ⟨rfl, hnode.symm.trans hn, rfl⟩
  · rintro i ⟨t', ht, hnode, _⟩
    exact hnew i t' ht (hnode.trans hn.symm)

/-- The request of a new intent is the node's own, or a new one of the running execution. -/
theorem createActionIntent_rows {db db' : Database} {admitted : Bool} {grantId : Option String}
    {requestId intentId : String} {input : Database.CreateActionIntentInput}
    (h : db.createActionIntent admitted grantId requestId intentId input = some db') :
    (∃ e, db.executions.get? input.executionId = some e ∧ e.status = .running) ∧
      db'.waitTimers = db.waitTimers ∧
      (db'.approvalRequests = db.approvalRequests ∨ ∃ request db1,
        db.createApprovalRequest requestId request = some db1 ∧
        request.executionId = input.executionId ∧ request.workspaceId = input.workspaceId ∧
        request.nodeId = input.nodeId ∧ db'.approvalRequests = db1.approvalRequests) := by
  unfold Database.createActionIntent at h
  split_ifs at h
  split at h
  · cases h
  · rename_i e he
    split at h
    · split_ifs at h with hg
      split at h
      · cases h
      · rename_i id db1 hreq
        split_ifs at h
        cases h
        refine ⟨⟨e, he, hg.2.2⟩, ?_⟩
        unfold Database.intentRequest at hreq
        split at hreq
        · split_ifs at hreq
          obtain ⟨rfl, rfl⟩ := Prod.mk.inj (Option.some.inj hreq)
          exact ⟨rfl, Or.inl rfl⟩
        · obtain ⟨db2, hcreate, hpair⟩ := Option.map_eq_some_iff.mp hreq
          obtain ⟨rfl, rfl⟩ := Prod.mk.inj hpair
          refine ⟨?_, Or.inr ⟨_, db2, hcreate, rfl, rfl, rfl, rfl⟩⟩
          obtain ⟨_, _, rfl⟩ := Database.createApprovalRequest_some hcreate
          rfl
    · cases h

/-- The row that is found at a node is the one that is waited for there. -/
theorem rowAt_of_waits {node : WorkflowNode} (ho : Owned w)
    (hw : w.Waits timer node.id id) (hkind : holdsRow timer node.type) :
    w.rowAt node = some true := by
  unfold World.rowAt
  cases timer with
  | true =>
    obtain ⟨t, ht, hn, hf⟩ := hw
    rw [if_pos (show node.type = .wait from hkind)]
    have hsome : (w.database.findTimer w.execution.id node.id).isSome := by
      rw [Database.findTimer, List.find?_isSome]
      exact ⟨(id, t), mem_of_get? ht, by simp [ho.timers id t ht, hn]⟩
    obtain ⟨p, hp⟩ := Option.isSome_iff_exists.mp hsome
    have hget : w.waitTimers.get? p.1 = some p.2 := (Database.findTimer_some hp).1
    have hnode : p.2.nodeId = node.id := by
      have := List.find?_some hp
      simp only [decide_eq_true_eq] at this
      exact this.2
    obtain rfl := ho.timerOf p.1 id p.2 t hget ht (hnode.trans hn.symm)
    rw [ht] at hget
    rw [hp, Option.map_some, ← Option.some.inj hget, hf]
    rfl
  | false =>
    obtain ⟨r, hr, hn, hpending⟩ := hw
    rw [if_neg (by rcases hkind with hk | hk <;> simp [hk])]
    have hsome : (w.database.findRequest w.execution.id node.id).isSome := by
      rw [Database.findRequest, List.find?_isSome]
      exact ⟨(id, r), mem_of_get? hr, by simp [(ho.requests id r hr).1, hn]⟩
    obtain ⟨p, hp⟩ := Option.isSome_iff_exists.mp hsome
    have hget : w.approvalRequests.get? p.1 = some p.2 := (Database.findRequest_some hp).1
    have hnode : p.2.nodeId = node.id := by
      have := List.find?_some hp
      simp only [decide_eq_true_eq] at this
      exact this.2
    obtain rfl := ho.requestOf p.1 id p.2 r hget hr (hnode.trans hn.symm)
    rw [hr] at hget
    rw [hp, Option.map_some, ← Option.some.inj hget, hpending]
    rfl

/-- No handler has an output for a row that is waited for. -/
theorem mayOutput_of_rowAt {node : WorkflowNode} (h : w.rowAt node = some true)
    (hkind : holdsRow timer node.type) : w.mayOutput node = false := by
  unfold World.mayOutput
  cases timer with
  | true =>
    have hk : node.type = .wait := hkind
    unfold World.rowAt at h
    rw [if_pos hk] at h
    obtain ⟨p, hp, hf⟩ := Option.map_eq_some_iff.mp h
    simpa [hk, hp] using hf
  | false =>
    rcases hkind with hk | hk
    · unfold World.rowAt at h
      rw [if_neg (by simp [hk])] at h
      obtain ⟨p, hp, hpending⟩ := Option.map_eq_some_iff.mp h
      simp only [decide_eq_true_eq] at hpending
      simp [hk, hp, hpending]
    · simp [hk, h]

theorem advanceActionIntent_rows {db db' : Database} {status : ActionIntentStatus}
    (h : Wakeup.advanceActionIntent db id status = some db') :
    db'.approvalRequests = db.approvalRequests ∧ db'.waitTimers = db.waitTimers ∧
      db'.executions = db.executions := by
  unfold Wakeup.advanceActionIntent at h
  split at h
  · cases h
  · split_ifs at h
    cases h
    exact ⟨rfl, rfl, rfl⟩

/-- The worker's own steps leave the tables alone, and no output passes a row that is waited
for. -/
theorem OneWait.work [Columns] (h : OneWait counted w) (ok : Exclusive counted w (.work act))
    (hs : pauseStep g payload w (.work act) = some w') : OneWait counted w' := by
  simp only [pauseStep] at hs
  split_ifs at hs with henabled
  obtain ⟨s', hs', rfl⟩ := Option.map_eq_some_iff.mp hs
  refine h.worked hs' ?_ ?_
  · rintro a t rfl
    exact ok
  · intro k n i b _ hi hat
    constructor
    · rintro v rfl
      simp only [World.workEnabled] at henabled
      split at henabled
      · rename_i l p hph
        rw [hph] at hat
        obtain ⟨rfl, hkind⟩ := hat
        rw [mayOutput_of_rowAt (rowAt_of_waits h.owned hi hkind) hkind] at henabled
        cases henabled
      · cases henabled
    · rintro rfl
      cases henabled

theorem OneWait.pauseStep [Columns] {act : PauseAct} (h : OneWait counted w)
    (ok : Exclusive counted w act)
    (hs : pauseStep g payload w act = some w') : OneWait counted w' := by
  cases act with
  | work act => exact h.work ok hs
  | lookUp a retried =>
    simp only [Pauses.pauseStep] at hs
    split at hs
    · rename_i l p ha
      split_ifs at hs
      split at hs
      · cases hs
        exact h.congr rfl rfl rfl fun _ _ _ hb => hb
      · cases hs
        exact h.congr rfl rfl rfl fun _ _ _ hb => standsAt_handlerPauses ha hb
      · cases hs
    · cases hs
  | createRequest a id timeout retried =>
    simp only [Pauses.pauseStep] at hs
    split at hs
    · rename_i l p ha
      split_ifs at hs with hg
      cases hs
      cases hdb : w.database.createApprovalRequest id (w.nodeRequest p.node timeout) with
      | none =>
        exact h.congr rfl rfl rfl fun _ _ _ hb => standsAt_handlerPauses ha hb
      | some db =>
        refine h.addedRequest ha (Or.inl hg.1) rfl rfl rfl hdb ok rfl ?_ rfl ?_
        · obtain ⟨_, _, rfl⟩ := Database.createApprovalRequest_some hdb
          rfl
        · intro k n b hb
          exact standsAt_handlerPauses ha hb
    · cases hs
  | createTimer a id resumeAt retried =>
    simp only [Pauses.pauseStep] at hs
    split at hs
    · rename_i l p ha
      split_ifs at hs with hg
      cases hs
      cases hdb : w.database.createWaitTimer id (w.nodeTimer p.node resumeAt) with
      | none =>
        exact h.congr rfl rfl rfl fun _ _ _ hb => standsAt_handlerPauses ha hb
      | some db =>
        refine h.addedTimer ha hg.1 rfl rfl hdb ok ?_ rfl rfl ?_
        · obtain ⟨_, rfl⟩ := createWaitTimer_some hdb
          rfl
        · intro k n b hb
          exact standsAt_handlerPauses ha hb
    · cases hs
  | createIntent a admitted grantId requestId intentId connectionId digest expiresAt =>
    simp only [Pauses.pauseStep] at hs
    split at hs
    · rename_i l p ha
      split_ifs at hs with hg
      obtain ⟨db, hdb, rfl⟩ := Option.map_eq_some_iff.mp hs
      obtain ⟨⟨e, he, hrun⟩, htimers, hrows⟩ := createActionIntent_rows hdb
      obtain rfl := Option.some.inj ((database_execution w).symm.trans he)
      rcases hrows with hrows | ⟨request, db1, hcreate, hx, hws, hn, hrows⟩
      · exact h.congr hrows htimers rfl fun _ _ _ hb => hb
      · exact h.addedRequest ha (Or.inr hg.1) hx hws hn hcreate (fun hk => ⟨hrun, ok hk⟩) hrows
          htimers rfl fun _ _ _ hb => hb
    · cases hs
  | advanceIntent id status =>
    obtain ⟨db, hdb, rfl⟩ := Option.map_eq_some_iff.mp hs
    obtain ⟨hr, ht, _⟩ := advanceActionIntent_rows hdb
    exact h.congr hr ht rfl fun _ _ _ hb => hb
  | claimPause a =>
    simp only [Pauses.pauseStep] at hs
    split at hs
    · rename_i l p ha
      split_ifs at hs with _ hrow
      · obtain ⟨s', hs', rfl⟩ := Option.map_eq_some_iff.mp hs
        refine h.worked hs' ?_ ?_
        · intro b t heq
          cases heq
        · intro k n i b _ _ _
          exact ⟨fun v heq => (by cases heq), fun heq => (by cases heq)⟩
      · obtain ⟨s', hs', rfl⟩ := Option.map_eq_some_iff.mp hs
        refine h.worked hs' ?_ ?_
        · intro b t heq
          cases heq
        · intro k n i b _ hi hat
          refine ⟨fun v heq => (by cases heq), ?_⟩
          intro heq
          obtain ⟨rfl, _⟩ := Act.pause.inj heq
          rw [ha] at hat
          obtain ⟨rfl, hkind⟩ := hat
          exact hrow (rowAt_of_waits h.owned hi hkind)
    · cases hs
  | decideRequest admitted id =>
    simp only [Pauses.pauseStep] at hs
    split_ifs at hs
    obtain ⟨db, hdb, rfl⟩ := Option.map_eq_some_iff.mp hs
    exact h.settled (Settled.decide hdb)
  | timeOutRequest id =>
    simp only [Pauses.pauseStep] at hs
    split_ifs at hs
    obtain ⟨db, hdb, rfl⟩ := Option.map_eq_some_iff.mp hs
    exact h.settled (Settled.timeOut hdb)
  | fireTimer id =>
    obtain ⟨db, hdb, rfl⟩ := Option.map_eq_some_iff.mp hs
    exact h.settled (Settled.fire hdb)
  | revoke workspaceId scope =>
    simp only [Pauses.pauseStep] at hs
    split_ifs at hs
    cases hs
    obtain ⟨hsettled, hex⟩ := Settled.cancelNonExecuting False w.execution.id w.database
      workspaceId scope
    have := h.settled hsettled
    rw [withDatabase_of_executions hex] at this
    exact this
  | beginCancel workspaceId =>
    simp only [Pauses.pauseStep] at hs
    split_ifs at hs
    cases hs
    exact h.congr rfl rfl rfl fun _ _ _ hb => hb
  | finishCancel environmentId =>
    simp only [Pauses.pauseStep] at hs
    split at hs
    · cases hs
    · have hreleased : OneWait counted { w with cancelling := none } :=
        h.congr rfl rfl rfl fun _ _ _ hb => hb
      split at hs
      · rename_i db hdb
        cases hs
        exact hreleased.settled (Settled.cancelLocked hdb)
      · cases hs
        exact hreleased

theorem OneWait.created (counted : Bool → Prop) (s : System) : OneWait counted (created s) where
  owned := ⟨fun _ _ h => (by cases h), fun _ _ h => (by cases h), fun _ _ _ _ h => (by cases h),
    fun _ _ _ _ h => (by cases h)⟩
  one k _ _ _ _ _ _ _ h := by cases k <;> obtain ⟨_, h, _⟩ := h <;> cases h
  holder k _ _ _ h := by cases k <;> obtain ⟨_, h, _⟩ := h <;> cases h

theorem oneWait_reachable [Columns] (h : PauseReachable g payload (Exclusive counted) w) :
    OneWait counted w := by
  induction h with
  | start => exact OneWait.created _ _
  | step _ ok taken ih => exact ih.pauseStep ok taken

/-- The pending requests and the unfired timers of the execution. -/
def World.pending (w : World) : List (String × ApprovalRequest) :=
  w.approvalRequests.entries.filter fun p =>
    p.2.executionId = w.execution.id ∧ p.2.status = .pending

def World.unfired (w : World) : List (String × WaitTimer) :=
  w.waitTimers.entries.filter fun p => p.2.executionId = w.execution.id ∧ p.2.fired = false

/-- Rows of a map whose keys all agree are one row at most. -/
theorem length_filter_le_one {ν : Type*} (m : OrderedMap String ν) (p : String × ν → Bool)
    (h : ∀ x ∈ m.entries, ∀ y ∈ m.entries, p x = true → p y = true → x.1 = y.1) :
    (m.entries.filter p).length ≤ 1 := by
  have hnodup : ((m.entries.filter p).map Prod.fst).Nodup :=
    m.nodup.sublist (List.filter_sublist.map _)
  rw [← List.length_map Prod.fst]
  rcases hl : (m.entries.filter p) with _ | ⟨x, _ | ⟨y, rest⟩⟩
  · simp
  · simp
  · have hx : x ∈ m.entries.filter p := by rw [hl]; simp
    have hy : y ∈ m.entries.filter p := by rw [hl]; simp
    rw [List.mem_filter] at hx hy
    rw [hl] at hnodup
    simp [h x hx.1 y hy.1 hx.2 hy.2] at hnodup

/-- In every run in which the lease stays where it is while a row is waited for, and rows are
created under it, the execution has one pending request at most and one unfired timer at most. -/
theorem one_wait_at_most [Columns] (g : WorkflowGraph) (payload : Value) (w : World)
    (reached : PauseReachable g payload (Exclusive fun _ => True) w) :
    w.pending.length ≤ 1 ∧ w.unfired.length ≤ 1 := by
  have inv := oneWait_reachable reached
  constructor
  · refine length_filter_le_one _ _ ?_
    rintro ⟨i, r⟩ hx ⟨i', r'⟩ hy hp hp'
    simp only [decide_eq_true_eq] at hp hp'
    exact (inv.one false false _ _ i i' trivial trivial ⟨r, get?_iff_mem.mpr hx, rfl, hp.2⟩
      ⟨r', get?_iff_mem.mpr hy, rfl, hp'.2⟩).2
  · refine length_filter_le_one _ _ ?_
    rintro ⟨i, t⟩ hx ⟨i', t'⟩ hy hp hp'
    simp only [decide_eq_true_eq] at hp hp'
    exact (inv.one true true _ _ i i' trivial trivial ⟨t, get?_iff_mem.mpr hx, rfl, hp.2⟩
      ⟨t', get?_iff_mem.mpr hy, rfl, hp'.2⟩).2

/-- The walk reaches `sign` before `review`; a resumed walk finds `review` first. -/
def forkGraph : WorkflowGraph where
  entryNodeId := "start"
  nodes := [⟨"start", .start, []⟩, ⟨"draft", .transform, []⟩, ⟨"review", .approval, []⟩,
    ⟨"sign", .approval, []⟩]
  edges := [⟨"start", "draft", none⟩, ⟨"start", "sign", none⟩, ⟨"draft", "review", none⟩]

def claims (a : String) (leaseExpiresAt : ℕ) : List PauseAct :=
  [.work (.claim a leaseExpiresAt), .work (.readState a), .work (.readVariables a),
    .work (.begin a)]

def outputs (a : String) : List PauseAct :=
  [.work (.checkLease a), .work (.invoke a (.output .null)), .work (.writeStep a none)]

def asks (a requestId : String) : List PauseAct :=
  [.work (.checkLease a), .lookUp a false, .createRequest a requestId none false]

/-- Up to the first request. -/
def asksFirst : List PauseAct := claims "a" 30 ++ outputs "a" ++ outputs "a" ++ asks "a" "r1"

/-- The request is decided before the next attempt asks for the other approval. -/
def asksTwice : List PauseAct :=
  asksFirst ++ [.claimPause "a", .decideRequest true "r1"] ++ claims "b" 60 ++ asks "b" "r2"

open scoped Unchanged

theorem one_wait_at_most_asksTwice :
    (pauseRun forkGraph .null (created queued) asksTwice).pending.map Prod.fst = ["r2"] ∧
      (pauseRun forkGraph .null (created queued) asksTwice).pending.length ≤ 1 ∧
      (pauseRun forkGraph .null (created queued) asksTwice).unfired.length ≤ 1 := by
  refine ⟨rfl, one_wait_at_most forkGraph .null _ ?_⟩
  refine (PauseReachable.start 0 "e" "w" (some "env") none none).run ?_
  refine ⟨?_, trivial, trivial, trivial, trivial, trivial, trivial, trivial, trivial, trivial,
    trivial, trivial, fun _ => ⟨rfl, rfl⟩, trivial, trivial, ?_, trivial, trivial, trivial,
    trivial, trivial, fun _ => ⟨rfl, rfl⟩, trivial⟩
  · intro _ k n i _ hw
    cases k <;> obtain ⟨_, h, _⟩ := hw <;> cases h
  · intro _ k n i _ hw
    cases k with
    | true =>
      obtain ⟨_, h, _⟩ := hw
      cases h
    | false =>
      obtain ⟨r, h, _, hp⟩ := hw
      have hmem := mem_of_get? h
      rcases List.mem_singleton.mp hmem with heq
      rw [(Prod.mk.inj heq).2] at hp
      cases hp

/-- The first attempt dies between its request and its pause; the next one asks again. -/
theorem crash_leaves_two_requests : ∃ w,
    validateGraphStructure acceptAll forkGraph = .ok () ∧
    PauseReachable forkGraph .null (fun _ _ => True) w ∧
    w.pending.map Prod.fst = ["r1", "r2"] ∧
    w.database.cancelExecutionWithPendingApproval "w" "env" "e" = none := by
  refine ⟨pauseRun forkGraph .null (created queued)
    (asksFirst ++ [.work (.crash "a"), .work (.tick 40)] ++ claims "b" 90 ++ asks "b" "r2"), ?_,
    (PauseReachable.start 0 "e" "w" (some "env") none none).run ?_, rfl, rfl⟩
  · rfl
  · simp [PauseAllowed, asksFirst, claims, outputs, asks]

end Linea.Worker.Pauses
