import Linea.PausesWaits

/-! Requests that outlive their execution. A pending request is settled by the pause that follows
it, by a decision, or by the cancellation that finds it; it is left behind when its attempt throws
first, when the run ends through another attempt, or when a cancellation does not see it. -/
namespace Linea.Worker.Pauses
open Walker Validate OrderedMap

variable {g : WorkflowGraph} {payload : Value} {w w' : World} {s s' : System} {act : Act}
  {a b n id : String}

/-- The attempt is on its way from the request to the pause, or its process died. -/
def pausesAt (node : String) : Phase → Prop
  | .checking _ p => p.node.id = node ∧ holdsRow false p.node.type
  | .invoking _ p => p.node.id = node ∧ holdsRow false p.node.type
  | .pausing _ p => p.node.id = node ∧ holdsRow false p.node.type
  | .done => True
  | _ => False

def requestsOnly : Bool → Prop := fun timer => timer = false

/-- The attempt holds a lease that has not run out, and a request is pending. -/
def World.asked (w : World) (a : String) : Prop :=
  w.execution.isLeaseValid w.worker.clock a = true ∧ ∃ n i, w.Waits false n i

/-- The lease stays where it is while a request is pending, requests are created under the lease
of a running execution that nobody is cancelling, an attempt whose request is pending does not
throw before its pause is recorded, and a cancellation that cancels intents finds no pending
request but theirs. -/
def Careful (w : World) : PauseAct → Prop
  | .work (.throw a) => ¬ w.asked a
  | .work (.invoke a (.error _)) => ¬ w.asked a
  | .work (.invoke a .leaseLost) => ¬ w.asked a
  | .work (.pause a .threw) => ¬ w.asked a
  | .createRequest a id timeout retried =>
    Exclusive requestsOnly w (.createRequest a id timeout retried) ∧ w.cancelling = none
  | .finishCancel _ => ∀ workspaceId pending, w.cancelling = some (workspaceId, pending) →
      (w.database.scopedIntents workspaceId (.execution w.execution.id)).any
        Database.cancellable = true →
      ∀ p ∈ pending,
        p.1 ∈ w.database.scopedRequestIds workspaceId (.execution w.execution.id)
  | act => Exclusive requestsOnly w act

theorem Careful.exclusive {act : PauseAct} (h : Careful w act) :
    Exclusive requestsOnly w act := by
  cases act with
  | work act =>
    cases act with
    | claim a t => exact h
    | _ => trivial
  | createRequest a id timeout retried => exact h.1
  | createTimer a id resumeAt retried => exact h
  | createIntent => exact h
  | _ => trivial

structure NoOrphan (w : World) : Prop where
  base : OneWait requestsOnly w
  live : ∀ n i, w.Waits false n i → w.execution.status ∉ terminalStatuses
  holder : ∀ n i a, w.Waits false n i →
    w.execution.isLeaseValid w.worker.clock a = true → pausesAt n (w.worker.phase a)
  seen : ∀ pending, w.cancelling = some (w.execution.workspaceId, pending) →
    ∀ n i, w.Waits false n i → i ∈ pending.map Prod.fst

/-- Under its lease, an attempt that does not throw goes on to its pause. -/
theorem pausesAt_of_step [Columns] (h : step g payload s act = some s') (hb : pausesAt n (s.phase b))
    (hvalid : s.record.execution.isLeaseValid s.clock b = true)
    (hlive : s.record.execution.status ∉ terminalStatuses) (hthrow : act ≠ .throw b)
    (hinvoke : ∀ outcome, act = .invoke b outcome → outcome = .retry ∨ outcome = .pause)
    (hpause : ∀ answer, act = .pause b answer → answer = .pending) :
    pausesAt n (s'.phase b) ∨ s'.record.execution.leasedBy = none := by
  by_cases hother : attemptOf act ≠ some b
  · rw [phase_of_ne h hother]
    exact Or.inl hb
  rw [not_not] at hother
  cases act with
  | tick elapsed => cases hother
  | requeue => cases hother
  | cancel environmentId => cases hother
  | renew a leaseExpiresAt => cases hother
  | claim a leaseExpiresAt =>
    obtain rfl := Option.some.inj hother
    simp only [step] at h
    split at h
    · rename_i hph
      rw [hph] at hb
      exact hb.elim
    · cases h
  | readState a =>
    obtain rfl := Option.some.inj hother
    simp only [step] at h
    split at h
    · rename_i hph
      rw [hph] at hb
      exact hb.elim
    · cases h
  | readVariables a =>
    obtain rfl := Option.some.inj hother
    simp only [step] at h
    split at h
    · rename_i hph
      rw [hph] at hb
      exact hb.elim
    · cases h
  | begin a =>
    obtain rfl := Option.some.inj hother
    simp only [step] at h
    split at h
    · rename_i hph
      rw [hph] at hb
      exact hb.elim
    · cases h
  | checkLease a =>
    obtain rfl := Option.some.inj hother
    simp only [step] at h
    split at h
    · rename_i l p hph
      rw [if_pos hvalid] at h
      cases h
      rw [hph] at hb
      rw [withPhase_self]
      exact Or.inl hb
    · cases h
  | invoke a outcome =>
    obtain rfl := Option.some.inj hother
    simp only [step] at h
    split at h
    · rename_i l p hph
      cases h
      rw [hph] at hb
      rw [withPhase_self]
      rcases hinvoke outcome rfl with rfl | rfl
      · exact Or.inl hb
      · exact Or.inl hb
    · cases h
  | writeStep a dbError =>
    obtain rfl := Option.some.inj hother
    simp only [step] at h
    split at h
    · rename_i hph
      rw [hph] at hb
      exact hb.elim
    · cases h
  | writeFailure a dbError =>
    obtain rfl := Option.some.inj hother
    simp only [step] at h
    split at h
    · rename_i hph
      rw [hph] at hb
      exact hb.elim
    · cases h
  | pause a answer =>
    obtain rfl := Option.some.inj hother
    obtain rfl := hpause answer rfl
    simp only [step] at h
    split at h
    · split at h
      · rename_i e he
        obtain ⟨_, rfl⟩ := Execution.pauseExecution_some he
        cases h
        exact Or.inr rfl
      · rename_i he
        simp [Execution.pauseExecution, hvalid, hlive] at he
    · cases h
  | complete a threw =>
    obtain rfl := Option.some.inj hother
    simp only [step] at h
    split at h
    · rename_i hph
      rw [hph] at hb
      exact hb.elim
    · cases h
  | abort a message =>
    obtain rfl := Option.some.inj hother
    simp only [step] at h
    split at h
    · rename_i hph
      rw [hph] at hb
      exact hb.elim
    · cases h
  | throw a =>
    obtain rfl := Option.some.inj hother
    exact absurd rfl hthrow
  | crash a =>
    obtain rfl := Option.some.inj hother
    cases h
    rw [withPhase_self]
    exact Or.inl trivial

theorem isLeaseValid_mono {e : Execution} {now later : ℕ} (hle : now ≤ later)
    (h : e.isLeaseValid later a = true) : e.isLeaseValid now a = true := by
  simp only [Execution.isLeaseValid, decide_eq_true_eq] at h ⊢
  refine ⟨h.1, ?_⟩
  cases ht : e.leaseExpiresAt with
  | none => simp [ht] at h
  | some t =>
    simp only [ht, decide_eq_true_eq] at h
    simp only [decide_eq_true_eq]
    omega

theorem step_clock [Columns] (h : step g payload s act = some s') : s.clock ≤ s'.clock := by
  cases step_effect h with
  | clock elapsed => exact Nat.le_add_right _ _
  | row => exact le_refl _
  | claim => exact le_refl _
  | quiet => exact le_refl _
  | finished => exact le_refl _
  | marker => exact le_refl _
  | success => exact le_refl _
  | failure => exact le_refl _

/-- Whoever holds a valid lease after a step held one before, or has just claimed. -/
theorem valid_before [Columns] (h : step g payload s act = some s')
    (hclaim : ∀ a t, act = .claim a t → s.record.execution.startExecution s.clock a t = none)
    (hv : s'.record.execution.isLeaseValid s'.clock b = true) :
    s.record.execution.isLeaseValid s.clock b = true := by
  have hv := isLeaseValid_mono (step_clock h) hv
  have hrow := step_row h
  generalize s'.record.execution = e' at hrow hv
  cases hrow with
  | kept => exact hv
  | requeued hreq =>
    obtain ⟨_, rfl⟩ := Execution.requeue_some hreq
    exact hv
  | cancelled hc =>
    obtain ⟨_, rfl⟩ := Execution.cancelExecution_some hc
    simp [Execution.isLeaseValid] at hv
  | @claimed e' a t hs =>
    rw [hclaim a t rfl] at hs
    cases hs
  | @renewed e' a t hr =>
    obtain ⟨⟨_, hvalid⟩, rfl⟩ := Execution.renewLease_some hr
    have hb : s.record.execution.leasedBy = some b := by
      simp only [Execution.isLeaseValid, decide_eq_true_eq] at hv
      exact hv.1
    obtain rfl := Option.some.inj ((Execution.isLeaseValid_leasedBy hvalid).symm.trans hb)
    exact hvalid
  | paused hp =>
    obtain ⟨_, rfl⟩ := Execution.pauseExecution_some hp
    simp [Execution.isLeaseValid] at hv
  | completed hc _ =>
    obtain ⟨_, rfl, _⟩ := Execution.completeExecution_some hc
    exact hv

/-- A step of the worker while a request is pending: the run does not end. -/
theorem NoOrphan.worked [Columns] {missing : String → Bool} (h : NoOrphan w)
    (hs : step g payload w.worker act = some s')
    (hbase : OneWait requestsOnly { w with worker := s', missing := missing })
    (hcancel : ∀ environmentId, act ≠ .cancel environmentId)
    (hclaim : ∀ a t, act = .claim a t →
      (w.execution.startExecution w.worker.clock a t).isSome → ∀ n i, ¬ w.Waits false n i)
    (hthrow : ∀ a, act = .throw a → ¬ w.asked a)
    (hinvoke : ∀ a outcome n i, act = .invoke a outcome → w.Waits false n i → w.asked a →
      pausesAt n (w.worker.phase a) → outcome = .retry ∨ outcome = .pause)
    (hpause : ∀ a answer n i, act = .pause a answer → w.Waits false n i → w.asked a →
      pausesAt n (w.worker.phase a) → answer = .pending) :
    NoOrphan { w with worker := s', missing := missing } := by
  have hrow := step_row hs
  refine ⟨hbase, ?_, ?_, ?_⟩
  · intro n i hi
    change w.Waits false n i at hi
    change s'.record.execution.status ∉ terminalStatuses
    have hlive := h.live n i hi
    generalize s'.record.execution = e' at hrow
    cases hrow with
    | kept => exact hlive
    | requeued hreq =>
      obtain ⟨_, rfl⟩ := Execution.requeue_some hreq
      simp [terminalStatuses]
    | cancelled => exact absurd rfl (hcancel _)
    | claimed hc =>
      obtain ⟨_, rfl⟩ := Execution.startExecution_some hc
      simp [terminalStatuses]
    | renewed hr =>
      obtain ⟨_, rfl⟩ := Execution.renewLease_some hr
      exact hlive
    | paused hp =>
      obtain ⟨_, rfl⟩ := Execution.pauseExecution_some hp
      simp [terminalStatuses]
    | @completed e' a input event hc act call =>
      -- the holder is on its way to the pause, so it does not report an end
      obtain ⟨⟨hvalid, _⟩, _⟩ := Execution.completeExecution_some hc
      have hat := h.holder n i a hi hvalid
      rcases call with rfl | ⟨message, rfl⟩
      · simp only [step] at hs
        split at hs
        · rename_i hph
          rw [hph] at hat
          exact hat.elim
        · cases hs
      · simp only [step] at hs
        split at hs
        · rename_i hph
          rw [hph] at hat
          exact hat.elim
        · cases hs
  · intro n i b hi hv
    change w.Waits false n i at hi
    change s'.record.execution.isLeaseValid s'.clock b = true at hv
    have hold : w.execution.isLeaseValid w.worker.clock b = true := by
      refine valid_before hs ?_ hv
      intro a t hact
      cases hstart : w.worker.record.execution.startExecution w.worker.clock a t with
      | none => rfl
      | some e =>
        have hsome : (w.execution.startExecution w.worker.clock a t).isSome := by
          rw [World.execution, hstart]
          rfl
        exact absurd hi (hclaim a t hact hsome n i)
    have hat := h.holder n i b hi hold
    have hasked : w.asked b := ⟨hold, n, i, hi⟩
    have hnext := pausesAt_of_step hs hat hold (h.live n i hi)
      (fun hact => hthrow b hact hasked)
      (fun outcome hact => hinvoke b outcome n i hact hi hasked hat)
      (fun answer hact => hpause b answer n i hact hi hasked hat)
    rcases hnext with hnext | hnone
    · exact hnext
    · rw [Execution.isLeaseValid_leasedBy hv] at hnone
      cases hnone
  · intro pending hc n i hi
    refine h.seen pending ?_ n i hi
    rw [show w.execution.workspaceId = s'.record.execution.workspaceId from hrow.ids.2.symm]
    exact hc

theorem NoOrphan.settled {db : Database} (h : NoOrphan w)
    (hs : Settled False w.execution.id w.database db) : NoOrphan (w.withDatabase db) := by
  have hchange : (w.withDatabase db).execution = w.execution ∨
      w.execution.requeue = some (w.withDatabase db).execution := by
    rcases execution_change hs with heq | hreq | ⟨hno, _⟩
    · exact Or.inl heq
    · exact Or.inr hreq
    · exact hno.elim
  refine ⟨h.base.settled hs, ?_, ?_, ?_⟩
  · intro n i hi
    rcases hchange with heq | hreq
    · rw [heq]
      exact h.live n i (Waits_settled hs hi)
    · obtain ⟨_, heq⟩ := Execution.requeue_some hreq
      rw [heq]
      simp [terminalStatuses]
  · intro n i a hi hv
    refine h.holder n i a (Waits_settled hs hi) ?_
    rcases hchange with heq | hreq
    · rw [heq] at hv
      exact hv
    · obtain ⟨_, heq⟩ := Execution.requeue_some hreq
      rw [heq] at hv
      exact hv
  · intro pending hc n i hi
    rw [(execution_settled hs).2.1] at hc
    exact h.seen pending hc n i (Waits_settled hs hi)

/-- The rows, the execution and the clock stay, and nobody leaves the way to its pause. -/
theorem NoOrphan.congr (h : NoOrphan w) (hbase : OneWait requestsOnly w')
    (hr : w'.approvalRequests = w.approvalRequests) (he : w'.execution = w.execution)
    (hclock : w'.worker.clock = w.worker.clock)
    (hcancelling : w'.cancelling = w.cancelling ∨ w'.cancelling = none)
    (hphase : ∀ n b, pausesAt n (w.worker.phase b) → pausesAt n (w'.worker.phase b)) :
    NoOrphan w' := by
  have hwaits : ∀ n i, w'.Waits false n i → w.Waits false n i := by
    rintro n i ⟨r, hget, hrest⟩
    rw [hr] at hget
    exact ⟨r, hget, hrest⟩
  refine ⟨hbase, ?_, ?_, ?_⟩
  · intro n i hi
    rw [he]
    exact h.live n i (hwaits n i hi)
  · intro n i a hi hv
    rw [he, hclock] at hv
    exact hphase n a (h.holder n i a (hwaits n i hi) hv)
  · intro pending hc n i hi
    rcases hcancelling with hsame | hnone
    · rw [hsame, he] at hc
      exact h.seen pending hc n i (hwaits n i hi)
    · rw [hnone] at hc
      cases hc

theorem pausesAt_handlerPauses {l : Loaded} {p : Pass} {retried : Bool}
    (ha : w.worker.phase a = .invoking l p) (hb : pausesAt n (w.worker.phase b)) :
    pausesAt n ((w.handlerPauses a l p retried).worker.phase b) := by
  change pausesAt n ((w.worker.withPhase a _).phase b)
  by_cases hba : b = a
  · subst hba
    rw [withPhase_self]
    rw [ha] at hb
    cases retried
    · exact hb
    · exact hb
  · rw [withPhase_of_ne _ hba]
    exact hb

/-- The holder of the lease creates a request while nobody cancels. -/
theorem NoOrphan.added {l : Loaded} {p : Pass} {request : ApprovalRequest} {db : Database}
    (h : NoOrphan w) (hbase : OneWait requestsOnly w') (ha : w.worker.phase a = .invoking l p)
    (hkind : holdsRow false p.node.type)
    (hdb : w.database.createApprovalRequest id request = some db)
    (hn : request.nodeId = p.node.id) (hrunning : w.execution.status = .running)
    (hlease : w.execution.leasedBy = some a) (hrequests : w'.approvalRequests = db.approvalRequests)
    (he : w'.execution = w.execution) (hclock : w'.worker.clock = w.worker.clock)
    (hcancelling : w'.cancelling = none)
    (hphase : ∀ n b, pausesAt n (w.worker.phase b) → pausesAt n (w'.worker.phase b)) :
    NoOrphan w' := by
  obtain ⟨_, _, rfl⟩ := Database.createApprovalRequest_some hdb
  have hwaits : ∀ n i, w'.Waits false n i → w.Waits false n i ∨ n = p.node.id := by
    rintro n i ⟨r, hget, hnode, hp⟩
    rw [hrequests, get?_set] at hget
    split_ifs at hget
    · obtain rfl := Option.some.inj hget
      exact Or.inr (hnode.symm.trans hn)
    · exact Or.inl ⟨r, hget, hnode, hp⟩
  have hhere : pausesAt p.node.id (w.worker.phase a) := by
    rw [ha]
    exact ⟨rfl, hkind⟩
  refine ⟨hbase, ?_, ?_, ?_⟩
  · intro n i _
    rw [he, hrunning]
    simp [terminalStatuses]
  · intro n i b hi hv
    rw [he, hclock] at hv
    rcases hwaits n i hi with hold | rfl
    · exact hphase n b (h.holder n i b hold hv)
    · obtain rfl := Option.some.inj (hlease.symm.trans (Execution.isLeaseValid_leasedBy hv))
      exact hphase _ _ hhere
  · intro pending hc
    rw [hcancelling] at hc
    cases hc

/-- A cancellation that has seen every pending request leaves none. -/
theorem cancelLocked_clears {db db' : Database} {pending : List (String × ApprovalRequest)}
    {workspaceId environmentId executionId : String}
    (h : cancelLocked db pending workspaceId environmentId executionId = some db')
    (hintents : (db.scopedIntents workspaceId (.execution executionId)).any
        Database.cancellable = true →
      ∀ p ∈ pending, p.1 ∈ db.scopedRequestIds workspaceId (.execution executionId))
    (hid : id ∈ pending.map Prod.fst) :
    ∀ r, db'.approvalRequests.get? id = some r → r.status ≠ .pending := by
  unfold cancelLocked at h
  split at h
  · cases h
  · split_ifs at h with hg
    split at h
    · cases h
    · simp only at h
      split_ifs at h with hexecuting
      obtain ⟨p, hp, rfl⟩ := List.mem_map.mp hid
      obtain ⟨q, hq⟩ : ∃ q, pending = [q] := by
        rw [← List.length_eq_one_iff]
        have := List.length_pos_of_mem hp
        omega
      subst hq
      obtain rfl := List.mem_singleton.mp hp
      split at h
      · rename_i i r0 _ hhead
        obtain rfl := Option.some.inj hhead
        split at h
        · rename_i request _
          split_ifs at h
          cases h
          intro r hr hpending
          rw [get?_set_self] at hr
          obtain rfl := Option.some.inj hr
          cases hpending
        · cases h
      · rename_i hne
        cases h
        have hcancelled : (db.cancelNonExecutingActionIntents workspaceId
            (.execution executionId)).cancelled = true := by
          cases hc : (db.cancelNonExecutingActionIntents workspaceId
            (.execution executionId)).cancelled with
          | true => rfl
          | false => exact absurd rfl (hne p.1 p.2 hc)
        intro r hr hpending
        simp only [Database.cancelNonExecutingActionIntents] at hcancelled hr
        split_ifs at hcancelled hr with _ hany
        simp only [Database.cancelScoped, get?_mapValues, Option.map_eq_some_iff] at hr
        obtain ⟨old, _, rfl⟩ := hr
        have hscoped := hintents hany p (List.mem_singleton.mpr rfl)
        by_cases hold : old.status = .pending
        · rw [if_pos ⟨hscoped, hold⟩] at hpending
          cases hpending
        · rw [if_neg (fun hc => hold hc.2)] at hpending
          exact hold hpending

theorem NoOrphan.work [Columns] (h : NoOrphan w) (ok : Careful w (.work act))
    (hs : Pauses.pauseStep g payload w (.work act) = some w') : NoOrphan w' := by
  have hbase := h.base.pauseStep ok.exclusive hs
  simp only [Pauses.pauseStep] at hs
  split_ifs at hs with henabled
  obtain ⟨s', hs', rfl⟩ := Option.map_eq_some_iff.mp hs
  refine h.worked hs' hbase ?_ ?_ ?_ ?_ ?_
  · rintro environmentId rfl
    cases henabled
  · rintro a t rfl hsome n i hi
    exact ok hsome false n i rfl hi
  · rintro a rfl
    exact ok
  · rintro a outcome n i rfl hi hasked hat
    cases outcome with
    | output v =>
      simp only [World.workEnabled] at henabled
      split at henabled
      · rename_i l p hph
        rw [hph] at hat
        obtain ⟨rfl, hkind⟩ := hat
        rw [mayOutput_of_rowAt (rowAt_of_waits h.base.owned hi hkind) hkind] at henabled
        cases henabled
      · cases henabled
    | error message => exact absurd hasked ok
    | retry => exact Or.inl rfl
    | pause => exact Or.inr rfl
    | leaseLost => exact absurd hasked ok
  · rintro a answer n i rfl hi hasked _
    cases answer with
    | pending => rfl
    | alreadyDecided => cases henabled
    | threw => exact absurd hasked ok

theorem NoOrphan.pauseStep [Columns] {act : PauseAct} (h : NoOrphan w) (ok : Careful w act)
    (hs : Pauses.pauseStep g payload w act = some w') : NoOrphan w' := by
  have hbase := h.base.pauseStep ok.exclusive hs
  cases act with
  | work act => exact h.work ok hs
  | lookUp a retried =>
    simp only [Pauses.pauseStep] at hs
    split at hs
    · rename_i l p ha
      split_ifs at hs
      split at hs
      · cases hs
        exact h.congr hbase rfl rfl rfl (Or.inl rfl) fun _ _ hb => hb
      · cases hs
        exact h.congr hbase rfl rfl rfl (Or.inl rfl) fun _ _ hb => pausesAt_handlerPauses ha hb
      · cases hs
    · cases hs
  | createRequest a id timeout retried =>
    simp only [Pauses.pauseStep] at hs
    split at hs
    · rename_i l p ha
      split_ifs at hs with hg
      cases hs
      cases hdb : w.database.createApprovalRequest id (w.nodeRequest p.node timeout) with
      | none =>
        rw [hdb] at hbase
        exact h.congr hbase rfl rfl rfl (Or.inl rfl) fun _ _ hb => pausesAt_handlerPauses ha hb
      | some db =>
        rw [hdb] at hbase
        obtain ⟨hexclusive, hnobody⟩ := ok
        obtain ⟨hrunning, hlease⟩ := hexclusive rfl
        exact h.added hbase ha (Or.inl hg.1) hdb rfl hrunning hlease rfl rfl rfl hnobody
          fun _ _ hb => pausesAt_handlerPauses ha hb
    · cases hs
  | createTimer a id resumeAt retried =>
    simp only [Pauses.pauseStep] at hs
    split at hs
    · rename_i l p ha
      split_ifs at hs with hg
      cases hs
      refine h.congr hbase ?_ rfl rfl (Or.inl rfl) fun _ _ hb => pausesAt_handlerPauses ha hb
      cases hdb : w.database.createWaitTimer id (w.nodeTimer p.node resumeAt) with
      | none => rfl
      | some db =>
        obtain ⟨_, rfl⟩ := createWaitTimer_some hdb
        rfl
    · cases hs
  | createIntent a admitted grantId requestId intentId connectionId digest expiresAt =>
    simp only [Pauses.pauseStep] at hs
    split at hs
    · rename_i l p ha
      split_ifs at hs with hg
      obtain ⟨db, hdb, rfl⟩ := Option.map_eq_some_iff.mp hs
      obtain ⟨⟨e, he, hrun⟩, _, hrows⟩ := createActionIntent_rows hdb
      obtain rfl := Option.some.inj ((database_execution w).symm.trans he)
      rcases hrows with hrows | ⟨request, db1, hcreate, _, _, hn, hrows⟩
      · exact h.congr hbase hrows rfl rfl (Or.inl rfl) fun _ _ hb => hb
      · exact h.added hbase ha (Or.inr hg.1) hcreate hn hrun (ok rfl) hrows rfl rfl hg.2
          fun _ _ hb => hb
    · cases hs
  | advanceIntent id status =>
    obtain ⟨db, hdb, rfl⟩ := Option.map_eq_some_iff.mp hs
    obtain ⟨hr, _, _⟩ := advanceActionIntent_rows hdb
    exact h.congr hbase hr rfl rfl (Or.inl rfl) fun _ _ hb => hb
  | claimPause a =>
    simp only [Pauses.pauseStep] at hs
    split at hs
    · rename_i l p ha
      split_ifs at hs with _ hrow
      · obtain ⟨s', hs', rfl⟩ := Option.map_eq_some_iff.mp hs
        refine h.worked hs' hbase (fun _ heq => (by cases heq)) (fun _ _ heq => (by cases heq))
          (fun _ heq => (by cases heq)) (fun _ _ _ _ heq => (by cases heq)) ?_
        intro b answer n i heq _ _ _
        exact (Act.pause.inj heq).2.symm
      · obtain ⟨s', hs', rfl⟩ := Option.map_eq_some_iff.mp hs
        refine h.worked hs' hbase (fun _ heq => (by cases heq)) (fun _ _ heq => (by cases heq))
          (fun _ heq => (by cases heq)) (fun _ _ _ _ heq => (by cases heq)) ?_
        intro b answer n i heq hi _ hat
        obtain ⟨rfl, _⟩ := Act.pause.inj heq
        rw [ha] at hat
        obtain ⟨rfl, hkind⟩ := hat
        exact absurd (rowAt_of_waits h.base.owned hi hkind) hrow
    · cases hs
  | decideRequest admitted id =>
    simp only [Pauses.pauseStep] at hs
    split_ifs at hs
    obtain ⟨db, hdb, rfl⟩ := Option.map_eq_some_iff.mp hs
    exact h.settled (Settled.decide hdb)
  | timeOutRequest id =>
    simp only [Pauses.pauseStep] at hs
    split_ifs at hs
    obtain ⟨db, hdb, rfl⟩ := Option.map_eq_some_iff.mp hs
    exact h.settled (Settled.timeOut hdb)
  | fireTimer id =>
    obtain ⟨db, hdb, rfl⟩ := Option.map_eq_some_iff.mp hs
    exact h.settled (Settled.fire hdb)
  | revoke workspaceId scope =>
    simp only [Pauses.pauseStep] at hs
    split_ifs at hs
    cases hs
    obtain ⟨hsettled, hex⟩ := Settled.cancelNonExecuting False w.execution.id w.database
      workspaceId scope
    have hnext := h.settled hsettled
    rw [withDatabase_of_executions hex] at hnext
    exact hnext
  | beginCancel workspaceId =>
    simp only [Pauses.pauseStep] at hs
    split_ifs at hs
    cases hs
    refine ⟨hbase, h.live, h.holder, ?_⟩
    rintro pending hc n i ⟨r, hr, _, hp⟩
    obtain ⟨hws, rfl⟩ := Prod.mk.inj (Option.some.inj hc)
    obtain ⟨hx, hws'⟩ := h.base.owned.requests i r hr
    refine List.mem_map.mpr ⟨(i, r), ?_, rfl⟩
    exact List.mem_filter.mpr
      ⟨mem_of_get? hr, decide_eq_true ⟨hws'.trans hws.symm, hx, hp⟩⟩
  | finishCancel environmentId =>
    simp only [Pauses.pauseStep] at hs
    split at hs
    · cases hs
    · rename_i workspaceId pending hcancelling
      split at hs
      · rename_i db hdb
        cases hs
        have hws : w.execution.workspaceId = workspaceId := by
          by_contra hne
          rw [cancelLocked, database_execution] at hdb
          simp only [hne, and_false, if_false, reduceCtorEq] at hdb
        -- nothing is waited for any more
        have hnone : ∀ n i, ¬ (({ w with cancelling := none } : World).withDatabase db).Waits
            false n i := by
          intro n i hi
          have hold : w.Waits false n i := Waits_settled (Settled.cancelLocked hdb)
            (show (w.withTables db).Waits false n i from hi)
          have hid := h.seen pending (by rw [hws]; exact hcancelling) n i hold
          obtain ⟨r, hr, _, hp⟩ := hi
          exact cancelLocked_clears hdb (ok workspaceId pending hcancelling) hid r hr hp
        refine ⟨hbase, fun n i hi => absurd hi (hnone n i), fun n i a hi => absurd hi (hnone n i),
          ?_⟩
        intro pending' hc
        cases hc
      · cases hs
        exact h.congr hbase rfl rfl rfl (Or.inr rfl) fun _ _ hb => hb

theorem noOrphan_created (s : System) : NoOrphan (created s) :=
  ⟨OneWait.created _ _, fun _ _ ⟨_, h, _⟩ => (by cases h), fun _ _ _ ⟨_, h, _⟩ => (by cases h),
    fun _ h => (by cases h)⟩

theorem noOrphan_reachable [Columns] (h : PauseReachable g payload Careful w) : NoOrphan w := by
  induction h with
  | start => exact noOrphan_created _
  | step _ ok taken ih => exact ih.pauseStep ok taken

/-- In every run of careful steps, no request is pending under an execution that has ended,
whatever is still in flight. -/
theorem no_orphan_request [Columns] (g : WorkflowGraph) (payload : Value) (w : World)
    (reached : PauseReachable g payload Careful w)
    (ended : w.execution.status ∈ terminalStatuses) : w.pending = [] := by
  have inv := noOrphan_reachable reached
  refine List.filter_eq_nil_iff.mpr ?_
  rintro ⟨i, r⟩ hmem hp
  simp only [decide_eq_true_eq] at hp
  exact inv.live r.nodeId i ⟨r, get?_iff_mem.mpr hmem, rfl, hp.2⟩ ended

def cancels : List PauseAct := [.beginCancel "w", .finishCancel "env"]

/-- The cancellation comes after the pause and finds the request. -/
def cancelledLate : List PauseAct := asksFirst ++ [.claimPause "a"] ++ cancels

open scoped Unchanged

theorem no_orphan_request_cancelledLate :
    (pauseRun forkGraph .null (created queued) cancelledLate).execution.status = .cancelled ∧
      (pauseRun forkGraph .null (created queued) cancelledLate).pending = [] := by
  refine ⟨rfl, no_orphan_request forkGraph .null _ ?_ (by decide)⟩
  refine (PauseReachable.start 0 "e" "w" (some "env") none none).run ?_
  refine ⟨?_, trivial, trivial, trivial, trivial, trivial, trivial, trivial, trivial, trivial,
    trivial, trivial, ⟨fun _ => ⟨rfl, rfl⟩, rfl⟩, trivial, trivial, ?_, trivial⟩
  · intro _ k n i _ hw
    cases k <;> obtain ⟨_, h, _⟩ := hw <;> cases h
  · intro _ _ _ h
    cases h

/-- The attempt that a step moves. -/
def movedAttempt : PauseAct → Option String
  | .work act => attemptOf act
  | .lookUp a _ => some a
  | .createRequest a _ _ _ => some a
  | .createTimer a _ _ _ => some a
  | .claimPause a => some a
  | _ => none

theorem handlerPauses_phase_of_ne {l : Loaded} {p : Pass} {retried : Bool} (hne : b ≠ a) :
    (w.handlerPauses a l p retried).worker.phase b = w.worker.phase b :=
  withPhase_of_ne w.worker hne _

theorem pauseStep_phase_of_ne [Columns] {act : PauseAct}
    (hs : Pauses.pauseStep g payload w act = some w')
    (hne : movedAttempt act ≠ some b) : w'.worker.phase b = w.worker.phase b := by
  have hmoved : ∀ {a : String}, movedAttempt act = some a → b ≠ a := by
    rintro a ha rfl
    exact hne ha
  cases act with
  | work act =>
    simp only [Pauses.pauseStep] at hs
    split_ifs at hs
    obtain ⟨s', hs', rfl⟩ := Option.map_eq_some_iff.mp hs
    exact phase_of_ne hs' hne
  | lookUp a retried =>
    simp only [Pauses.pauseStep] at hs
    split at hs
    · split_ifs at hs
      split at hs
      · cases hs
        rfl
      · cases hs
        exact handlerPauses_phase_of_ne (hmoved rfl)
      · cases hs
    · cases hs
  | createRequest a id timeout retried =>
    simp only [Pauses.pauseStep] at hs
    split at hs
    · split_ifs at hs
      cases hs
      exact handlerPauses_phase_of_ne (hmoved rfl)
    · cases hs
  | createTimer a id resumeAt retried =>
    simp only [Pauses.pauseStep] at hs
    split at hs
    · split_ifs at hs
      cases hs
      exact handlerPauses_phase_of_ne (hmoved rfl)
    · cases hs
  | createIntent a admitted grantId requestId intentId connectionId digest expiresAt =>
    simp only [Pauses.pauseStep] at hs
    split at hs
    · split_ifs at hs
      obtain ⟨db, _, rfl⟩ := Option.map_eq_some_iff.mp hs
      rfl
    · cases hs
  | advanceIntent id status =>
    obtain ⟨db, _, rfl⟩ := Option.map_eq_some_iff.mp hs
    rfl
  | claimPause a =>
    simp only [Pauses.pauseStep] at hs
    split at hs
    · split_ifs at hs
      · obtain ⟨s', hs', rfl⟩ := Option.map_eq_some_iff.mp hs
        exact phase_of_ne hs' hne
      · obtain ⟨s', hs', rfl⟩ := Option.map_eq_some_iff.mp hs
        exact phase_of_ne hs' hne
    · cases hs
  | decideRequest admitted id =>
    simp only [Pauses.pauseStep] at hs
    split_ifs at hs
    obtain ⟨db, _, rfl⟩ := Option.map_eq_some_iff.mp hs
    rfl
  | timeOutRequest id =>
    simp only [Pauses.pauseStep] at hs
    split_ifs at hs
    obtain ⟨db, _, rfl⟩ := Option.map_eq_some_iff.mp hs
    rfl
  | fireTimer id =>
    obtain ⟨db, _, rfl⟩ := Option.map_eq_some_iff.mp hs
    rfl
  | revoke workspaceId scope =>
    simp only [Pauses.pauseStep] at hs
    split_ifs at hs
    cases hs
    rfl
  | beginCancel workspaceId =>
    simp only [Pauses.pauseStep] at hs
    split_ifs at hs
    cases hs
    rfl
  | finishCancel environmentId =>
    simp only [Pauses.pauseStep] at hs
    split at hs
    · cases hs
    · split at hs <;> cases hs <;> rfl

theorem pauseRun_phase_of_ne [Columns] {acts : List PauseAct}
    (hne : ∀ act ∈ acts, movedAttempt act ≠ some b) :
    (pauseRun g payload w acts).worker.phase b = w.worker.phase b := by
  induction acts generalizing w with
  | nil => rfl
  | cons act acts ih =>
    rw [pauseRun, List.foldl_cons]
    refine (ih fun other hother => hne other (List.mem_cons_of_mem _ hother)).trans ?_
    cases hs : Pauses.pauseStep g payload w act with
    | none => rfl
    | some w1 => exact pauseStep_phase_of_ne hs (hne act (List.mem_cons_self ..))

/-- Every attempt has stopped or has not begun, and no cancellation is under way. -/
def World.Finished (w : World) : Prop :=
  (∀ a, w.worker.phase a = .idle ∨ w.worker.phase a = .done) ∧ w.cancelling = none

/-- The cancellation falls between the lease check and the request. -/
def cancelledEarly : List PauseAct :=
  claims "a" 30 ++ outputs "a" ++ outputs "a" ++
    [.work (.checkLease "a"), .lookUp "a" false] ++ cancels ++
    [.createRequest "a" "r1" none false, .claimPause "a", .work (.abort "a" "lease lost")]

theorem cancelled_execution_keeps_request : ∃ w,
    validateGraphStructure acceptAll forkGraph = .ok () ∧
    PauseReachable forkGraph .null (fun _ _ => True) w ∧ w.Finished ∧
    w.execution.status = .cancelled ∧ w.pending.map Prod.fst = ["r1"] := by
  refine ⟨pauseRun forkGraph .null (created queued) cancelledEarly, rfl,
    (PauseReachable.start 0 "e" "w" (some "env") none none).run ?_, ⟨?_, rfl⟩, rfl, rfl⟩
  · simp [PauseAllowed, cancelledEarly, cancels, claims, outputs]
  · intro b
    by_cases hb : b = "a"
    · subst hb
      exact Or.inr rfl
    · left
      refine pauseRun_phase_of_ne ?_
      intro act hact
      have hmoved : movedAttempt act = some "a" ∨ movedAttempt act = none := by
        revert act
        decide
      rcases hmoved with hmoved | hmoved
      · rw [hmoved]
        exact fun heq => hb (Option.some.inj heq).symm
      · rw [hmoved]
        exact fun heq => (by cases heq)

end Linea.Worker.Pauses
