import Linea.ConsentInvariant

/-! What a client goes on knowing while other clients commit: the rows it has locked, and whatever
never changes once it is there. -/
namespace Linea.Consent
variable {setting : Setting} {c : Client} {held : Set Lock} {s t : Store} {id : String}
  {r r' : IntentRecord}

abbrev Rely (setting : Setting) := (discipline setting).Rely

section Locked

theorem notMem_of_disjoint {held' : Set Lock} {lock : Lock} (h : Disjoint held' held)
    (hlock : lock ∈ held) : lock ∉ held' := fun hin => Set.disjoint_left.mp h hin hlock

/-- A view of the store that no move changes without one of the locks. -/
theorem rely_view {α : Type} (view : Store → α) (h : Rely setting c held s t)
    (hmove : ∀ d held' s s', Disjoint held' held → Inv setting s → Move setting d held' s s' →
      view s' = view s) : view t = view s := by
  induction h with
  | refl => rfl
  | tail _ hstep ih =>
    obtain ⟨d, held', _, hdisjoint, hinv, hcommit⟩ := hstep
    exact (hmove d held' _ _ hdisjoint hinv hcommit).trans ih

/-- A property of the store that moves keep, whoever makes them. -/
theorem rely_keeps (known : Store → Prop) (h : Rely setting c held s t)
    (hmove : ∀ d held' s s', d ≠ c → Disjoint held' held → Inv setting s →
      Move setting d held' s s' → known s → known s') (hs : known s) : known t := by
  refine Discipline.Stable.rely ?_ h hs
  rintro s s' hknown ⟨d, held', hne, hdisjoint, hinv, hcommit⟩
  exact hmove d held' s s' hne hdisjoint hinv hcommit hknown

theorem Rely.subject (h : Rely setting c held s t) (hlock : .subject id ∈ held) :
    t.subjects id = s.subjects id :=
  rely_view (Store.subject id) h fun _ _ _ _ hdisjoint _ hmove =>
    hmove.subjects id (notMem_of_disjoint hdisjoint hlock)

theorem Rely.environment (h : Rely setting c held s t) (hlock : .environment id ∈ held) :
    t.environments id = s.environments id :=
  rely_view (fun s => s.environments id) h fun _ _ _ _ hdisjoint _ hmove =>
    hmove.environments id (notMem_of_disjoint hdisjoint hlock)

theorem Rely.connection (h : Rely setting c held s t) (hlock : .connection id ∈ held) :
    t.connections id = s.connections id :=
  rely_view (fun s => s.connections id) h fun _ _ _ _ hdisjoint _ hmove =>
    hmove.connections id (notMem_of_disjoint hdisjoint hlock)

theorem Rely.grants {e u : String} (h : Rely setting c held s t)
    (henvironment : .environment e ∈ held) (hsubject : .subject u ∈ held) :
    t.grants (e, u) = s.grants (e, u) :=
  rely_view (fun s => s.grants (e, u)) h fun _ _ _ _ hdisjoint _ hmove =>
    hmove.grants e u (notMem_of_disjoint hdisjoint henvironment)
      (notMem_of_disjoint hdisjoint hsubject)

theorem Rely.reviewers {e u : String} (h : Rely setting c held s t)
    (henvironment : .environment e ∈ held) (hsubject : .subject u ∈ held) :
    t.reviewers (e, u) = s.reviewers (e, u) :=
  rely_view (fun s => s.reviewers (e, u)) h fun _ _ _ _ hdisjoint _ hmove =>
    hmove.reviewers e u (notMem_of_disjoint hdisjoint henvironment)
      (notMem_of_disjoint hdisjoint hsubject)

theorem Rely.decisionKey {session key : String} (h : Rely setting c held s t)
    (hlock : .decisionSlot session key ∈ held) :
    t.decisionKeys (session, key) = s.decisionKeys (session, key) :=
  rely_view (fun s => s.decisionKeys (session, key)) h fun _ _ _ _ hdisjoint _ hmove =>
    hmove.slots session key (notMem_of_disjoint hdisjoint hlock)

theorem Rely.request (h : Rely setting c held s t) (hlock : .request id ∈ held) :
    t.request id = s.request id := by
  refine rely_view (fun s => s.request id) h fun _ _ _ _ hdisjoint _ hmove => ?_
  have hout := notMem_of_disjoint hdisjoint hlock
  have hrequest := hmove.requests id
  revert hrequest
  generalize Store.request id _ = old
  generalize Store.request id _ = new
  intro hrequest
  cases hrequest with
  | keep => rfl
  | create row hheld => exact absurd hheld hout
  | decide decision hheld => exact absurd hheld hout
  | cancel now hheld => exact absurd hheld hout

theorem Rely.execution (h : Rely setting c held s t) (hlock : .execution id ∈ held) :
    t.executions id = s.executions id := by
  refine rely_view (fun s => s.executions id) h fun _ _ s s' hdisjoint _ hmove => ?_
  have hout := notMem_of_disjoint hdisjoint hlock
  have hexecution := hmove.executions id
  revert hexecution
  generalize s.executions id = old
  generalize s'.executions id = new
  intro hexecution
  cases hexecution with
  | keep => rfl
  | create e hheld => exact absurd hheld hout
  | change row hheld => exact absurd hheld hout
  | lease row attempt hheld => exact absurd hheld hout

end Locked

section Intents

/-- Without its lock an intent gets further facts and calls only. -/
theorem steps_unlocked (hout : .intent id ∉ held)
    (h : Relation.ReflTransGen (IntentStep setting c held s id) r r') :
    r'.row = r.row ∧ r'.claims = r.claims ∧ r'.dispatches = r.dispatches := by
  induction h with
  | refl => exact ⟨rfl, rfl, rfl⟩
  | tail _ hstep ih =>
    cases hstep with
    | fact => exact ih
    | call => exact ih
    | ready now hheld => exact absurd hheld hout
    | claim attempt now hheld => exact absurd hheld hout
    | dispatch input hheld => exact absurd hheld hout
    | settle row event fact hheld => exact absurd hheld hout
    | withdraw row fact hheld => exact absurd hheld hout

theorem Rely.intent (h : Rely setting c held s t) (hlock : .intent id ∈ held)
    (hr : s.intent id = some r) : ∃ r', t.intent id = some r' ∧ r'.row = r.row ∧
      r'.claims = r.claims ∧ r'.dispatches = r.dispatches := by
  refine rely_keeps (fun t => ∃ r', t.intent id = some r' ∧ r'.row = r.row ∧
    r'.claims = r.claims ∧ r'.dispatches = r.dispatches) h ?_ ⟨r, hr, rfl, rfl, rfl⟩
  rintro d held' s s' _ hdisjoint _ hmove ⟨r₁, hr₁, hrow, hclaims, hdispatches⟩
  obtain ⟨r₂, hr₂, hsteps⟩ := hmove.intent_some hr₁
  obtain ⟨hrow₂, hclaims₂, hdispatches₂⟩ :=
    steps_unlocked (notMem_of_disjoint hdisjoint hlock) hsteps
  exact ⟨r₂, hr₂, hrow₂.trans hrow, hclaims₂.trans hclaims, hdispatches₂.trans hdispatches⟩

theorem Rely.intentRow {row : ActionIntent} (h : Rely setting c held s t)
    (hlock : .intent id ∈ held) (hr : s.intentRow id = some row) : t.intentRow id = some row := by
  obtain ⟨r, hrecord, rfl⟩ := Option.map_eq_some_iff.mp hr
  obtain ⟨r', hr', hrow, _⟩ := h.intent hlock hrecord
  simp [Store.intentRow, hr', hrow]

theorem Rely.intent_absent (h : Rely setting c held s t) (hlock : .intent id ∈ held)
    (hr : s.intent id = none) : t.intent id = none := by
  refine rely_keeps (fun t => t.intent id = none) h ?_ hr
  rintro d held' s s' _ hdisjoint _ hmove hnone
  have hintent := hmove.intents id
  rw [hnone] at hintent
  generalize hnew : s'.intent id = new at hintent
  cases hintent with
  | absent => rfl
  | create _ hheld => exact absurd hheld (notMem_of_disjoint hdisjoint hlock)

/-- An intent stays, with the columns that identify its invocation. -/
theorem Rely.invocation (h : Rely setting c held s t) (hr : s.intent id = some r) :
    ∃ r', t.intent id = some r' ∧ r'.row.toInvocation = r.row.toInvocation := by
  refine rely_keeps (fun t => ∃ r', t.intent id = some r' ∧
    r'.row.toInvocation = r.row.toInvocation) h ?_ ⟨r, hr, rfl⟩
  rintro d held' s s' _ _ _ hmove ⟨r₁, hr₁, hsame⟩
  obtain ⟨r₂, hr₂, hsteps⟩ := hmove.intent_some hr₁
  exact ⟨r₂, hr₂, (steps_invocation hsteps).trans hsame⟩

def Uninvoked (executionId nodeId invocationIdempotencyKey : String) (s : Store) : Prop :=
  ∀ other record, s.intent other = some record →
    ¬ (record.row.executionId = executionId ∧ record.row.nodeId = nodeId ∧
      record.row.invocationIdempotencyKey = invocationIdempotencyKey)

/-- The place of an invocation in the unique index stays free while it is locked. -/
theorem Rely.uninvoked {e n k : String} (h : Rely setting c held s t)
    (hlock : .intentSlot e n k ∈ held) (hs : Uninvoked e n k s) : Uninvoked e n k t := by
  refine rely_keeps (Uninvoked e n k) h ?_ hs
  rintro d held' s s' _ hdisjoint _ hmove hfree other record hrecord ⟨rfl, rfl, rfl⟩
  cases hold : s.intent other with
  | none =>
    have hintent := hmove.intents other
    rw [hold, hrecord] at hintent
    cases hintent with
    | create _ _ hslot => exact absurd hslot (notMem_of_disjoint hdisjoint hlock)
  | some before =>
    obtain ⟨after, hafter, hsteps⟩ := hmove.intent_some hold
    rw [hrecord, Option.some.injEq] at hafter
    subst hafter
    have hsame := steps_invocation hsteps
    refine hfree other before hold ⟨?_, ?_, ?_⟩
    · exact (congrArg Invocation.executionId hsame).symm
    · exact (congrArg Invocation.nodeId hsame).symm
    · exact (congrArg Invocation.invocationIdempotencyKey hsame).symm

end Intents

section Requests

/-- A request with a Decision stays as it is. -/
theorem Inv.decided_of_decisions (h : Inv setting s) {q : RequestRecord}
    (hq : s.request id = some q) (hne : q.decisions ≠ []) : q.row.status = .decided := by
  have hrequest := h.requests id q hq
  cases hstatus : q.row.status with
  | decided => rfl
  | pending => exact absurd (hrequest.pending hstatus).1 hne
  | cancelled => exact absurd (hrequest.cancelled hstatus).1 hne

theorem Rely.ended (h : Rely setting c held s t) {q : RequestRecord} (hq : s.request id = some q)
    (hended : q.row.status ≠ .pending) : t.request id = some q := by
  refine rely_keeps (fun t => t.request id = some q) h ?_ hq
  rintro d held' s s' _ _ _ hmove hq
  obtain ⟨q', hq', _, _, hsame⟩ := hmove.request_some hq
  rw [hsame hended] at hq'
  exact hq'

theorem Rely.decisions (h : Rely setting c held s t) (hinv : Inv setting s)
    (hne : s.decisions id ≠ []) : t.decisions id = s.decisions id := by
  obtain ⟨q, hq, hnonempty⟩ := decisions_ne hne
  have hstatus := hinv.decided_of_decisions hq hnonempty
  rw [decisions_eq hq, decisions_eq (h.ended hq (by rw [hstatus]; decide))]

end Requests

section Authority

theorem Rely.requesterAuthority (h : Rely setting c held s t) {connectionId subject : String}
    {connection : Connection} (henvironment : .environment connection.environmentId ∈ held)
    (hsubject : .subject subject ∈ held) :
    getConnectionRequesterAuthority t connectionId connection subject =
      getConnectionRequesterAuthority s connectionId connection subject := by
  simp only [getConnectionRequesterAuthority, h.grants henvironment hsubject]

theorem Rely.member {workspaceId e u : String} (h : Rely setting c held s t)
    (hsubject : .subject u ∈ held) (hs : verifiedMember s workspaceId e u = true) :
    verifiedMember t workspaceId e u = true := by
  simp only [verifiedMember, Bool.and_eq_true] at hs ⊢
  refine ⟨by rw [h.subject hsubject]; exact hs.1, ?_⟩
  obtain ⟨w, hw⟩ := Option.isSome_iff_exists.mp hs.2
  have hkept : t.memberships (e, u) = some w :=
    rely_keeps (fun t => t.memberships (e, u) = some w) h
      (fun _ _ _ _ _ _ _ hmove hin => hmove.memberships _ _ hin) hw
  rw [hkept]
  rfl

/-- A reviewer stays one: assignments are guarded by the locks, memberships only added. -/
theorem Rely.reviewerAuthority (h : Rely setting c held s t) {connectionId subject : String}
    {connection : Connection} {assignment : Option String}
    (henvironment : .environment connection.environmentId ∈ held)
    (hsubject : .subject subject ∈ held)
    (hs : getConnectionReviewerAuthority s connectionId connection subject = some assignment) :
    getConnectionReviewerAuthority t connectionId connection subject = some assignment := by
  cases howner : connection.ownership with
  | personal => simpa only [getConnectionReviewerAuthority, howner] using hs
  | environment =>
    simp only [getConnectionReviewerAuthority, howner] at hs ⊢
    split at hs
    · rename_i hmember
      rw [if_pos (h.member hsubject hmember), h.reviewers henvironment hsubject]
      exact hs
    · cases hs

end Authority
section Claims
variable {executionClaimId : String} {n : ℕ}

/-- The client has claimed the intent; if its claim is the last one and the operation must not be
tried twice, nothing has been dispatched. -/
def ClaimedBy (setting : Setting) (c : Client) (id executionClaimId : String) (s : Store) : Prop :=
  ∃ r, s.intent id = some r ∧ (executionClaimId, c) ∈ r.claims ∧
    (Unrepeatable setting.registry r.row → r.claims.getLast? = some (executionClaimId, c) →
      r.dispatches = [])

/-- The attempt was dispatched by the client and the provider has not been called for it. -/
def DispatchedBy (c : Client) (id : String) (n : ℕ) (s : Store) : Prop :=
  ∃ r d, s.intent id = some r ∧ d ∈ r.dispatches ∧ d.client = c ∧ d.attempt = n ∧
    ∀ call ∈ r.calls, call.attempt ≠ n

/-- The claim an executing intent goes by is its last one. -/
theorem RecordInv.last_claim (h : RecordInv setting s r) (hstatus : r.row.status = .executing)
    (hclaim : r.row.executionClaimId = some executionClaimId)
    (hin : (executionClaimId, c) ∈ r.claims) :
    r.claims.getLast? = some (executionClaimId, c) := by
  obtain ⟨earlier, last, hclaims, hlast⟩ := h.claimed hstatus
  rw [hclaim, Option.some.injEq] at hlast
  have hlastIn : last ∈ r.claims := by simp [hclaims]
  have : last = (executionClaimId, c) :=
    List.inj_on_of_nodup_map h.ids hlastIn hin hlast.symm
  rw [hclaims, List.getLast?_concat, this]

theorem IntentStep.claimedBy {d : Client} (hne : d ≠ c) (hstrict : setting.strict = true)
    (hstep : IntentStep setting d held s id r r') (hinv : RecordInv setting s r)
    (hin : (executionClaimId, c) ∈ r.claims)
    (hnone : Unrepeatable setting.registry r.row →
      r.claims.getLast? = some (executionClaimId, c) → r.dispatches = []) :
    (executionClaimId, c) ∈ r'.claims ∧ (Unrepeatable setting.registry r'.row →
      r'.claims.getLast? = some (executionClaimId, c) → r'.dispatches = []) := by
  have hrow : Unrepeatable setting.registry r'.row → Unrepeatable setting.registry r.row := by
    have := congrArg Invocation.operationId hstep.invocation
    simp only [Unrepeatable, this]
    exact fun h => h
  cases hstep with
  | fact => exact ⟨hin, hnone⟩
  | ready => exact ⟨hin, hnone⟩
  | call => exact ⟨hin, hnone⟩
  | settle => exact ⟨hin, fun h => hnone (hrow h)⟩
  | withdraw => exact ⟨hin, fun h => hnone (hrow h)⟩
  | claim attempt now =>
    refine ⟨List.mem_append_left _ hin, fun _ hlast => ?_⟩
    simp only [IntentRecord.claim, List.getLast?_concat, Option.some.injEq, Prod.mk.injEq] at hlast
    exact absurd hlast.2 hne
  | dispatch input hheld hstatus hclaim hconsent hown =>
    refine ⟨hin, fun _ hlast => ?_⟩
    have hmine := hinv.last_claim hstatus hclaim (hown hstrict).1
    have hsame := hmine.symm.trans hlast
    simp only [Option.some.injEq, Prod.mk.injEq] at hsame
    exact absurd hsame.2 hne

theorem steps_claimedBy {d : Client} (hne : d ≠ c) (hstrict : setting.strict = true)
    (hleases : ∀ e record a, s.executions e = some record → record.row.leasedBy = some a →
      a ∈ record.attempts)
    (hsteps : Relation.ReflTransGen (IntentStep setting d held s id) r r')
    (hinv : RecordInv setting s r) (hin : (executionClaimId, c) ∈ r.claims)
    (hnone : Unrepeatable setting.registry r.row →
      r.claims.getLast? = some (executionClaimId, c) → r.dispatches = []) :
    (executionClaimId, c) ∈ r'.claims ∧ (Unrepeatable setting.registry r'.row →
      r'.claims.getLast? = some (executionClaimId, c) → r'.dispatches = []) := by
  induction hsteps with
  | refl => exact ⟨hin, hnone⟩
  | tail hsteps hstep ih =>
    exact hstep.claimedBy hne hstrict (hinv.steps hleases hsteps) ih.1 ih.2

theorem Rely.claimedBy (h : Rely setting c held s t) (hstrict : setting.strict = true)
    (hs : ClaimedBy setting c id executionClaimId s) :
    ClaimedBy setting c id executionClaimId t := by
  refine rely_keeps (ClaimedBy setting c id executionClaimId) h ?_ hs
  rintro d held' s s' hne _ hinv hmove ⟨r, hr, hin, hnone⟩
  obtain ⟨r', hr', hsteps⟩ := hmove.intent_some hr
  exact ⟨r', hr', steps_claimedBy hne hstrict hinv.leases hsteps (hinv.records id r hr) hin hnone⟩

theorem IntentStep.dispatchedBy {e : Client} (hne : e ≠ c)
    (hstep : IntentStep setting e held s id r r') (hinv : RecordInv setting s r) {d : Dispatch}
    (hd : d ∈ r.dispatches) (hclient : d.client = c)
    (hcalls : ∀ call ∈ r.calls, call.attempt ≠ d.attempt) :
    d ∈ r'.dispatches ∧ ∀ call ∈ r'.calls, call.attempt ≠ d.attempt := by
  cases hstep with
  | fact => exact ⟨hd, hcalls⟩
  | ready => exact ⟨hd, hcalls⟩
  | settle => exact ⟨hd, hcalls⟩
  | withdraw => exact ⟨hd, hcalls⟩
  | claim => exact ⟨hd, hcalls⟩
  | dispatch => exact ⟨List.mem_append_left _ hd, hcalls⟩
  | call call hdispatch =>
    refine ⟨hd, fun other hother => ?_⟩
    simp only [IntentRecord.withCall, List.mem_append, List.mem_singleton] at hother
    rcases hother with hother | rfl
    · exact hcalls other hother
    · -- the other client's call is for a dispatch of its own
      intro heq
      obtain ⟨d', hd', hclient', hattempt⟩ := hdispatch
      have hsame : d' = d := List.inj_on_of_nodup_map hinv.distinct hd' hd (hattempt.trans heq)
      rw [hsame, hclient] at hclient'
      exact hne hclient'.symm

theorem steps_dispatchedBy {e : Client} (hne : e ≠ c)
    (hleases : ∀ e record a, s.executions e = some record → record.row.leasedBy = some a →
      a ∈ record.attempts)
    (hsteps : Relation.ReflTransGen (IntentStep setting e held s id) r r')
    (hinv : RecordInv setting s r) {d : Dispatch} (hd : d ∈ r.dispatches) (hclient : d.client = c)
    (hcalls : ∀ call ∈ r.calls, call.attempt ≠ d.attempt) :
    d ∈ r'.dispatches ∧ ∀ call ∈ r'.calls, call.attempt ≠ d.attempt := by
  induction hsteps with
  | refl => exact ⟨hd, hcalls⟩
  | tail hsteps hstep ih =>
    exact hstep.dispatchedBy hne (hinv.steps hleases hsteps) ih.1 hclient ih.2

theorem Rely.dispatchedBy (h : Rely setting c held s t) (hs : DispatchedBy c id n s) :
    DispatchedBy c id n t := by
  refine rely_keeps (DispatchedBy c id n) h ?_ hs
  rintro e held' s s' hne _ hinv hmove ⟨r, d, hr, hd, hclient, rfl, hcalls⟩
  obtain ⟨r', hr', hsteps⟩ := hmove.intent_some hr
  obtain ⟨hd', hcalls'⟩ :=
    steps_dispatchedBy hne hinv.leases hsteps (hinv.records id r hr) hd hclient hcalls
  exact ⟨r', d, hr', hd', hclient, rfl, hcalls'⟩

end Claims
end Linea.Consent
