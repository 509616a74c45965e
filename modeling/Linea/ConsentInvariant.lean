import Linea.ConsentMoves

/-! The invariant of the consent store and its preservation by every move. -/
namespace Linea.Consent
variable {setting : Setting} {c : Client} {held : Set Lock} {s s' : Store} {id : String}
  {r r' : IntentRecord}

/-- What holds of an intent's record. A claim is made by the holder of the execution's lease, so a
claim that was taken over can never be the lease holder's again. -/
structure RecordInv (setting : Setting) (s : Store) (r : IntentRecord) : Prop where
  quiet : r.row.status = .awaitingConsent ∨ r.row.status = .ready → r.claims = [] ∧ r.dispatches = []
  claimed : r.row.status = .executing →
    ∃ earlier last, r.claims = earlier ++ [last] ∧ r.row.executionClaimId = some last.1
  ids : (r.claims.map Prod.fst).Nodup
  attempts : ∀ p ∈ r.claims, ∃ e, s.executions r.row.executionId = some e ∧ p.1 ∈ e.attempts
  older : ∀ p ∈ r.claims.dropLast, ¬ LeasedTo s r.row.executionId p.1
  decided : r.claims ≠ [] → s.decisions r.row.approvalRequestId ≠ []
  started : r.row.dispatchStartedAt = none ↔ r.dispatches = []
  count : r.row.providerAttemptCount = r.dispatches.length
  tags : ∀ d ∈ r.dispatches, d.attempt ≤ r.dispatches.length
  distinct : (r.dispatches.map Dispatch.attempt).Nodup
  once : setting.strict = true → Unrepeatable setting.registry r.row → r.dispatches.length ≤ 1
  callTags : (r.calls.map ProviderCall.attempt).Nodup
  callOf : ∀ call ∈ r.calls, ∃ d ∈ r.dispatches, d.attempt = call.attempt ∧ d.client = call.client
  carried : ∀ call ∈ r.calls, call.parameters = r.row.canonicalEnvelope.parameters ∧
    call.idempotencyKey = r.row.invocationIdempotencyKey ∧
    setting.hashing.digestActionIntent r.row.canonicalEnvelope = some r.row.canonicalDigest
  facts : (r.facts.filter fun fact => fact.factType.terminal).map AuditFact.factType =
    (terminalFact r.row.status).toList
  events : r.events = (terminalEvent r.row.status).toList
  canonical : setting.strict = true → Canonical setting r.row

/-- A request that is decided has one Decision, any other has none. -/
structure RequestInv (r : RequestRecord) : Prop where
  pending : r.row.status = .pending → r.decisions = [] ∧ r.row.cancelledAt = none
  decided : r.row.status = .decided → (∃ decision, r.decisions = [decision]) ∧
    r.row.cancelledAt = none
  cancelled : r.row.status = .cancelled → r.decisions = [] ∧ r.row.cancelledAt ≠ none

structure Inv (setting : Setting) (s : Store) : Prop where
  leases : ∀ e record attempt, s.executions e = some record →
    record.row.leasedBy = some attempt → attempt ∈ record.attempts
  records : ∀ i r, s.intent i = some r → RecordInv setting s r
  unique : ∀ i j r r', s.intent i = some r → s.intent j = some r' →
    r.row.executionId = r'.row.executionId → r.row.nodeId = r'.row.nodeId →
    r.row.invocationIdempotencyKey = r'.row.invocationIdempotencyKey → i = j
  requests : ∀ i r, s.request i = some r → RequestInv r
  decisionKeys : ∀ key record, s.decisionKeys key = some record → record.resourceId.isSome ∧
    ∃ request outcome comment q, s.request request = some q ∧ q.row.status = .decided ∧
      record.requestHash = setting.hashing.hashPublicRequest request outcome comment
  answers : ∀ answer ∈ s.answers, answer.Faithful
  made : ∀ answer ∈ s.answers, ∀ decision, answer.result = .decided decision →
    s.decisions answer.input.approvalRequestId = [decision] ∧ (s.decisionKeys answer.key).isSome
  order : s.answers.Pairwise Answer.Ordered
  decided : ∀ i q d, s.request i = some q → d ∈ q.decisions → DecisionSound s i q d
  read : ∀ reading ∈ s.readings, ∃ q, s.request reading.approvalRequestId = some q ∧
    (q.row.expired reading.checkedAt = false →
      ∃ d ∈ q.decisions, d.reason = .human ∧ d.decidedAt = reading.decidedAt)

section Records

@[simp] theorem withFact_row (fact : AuditFact) : (r.withFact fact).row = r.row := rfl
@[simp] theorem withFact_claims (fact : AuditFact) : (r.withFact fact).claims = r.claims := rfl
@[simp] theorem withFact_dispatches (fact : AuditFact) :
    (r.withFact fact).dispatches = r.dispatches := rfl
@[simp] theorem withFact_calls (fact : AuditFact) : (r.withFact fact).calls = r.calls := rfl
@[simp] theorem withFact_events (fact : AuditFact) : (r.withFact fact).events = r.events := rfl
@[simp] theorem withFact_facts (fact : AuditFact) : (r.withFact fact).facts = r.facts ++ [fact] := rfl

/-- Steps do not touch the columns that identify the invocation. -/
theorem IntentStep.invocation (h : IntentStep setting c held s id r r') :
    r'.row.toInvocation = r.row.toInvocation := by
  cases h with
  | fact => rfl
  | ready => rfl
  | claim => rfl
  | dispatch => rfl
  | call => rfl
  | settle row event fact hheld hstatus hinvocation => exact hinvocation
  | withdraw row fact hheld hstatus hinvocation => exact hinvocation

theorem LeasedTo.unique {e x y : String} (hx : LeasedTo s e x) (hy : LeasedTo s e y) : x = y := by
  obtain ⟨execution, he, hx⟩ := hx
  obtain ⟨execution', he', hy⟩ := hy
  rw [he, Option.some.injEq] at he'
  subst he'
  rw [hx, Option.some.injEq] at hy
  exact hy

/-- The holder of the lease has made none of the claims, unless it made the current one. -/
theorem RecordInv.new_claim (h : RecordInv setting s r) {attempt : String}
    (hlease : LeasedTo s r.row.executionId attempt)
    (hstatus : r.row.status = .ready ∨
      r.row.status = .executing ∧ r.row.executionClaimId ≠ some attempt) :
    ∀ p ∈ r.claims, p.1 ≠ attempt := by
  rcases hstatus with hready | ⟨hexecuting, hother⟩
  · rw [(h.quiet (.inr hready)).1]
    simp
  · obtain ⟨earlier, last, hclaims, hlast⟩ := h.claimed hexecuting
    intro p hp heq
    rw [hclaims, List.mem_append, List.mem_singleton] at hp
    rcases hp with hp | rfl
    · refine h.older p ?_ (heq ▸ hlease)
      rw [hclaims, List.dropLast_concat]
      exact hp
    · rw [hlast, heq] at hother
      exact hother rfl

theorem filter_append_terminal {facts : List AuditFact} {fact : AuditFact}
    (h : fact.factType.terminal = false) :
    ((facts ++ [fact]).filter fun f => f.factType.terminal) =
      facts.filter fun f => f.factType.terminal := by
  simp [List.filter_append, h]

theorem terminalFact_terminal {status : ActionIntentStatus} {factType : FactType}
    (h : terminalFact status = some factType) : factType.terminal = true := by
  cases status <;> cases h <;> rfl

theorem RecordInv.withFact (h : RecordInv setting s r) {fact : AuditFact}
    (hfact : fact.factType.terminal = false) : RecordInv setting s (r.withFact fact) :=
  { h with facts := by rw [withFact_facts, filter_append_terminal hfact]; exact h.facts }

theorem RecordInv.claim (h : RecordInv setting s r) {attempt : String} {now : ℕ}
    (hleases : ∀ e record a, s.executions e = some record → record.row.leasedBy = some a →
      a ∈ record.attempts)
    (hstatus : r.row.status = .ready ∨
      r.row.status = .executing ∧ r.row.executionClaimId ≠ some attempt)
    (hlease : LeasedTo s r.row.executionId attempt)
    (hdecided : s.decisions r.row.approvalRequestId ≠ []) :
    RecordInv setting s (r.claim c attempt now) := by
  have hnew := h.new_claim hlease hstatus
  have hopen : terminalFact r.row.status = none ∧ terminalEvent r.row.status = none := by
    rcases hstatus with hs | ⟨hs, _⟩ <;> rw [hs] <;> exact ⟨rfl, rfl⟩
  refine { h with quiet := ?_, claimed := ?_, ids := ?_, attempts := ?_, older := ?_,
                  decided := ?_, facts := ?_, events := ?_ }
  · rintro (hs | hs) <;> cases hs
  · intro _
    exact ⟨r.claims, (attempt, c), rfl, rfl⟩
  · have hmem : attempt ∉ r.claims.map Prod.fst := by
      intro hin
      obtain ⟨p, hp, hpa⟩ := List.mem_map.mp hin
      exact hnew p hp hpa
    simp only [IntentRecord.claim, List.map_append, List.map_cons, List.map_nil]
    rw [List.nodup_append']
    exact ⟨h.ids, by simp, by simpa using hmem⟩
  · intro p hp
    simp only [IntentRecord.claim, List.mem_append, List.mem_singleton] at hp
    rcases hp with hp | rfl
    · exact h.attempts p hp
    · obtain ⟨execution, he, hby⟩ := hlease
      obtain ⟨record, hrecord, rfl⟩ := Option.map_eq_some_iff.mp he
      exact ⟨record, hrecord, hleases _ record attempt hrecord hby⟩
  · intro p hp hleased
    simp only [IntentRecord.claim, List.dropLast_concat] at hp
    exact hnew p hp (LeasedTo.unique hleased hlease)
  · intro _
    exact hdecided
  · have := h.facts
    rw [hopen.1] at this
    exact this
  · have := h.events
    rw [hopen.2] at this
    exact this

theorem RecordInv.dispatch (h : RecordInv setting s r) {input : ClaimInput}
    (hstatus : r.row.status = .executing)
    (honce : setting.strict = true → Unrepeatable setting.registry r.row → r.dispatches = []) :
    RecordInv setting s (r.dispatch c input) := by
  refine { h with quiet := ?_, started := ?_, count := ?_, tags := ?_, distinct := ?_,
                  once := ?_, callOf := ?_ }
  · intro hs
    rw [show (r.dispatch c input).row.status = r.row.status from rfl, hstatus] at hs
    rcases hs with hs | hs <;> cases hs
  · simp [IntentRecord.dispatch]
  · simp [IntentRecord.dispatch, h.count]
  · intro d hd
    simp only [IntentRecord.dispatch, List.mem_append, List.mem_singleton, List.length_append,
      List.length_singleton] at hd ⊢
    rcases hd with hd | rfl
    · have := h.tags d hd
      omega
    · have := h.count
      simp only
      omega
  · -- the new tag is larger than every earlier one
    simp only [IntentRecord.dispatch, List.map_append, List.map_cons, List.map_nil]
    rw [List.nodup_append']
    refine ⟨h.distinct, by simp, ?_⟩
    simp only [List.disjoint_singleton, List.mem_map, not_exists, not_and]
    intro d hd heq
    have := h.tags d hd
    have := h.count
    omega
  · intro hstrict hunrepeatable
    simp [IntentRecord.dispatch, honce hstrict hunrepeatable]
  · intro call hcall
    obtain ⟨d, hd, heq⟩ := h.callOf call hcall
    exact ⟨d, List.mem_append_left _ hd, heq⟩

theorem RecordInv.call (h : RecordInv setting s r) {call : ProviderCall}
    (hdispatch : ∃ d ∈ r.dispatches, d.client = c ∧ d.attempt = call.attempt)
    (hclient : call.client = c) (hnew : ∀ other ∈ r.calls, other.attempt ≠ call.attempt)
    (hcarried : call.parameters = r.row.canonicalEnvelope.parameters ∧
      call.idempotencyKey = r.row.invocationIdempotencyKey ∧
      setting.hashing.digestActionIntent r.row.canonicalEnvelope = some r.row.canonicalDigest) :
    RecordInv setting s (r.withCall call) := by
  refine { h with callTags := ?_, callOf := ?_, carried := ?_ }
  · simp only [IntentRecord.withCall, List.map_append, List.map_cons, List.map_nil]
    rw [List.nodup_append']
    refine ⟨h.callTags, by simp, ?_⟩
    simp only [List.disjoint_singleton, List.mem_map, not_exists, not_and]
    exact hnew
  · intro other hother
    simp only [IntentRecord.withCall, List.mem_append, List.mem_singleton] at hother
    rcases hother with hother | rfl
    · exact h.callOf other hother
    · obtain ⟨d, hd, hdc, hda⟩ := hdispatch
      exact ⟨d, hd, hda, hdc.trans hclient.symm⟩
  · intro other hother
    simp only [IntentRecord.withCall, List.mem_append, List.mem_singleton] at hother
    rcases hother with hother | rfl
    · exact h.carried other hother
    · exact hcarried

/-- The row of a record changes its status and what goes with the status. -/
theorem RecordInv.end (h : RecordInv setting s r) {row : ActionIntent} {events : List IntentEvent}
    {fact : AuditFact} (hopen : terminalFact r.row.status = none)
    (hinvocation : row.toInvocation = r.row.toInvocation)
    (hstarted : row.dispatchStartedAt = r.row.dispatchStartedAt)
    (hcount : row.providerAttemptCount = r.row.providerAttemptCount)
    (hfact : terminalFact row.status = some fact.factType)
    (hevents : events = (terminalEvent row.status).toList) :
    RecordInv setting s { r with row := row, events := events, facts := r.facts ++ [fact] } := by
  have hoperation : row.operationId = r.row.operationId := congrArg Invocation.operationId hinvocation
  have henvelope : row.canonicalEnvelope = r.row.canonicalEnvelope :=
    congrArg Invocation.canonicalEnvelope hinvocation
  have hdigest : row.canonicalDigest = r.row.canonicalDigest :=
    congrArg Invocation.canonicalDigest hinvocation
  have hkey : row.invocationIdempotencyKey = r.row.invocationIdempotencyKey :=
    congrArg Invocation.invocationIdempotencyKey hinvocation
  have hexecution : row.executionId = r.row.executionId := congrArg Invocation.executionId hinvocation
  have hrequest : row.approvalRequestId = r.row.approvalRequestId :=
    congrArg Invocation.approvalRequestId hinvocation
  constructor
  · rintro (hs | hs) <;> rw [hs] at hfact <;> cases hfact
  · intro hs
    rw [hs] at hfact
    cases hfact
  · exact h.ids
  · simpa only [hexecution] using h.attempts
  · simpa only [hexecution] using h.older
  · simpa only [hrequest] using h.decided
  · simpa only [hstarted] using h.started
  · simpa only [hcount] using h.count
  · exact h.tags
  · exact h.distinct
  · simpa only [Unrepeatable, hoperation] using h.once
  · exact h.callTags
  · exact h.callOf
  · simpa only [henvelope, hkey, hdigest] using h.carried
  · have hnone := h.facts
    rw [hopen, Option.toList_none, List.map_eq_nil_iff] at hnone
    rw [List.filter_append, hnone, hfact]
    simp [terminalFact_terminal hfact]
  · exact hevents
  · simpa only [Canonical, henvelope, hoperation, hdigest] using h.canonical

theorem IntentStep.recordInv (hstep : IntentStep setting c held s id r r')
    (hleases : ∀ e record a, s.executions e = some record → record.row.leasedBy = some a →
      a ∈ record.attempts)
    (h : RecordInv setting s r) : RecordInv setting s r' := by
  cases hstep with
  | fact fact hfact => exact h.withFact hfact
  | ready now hheld hstatus =>
    have hfacts := h.facts
    have hevents := h.events
    rw [hstatus] at hfacts hevents
    refine { h with quiet := ?_, claimed := ?_, facts := hfacts, events := hevents }
    · intro _
      exact h.quiet (.inl hstatus)
    · intro hs
      cases hs
  | claim attempt now hheld hstatus hlease hdecided =>
    exact h.claim hleases hstatus hlease hdecided
  | dispatch input hheld hstatus hclaim hconsent hstrict =>
    exact h.dispatch hstatus fun hs => (hstrict hs).2
  | call call hdispatch hclient hnew hparameters hkey hdigest =>
    exact h.call hdispatch hclient hnew ⟨hparameters, hkey, hdigest⟩
  | settle row event fact hheld hstatus hinvocation hstarted hcount hfact hevent =>
    have hevents := h.events
    rw [hstatus] at hevents
    have hnext : r.events ++ [event] = (terminalEvent row.status).toList := by
      rw [hevent, hevents]
      rfl
    exact h.end (by rw [hstatus]; rfl) hinvocation hstarted hcount hfact hnext
  | withdraw row fact hheld hstatus hinvocation hstarted hcount hfact hevent =>
    have hopen : terminalFact r.row.status = none ∧ terminalEvent r.row.status = none := by
      rcases hstatus with hs | hs <;> rw [hs] <;> exact ⟨rfl, rfl⟩
    have hevents := h.events
    rw [hopen.2] at hevents
    exact h.end hopen.1 hinvocation hstarted hcount hfact (by rw [hevent, hevents])

end Records

section Moves

theorem ExecutionMove.present {old new : Option ExecutionRecord} (h : ExecutionMove held id old new)
    {e : ExecutionRecord} (he : old = some e) : ∃ e', new = some e' ∧
      (∀ a ∈ e.attempts, a ∈ e'.attempts) ∧
      (∀ a ∈ e.attempts, e'.row.leasedBy = some a → e.row.leasedBy = some a) ∧
      (∀ a, e'.row.leasedBy = some a → e.row.leasedBy = some a ∨ a ∈ e'.attempts) := by
  subst he
  cases h with
  | keep => exact ⟨e, rfl, fun _ h => h, fun _ _ h => h, fun _ h => .inl h⟩
  | change row hheld hlease =>
    refine ⟨_, rfl, fun _ h => h, fun a _ ha => ?_, fun a ha => .inl ?_⟩
    · rcases hlease with hlease | hlease
      · rw [hlease] at ha
        cases ha
      · rw [← hlease]
        exact ha
    · rcases hlease with hlease | hlease
      · rw [hlease] at ha
        cases ha
      · rw [← hlease]
        exact ha
  | lease row attempt hheld hnew hlease =>
    refine ⟨_, rfl, fun a ha => List.mem_append_left _ ha, fun a hin ha => ?_, fun a ha => .inr ?_⟩
    · rw [hlease, Option.some.injEq] at ha
      subst ha
      exact absurd hin hnew
    · rw [hlease, Option.some.injEq] at ha
      subst ha
      simp

/-- A request keeps its columns and its Decisions; one that has ended stays as it is. -/
theorem RequestMove.present {old new : Option RequestRecord} (h : RequestMove held id old new)
    {q : RequestRecord} (hq : old = some q) : ∃ q', new = some q' ∧
      q'.row.toQuestion = q.row.toQuestion ∧ (∀ d ∈ q.decisions, d ∈ q'.decisions) ∧
      (q.row.status ≠ .pending → q' = q) := by
  subst hq
  cases h with
  | keep => exact ⟨q, rfl, rfl, fun _ h => h, fun _ => rfl⟩
  | decide decision hheld hstatus =>
    exact ⟨_, rfl, rfl, fun d hd => List.mem_append_left _ hd, fun hne => absurd hstatus hne⟩
  | cancel now hheld hstatus =>
    exact ⟨_, rfl, rfl, fun d hd => hd, fun hne => absurd hstatus hne⟩

theorem Move.request_some (h : Move setting c held s s') {q : RequestRecord}
    (hq : s.request id = some q) : ∃ q', s'.request id = some q' ∧
      q'.row.toQuestion = q.row.toQuestion ∧ (∀ d ∈ q.decisions, d ∈ q'.decisions) ∧
      (q.row.status ≠ .pending → q' = q) :=
  (h.requests id).present hq

theorem decisions_eq {q : RequestRecord} (hq : s.request id = some q) :
    s.decisions id = q.decisions := by
  simp [Store.decisions, hq]

theorem decisions_ne (h : s.decisions id ≠ []) : ∃ q, s.request id = some q ∧ q.decisions ≠ [] := by
  cases hq : s.request id with
  | none => simp [Store.decisions, hq] at h
  | some q => exact ⟨q, rfl, decisions_eq hq ▸ h⟩

theorem Move.decisions_ne (h : Move setting c held s s') (hd : s.decisions id ≠ []) :
    s'.decisions id ≠ [] := by
  obtain ⟨q, hq, hne⟩ := Consent.decisions_ne hd
  obtain ⟨q', hq', _, hsub, _⟩ := h.request_some hq
  obtain ⟨d, hin⟩ := List.exists_mem_of_ne_nil _ hne
  rw [decisions_eq hq']
  exact List.ne_nil_of_mem (hsub d hin)

theorem Move.execution_some (h : Move setting c held s s') {e : ExecutionRecord}
    (he : s.executions id = some e) : ∃ e', s'.executions id = some e' ∧
      (∀ a ∈ e.attempts, a ∈ e'.attempts) ∧
      (∀ a ∈ e.attempts, e'.row.leasedBy = some a → e.row.leasedBy = some a) ∧
      (∀ a, e'.row.leasedBy = some a → e.row.leasedBy = some a ∨ a ∈ e'.attempts) :=
  (h.executions id).present he

theorem Move.intent_some (h : Move setting c held s s') (hr : s.intent id = some r) :
    ∃ r', s'.intent id = some r' ∧
      Relation.ReflTransGen (IntentStep setting c held s id) r r' := by
  have hmove := h.intents id
  rw [hr] at hmove
  generalize hnew : s'.intent id = new at hmove
  cases hmove with
  | steps hsteps => exact ⟨_, rfl, hsteps⟩

theorem steps_invocation (h : Relation.ReflTransGen (IntentStep setting c held s id) r r') :
    r'.row.toInvocation = r.row.toInvocation := by
  induction h with
  | refl => rfl
  | tail _ hstep ih => exact hstep.invocation.trans ih

/-- A record's invariant speaks of its execution and its request, which only move forward. -/
theorem RecordInv.transfer (h : RecordInv setting s r) (hmove : Move setting c held s s') :
    RecordInv setting s' r := by
  refine { h with attempts := ?_, older := ?_, decided := ?_ }
  · intro p hp
    obtain ⟨e, he, hin⟩ := h.attempts p hp
    obtain ⟨e', he', hsub, _, _⟩ := hmove.execution_some he
    exact ⟨e', he', hsub _ hin⟩
  · rintro p hp ⟨execution, hexecution, hby⟩
    obtain ⟨e, he, hin⟩ := h.attempts p (List.dropLast_subset _ hp)
    obtain ⟨e', he', _, hback, _⟩ := hmove.execution_some he
    have hrow : e'.row = execution := by
      simpa [Store.execution, he'] using hexecution
    refine h.older p hp ⟨e.row, by simp [Store.execution, he], ?_⟩
    exact hback _ hin (hrow ▸ hby)
  · intro hne
    exact hmove.decisions_ne (h.decided hne)

theorem RecordInv.steps (hleases : ∀ e record a, s.executions e = some record →
      record.row.leasedBy = some a → a ∈ record.attempts)
    (hsteps : Relation.ReflTransGen (IntentStep setting c held s id) r r')
    (h : RecordInv setting s r) : RecordInv setting s r' := by
  induction hsteps with
  | refl => exact h
  | tail _ hstep ih => exact hstep.recordInv hleases ih

theorem recordInv_created {r : IntentRecord} (hstatus : r.row.status = .awaitingConsent)
    (hnew : r.row.dispatchStartedAt = none ∧ r.row.providerAttemptCount = 0 ∧ r.claims = [] ∧
      r.dispatches = [] ∧ r.calls = [] ∧ r.events = [])
    (hfacts : ∀ fact ∈ r.facts, fact.factType.terminal = false)
    (hcanonical : setting.strict = true → Canonical setting r.row) :
    RecordInv setting s r := by
  obtain ⟨hstarted, hcount, hclaims, hdispatches, hcalls, hevents⟩ := hnew
  have hnone : r.facts.filter (fun fact => fact.factType.terminal) = [] := by
    rw [List.filter_eq_nil_iff]
    intro fact hfact
    simp [hfacts fact hfact]
  constructor <;> simp_all [terminalFact, terminalEvent]

theorem RequestMove.requestInv {old new : Option RequestRecord} (h : RequestMove held id old new)
    (hold : ∀ q, old = some q → RequestInv q) {q : RequestRecord} (hq : new = some q) :
    RequestInv q := by
  cases h with
  | keep => exact hold q hq
  | create row hheld hstatus hcancelled =>
    cases hq
    constructor <;> simp_all
  | decide decision hheld hstatus =>
    cases hq
    have hpending := (hold _ rfl).pending hstatus
    constructor <;> simp_all [RequestRecord.markDecided, RequestRecord.withDecision]
  | cancel now hheld hstatus =>
    cases hq
    have hpending := (hold _ rfl).pending hstatus
    constructor <;> simp_all [RequestRecord.cancel]

theorem expired_congr {q q' : ApprovalRequest} (h : q'.toQuestion = q.toQuestion) (now : ℕ) :
    q'.expired now = q.expired now := by
  simp only [ApprovalRequest.expired, h]

theorem inv_leases (h : Inv setting s) (hmove : Move setting c held s s') :
    ∀ e record attempt, s'.executions e = some record → record.row.leasedBy = some attempt →
      attempt ∈ record.attempts := by
  intro e record attempt hrecord hby
  cases hold : s.executions e with
  | none =>
    have hexecution := hmove.executions e
    rw [hold, hrecord] at hexecution
    cases hexecution with
    | create _ _ hlease =>
      rw [hlease] at hby
      cases hby
  | some before =>
    obtain ⟨record', hrecord', hsub, _, hby'⟩ := hmove.execution_some hold
    rw [hrecord, Option.some.injEq] at hrecord'
    subst hrecord'
    rcases hby' attempt hby with hbefore | hin
    · exact hsub _ (h.leases e before attempt hold hbefore)
    · exact hin

theorem inv_records (h : Inv setting s) (hmove : Move setting c held s s') :
    ∀ i r, s'.intent i = some r → RecordInv setting s' r := by
  intro i r hr
  have hintent := hmove.intents i
  rw [hr] at hintent
  generalize hold : s.intent i = old at hintent
  cases hintent with
  | create _ hheld hslot hfree hstatus hnew hfacts hcanonical =>
    exact recordInv_created hstatus hnew hfacts hcanonical
  | steps hsteps => exact ((h.records i _ hold).steps h.leases hsteps).transfer hmove

/-- An intent that a commit adds has an invocation that no other intent has. -/
theorem Move.created_free (hmove : Move setting c held s s') {i j : String}
    (hnone : s.intent i = none) (hr : s'.intent i = some r) (hr' : s'.intent j = some r')
    (hexecution : r.row.executionId = r'.row.executionId) (hnode : r.row.nodeId = r'.row.nodeId)
    (hkey : r.row.invocationIdempotencyKey = r'.row.invocationIdempotencyKey) : i = j := by
  cases hj : s.intent j with
  | none => exact hmove.single i j r r' hnone hj hr hr'
  | some before =>
    obtain ⟨after, hafter, hsteps⟩ := hmove.intent_some hj
    rw [hr', Option.some.injEq] at hafter
    subst hafter
    have hsame := steps_invocation hsteps
    have hintent := hmove.intents i
    rw [hnone, hr] at hintent
    cases hintent with
    | create _ hheld hslot hfree =>
      refine absurd ⟨?_, ?_, ?_⟩ (hfree j before hj)
      · rw [hexecution]
        exact (congrArg Invocation.executionId hsame).symm
      · rw [hnode]
        exact (congrArg Invocation.nodeId hsame).symm
      · rw [hkey]
        exact (congrArg Invocation.invocationIdempotencyKey hsame).symm

theorem inv_unique (h : Inv setting s) (hmove : Move setting c held s s') :
    ∀ i j r r', s'.intent i = some r → s'.intent j = some r' →
      r.row.executionId = r'.row.executionId → r.row.nodeId = r'.row.nodeId →
      r.row.invocationIdempotencyKey = r'.row.invocationIdempotencyKey → i = j := by
  intro i j r r' hr hr' hexecution hnode hkey
  cases hi : s.intent i with
  | none => exact hmove.created_free hi hr hr' hexecution hnode hkey
  | some before =>
    cases hj : s.intent j with
    | none => exact (hmove.created_free hj hr' hr hexecution.symm hnode.symm hkey.symm).symm
    | some before' =>
      obtain ⟨after, hafter, hsteps⟩ := hmove.intent_some hi
      obtain ⟨after', hafter', hsteps'⟩ := hmove.intent_some hj
      rw [hr, Option.some.injEq] at hafter
      rw [hr', Option.some.injEq] at hafter'
      subst hafter hafter'
      have hsame := steps_invocation hsteps
      have hsame' := steps_invocation hsteps'
      refine h.unique i j before before' hi hj ?_ ?_ ?_
      · rw [← congrArg Invocation.executionId hsame, ← congrArg Invocation.executionId hsame']
        exact hexecution
      · rw [← congrArg Invocation.nodeId hsame, ← congrArg Invocation.nodeId hsame']
        exact hnode
      · rw [← congrArg Invocation.invocationIdempotencyKey hsame,
          ← congrArg Invocation.invocationIdempotencyKey hsame']
        exact hkey

theorem inv_decisionKeys (h : Inv setting s) (hmove : Move setting c held s s') :
    ∀ key record, s'.decisionKeys key = some record → record.resourceId.isSome ∧
      ∃ request outcome comment q, s'.request request = some q ∧ q.row.status = .decided ∧
        record.requestHash = setting.hashing.hashPublicRequest request outcome comment := by
  intro key record hrecord
  rcases hmove.decisionKeys key record hrecord with hold | hnew
  · obtain ⟨hsome, request, outcome, comment, q, hq, hstatus, hhash⟩ :=
      h.decisionKeys key record hold
    obtain ⟨q', hq', _, _, hended⟩ := hmove.request_some hq
    rw [hended (by rw [hstatus]; exact fun h => by cases h)] at hq'
    exact ⟨hsome, request, outcome, comment, q, hq', hstatus, hhash⟩
  · exact hnew

/-- The one Decision of a request stays its only one. -/
theorem Move.decisions_single (hmove : Move setting c held s s') (h : Inv setting s)
    {decision : ApprovalDecision} (hone : s.decisions id = [decision]) :
    s'.decisions id = [decision] := by
  obtain ⟨q, hq, hne⟩ := Consent.decisions_ne (hone ▸ List.cons_ne_nil decision [])
  have hended : q.row.status ≠ .pending := fun hpending =>
    hne ((h.requests id q hq).pending hpending).1
  obtain ⟨q', hq', _, _, hsame⟩ := hmove.request_some hq
  rw [decisions_eq hq', hsame hended, ← decisions_eq hq, hone]

theorem inv_answers (h : Inv setting s) (hmove : Move setting c held s s') :
    ∀ answer ∈ s'.answers, answer.Faithful := by
  intro answer hin
  rcases hmove.answers with hsame | ⟨new, hnew, hadded⟩
  · exact h.answers answer (hsame ▸ hin)
  · rw [hnew, List.mem_append, List.mem_singleton] at hin
    rcases hin with hin | rfl
    · exact h.answers answer hin
    · exact hadded.faithful

theorem inv_made (h : Inv setting s) (hmove : Move setting c held s s') :
    ∀ answer ∈ s'.answers, ∀ decision, answer.result = .decided decision →
      s'.decisions answer.input.approvalRequestId = [decision] ∧
        (s'.decisionKeys answer.key).isSome := by
  intro answer hin decision hdecided
  have hold : answer ∈ s.answers → s'.decisions answer.input.approvalRequestId = [decision] ∧
      (s'.decisionKeys answer.key).isSome := fun hin => by
    obtain ⟨hone, hkey⟩ := h.made answer hin decision hdecided
    exact ⟨hmove.decisions_single h hone, hmove.kept _ hkey⟩
  rcases hmove.answers with hsame | ⟨new, hnew, hadded⟩
  · exact hold (hsame ▸ hin)
  · rw [hnew, List.mem_append, List.mem_singleton] at hin
    rcases hin with hin | rfl
    · exact hold hin
    · rw [← hadded.decisions]
      exact ⟨(hadded.faithful.given decision (.inl hdecided)).1, (hadded.reserved decision hdecided).2⟩

/-- The record that a key has when it has decided keeps it from deciding again. -/
theorem Answer.Added.ordered {first new : Answer} (hadded : new.Added s s') (h : Inv setting s)
    (hmove : Move setting c held s s') (hfirst : first ∈ s.answers) : first.Ordered new := by
  intro decision hdecided hkey
  obtain ⟨hone, hrecord⟩ := h.made first hfirst decision hdecided
  obtain ⟨_, hfirstRetry⟩ := (h.answers first hfirst).given decision (.inl hdecided)
  have hdecisionKey : decision.idempotencyKey = some new.input.idempotencyKey := by
    simp only [isIdenticalRetry, decide_eq_true_eq] at hfirstRetry
    rw [hfirstRetry.1, show new.input.idempotencyKey = first.input.idempotencyKey from
      congrArg Prod.snd hkey]
  have honly : new.input.approvalRequestId = first.input.approvalRequestId →
      decision ∈ new.decisions := fun hrequest => by
    rw [hadded.decisions, hrequest, hmove.decisions_single h hone]
    exact List.mem_singleton_self decision
  have hnever : ∀ other, new.result ≠ .decided other := fun other hother => by
    have hfree := (hadded.reserved other hother).1
    rw [hkey] at hfree
    rw [hfree] at hrecord
    cases hrecord
  refine ⟨hnever, fun hrequest hretry => ?_, fun hrequest hretry => ?_, hadded.faithful.undecided⟩
  · exact (hadded.faithful.retry decision (honly hrequest) hretry).resolve_left (hnever decision)
  · exact hadded.faithful.other decision (honly hrequest) hdecisionKey hretry

theorem inv_order (h : Inv setting s) (hmove : Move setting c held s s') :
    s'.answers.Pairwise Answer.Ordered := by
  rcases hmove.answers with hsame | ⟨new, hnew, hadded⟩
  · rw [hsame]
    exact h.order
  · rw [hnew, List.pairwise_append]
    refine ⟨h.order, List.pairwise_singleton _ _, fun first hfirst later hlater => ?_⟩
    rw [List.mem_singleton] at hlater
    exact hlater ▸ hadded.ordered h hmove hfirst

/-- A request with a Decision was there before the commit. -/
theorem Move.request_before (hmove : Move setting c held s s') {q' : RequestRecord}
    {d : ApprovalDecision} (hq' : s'.request id = some q') (hd : d ∈ q'.decisions) :
    ∃ q, s.request id = some q ∧ q'.row.toQuestion = q.row.toQuestion := by
  cases hq : s.request id with
  | none =>
    have hrequest := hmove.requests id
    rw [hq, hq'] at hrequest
    cases hrequest with
    | create => cases hd
  | some q =>
    obtain ⟨q'', hq'', hsame, _, _⟩ := hmove.request_some hq
    rw [hq', Option.some.injEq] at hq''
    subst hq''
    exact ⟨q, rfl, hsame⟩

theorem DecisionSound.move {q q' : RequestRecord} {d : ApprovalDecision}
    (h : DecisionSound s id q d) (hmove : Move setting c held s s')
    (hsame : q'.row.toQuestion = q.row.toQuestion) : DecisionSound s' id q' d := by
  refine ⟨fun hreason => ?_, fun u session hactor => ?_, h.timeout⟩
  · rw [expired_congr hsame]
    rcases h.human hreason with hearly | ⟨reading, hin, hid, hat, hearly⟩
    · exact .inl hearly
    · refine .inr ⟨reading, hmove.readings reading hin, hid, hat, ?_⟩
      rw [expired_congr hsame]
      exact hearly
  · exact hmove.present u (h.actor u session hactor)

theorem inv_decided (h : Inv setting s) (hmove : Move setting c held s s') :
    ∀ i q d, s'.request i = some q → d ∈ q.decisions → DecisionSound s' i q d := by
  intro i q' d hq' hd
  obtain ⟨q, hq, hsame⟩ := hmove.request_before hq' hd
  by_cases hold : d ∈ q.decisions
  · exact (h.decided i q d hq hold).move hmove hsame
  · exact hmove.decided i q q' d hq hq' hd hold

theorem inv_read (h : Inv setting s) (hmove : Move setting c held s s') :
    ∀ reading ∈ s'.readings, ∃ q, s'.request reading.approvalRequestId = some q ∧
      (q.row.expired reading.checkedAt = false →
        ∃ d ∈ q.decisions, d.reason = .human ∧ d.decidedAt = reading.decidedAt) := by
  intro reading hreading
  rcases hmove.read reading hreading with hold | hnew
  · obtain ⟨q, hq, hdecided⟩ := h.read reading hold
    obtain ⟨q', hq', hsame, hsub, _⟩ := hmove.request_some hq
    refine ⟨q', hq', fun hearly => ?_⟩
    rw [expired_congr hsame] at hearly
    obtain ⟨d, hd, hreason, hat⟩ := hdecided hearly
    exact ⟨d, hsub d hd, hreason, hat⟩
  · exact hnew

theorem Inv.move (h : Inv setting s) (hmove : Move setting c held s s') : Inv setting s' where
  leases := inv_leases h hmove
  records := inv_records h hmove
  unique := inv_unique h hmove
  requests := fun i _ hq => (hmove.requests i).requestInv (h.requests i) hq
  decisionKeys := inv_decisionKeys h hmove
  answers := inv_answers h hmove
  made := inv_made h hmove
  order := inv_order h hmove
  decided := inv_decided h hmove
  read := inv_read h hmove

/-- The discipline of the consent store. The one message that no client may halt with is that of a
Decision that exists for a pending request. -/
def discipline (setting : Setting) : Discipline Store Lock Client where
  inv := Inv setting
  move := Move setting
  permits := fun message => message ≠ decisionExists
  inv_move := Inv.move

end Moves
end Linea.Consent
