import Linea.ConsentCancelling
import Linea.ConsentDispatch

/-! The transactions that decide a request: by a member of the workspace, by an external subject and
by time-out. All of them record the Decision in the same way, under the lock of the request. -/
namespace Linea.Consent
variable {setting : Setting} {c : Client} {held held' : Set Lock} {known known' : Store → Prop}
  {pending : Store → Store} {β : Type}
  {post : Set Lock → (Store → Store) → (Store → Prop) → β → Prop} {s t : Store}
  {requestId : String} {request : ApprovalRequest}

section Recording

abbrev Intents := OrderedMap String IntentRecord

abbrev Executions := String → Option ExecutionRecord

/-- What recording a Decision does beside the request: a fact about the intent, and an execution that
goes on. -/
structure Records (setting : Setting) (c : Client) (held : Set Lock) (known : Store → Prop)
    (onIntents : Intents → Intents) (onExecutions : Executions → Executions) : Prop where
  moves : ∀ s, known s → ∀ i, IntentMove setting c held s i (s.intent i) ((onIntents s.intents).get? i)
  absent : ∀ s : Store, ∀ i, s.intent i = none → (onIntents s.intents).get? i = none
  executions : ∀ s, known s → ∀ e, ExecutionMove held e (s.executions e) (onExecutions s.executions e)

def RecordDecisionInput.decision (input : RecordDecisionInput) (id : String) : ApprovalDecision :=
  { id := id
    outcome := input.outcome
    actor := input.actor
    reviewerAssignmentId := input.reviewerAssignmentId
    reason := input.reason
    comment := input.comment
    idempotencyKey := input.idempotencyKey
    decidedAt := input.decidedAt }

def Store.decided (id : String) (decision : ApprovalDecision) (s : Store) : Store :=
  (s.setRequest id (.withDecision decision)).setRequest id .markDecided

/-- The writes of `recordDecision`. -/
def Store.recorded (id : String) (decision : ApprovalDecision) (onIntents : Intents → Intents)
    (onExecutions : Executions → Executions) (s : Store) : Store :=
  { s.decided id decision with
    intents := onIntents s.intents, executions := onExecutions s.executions }

theorem recordActionIntentDecisionFact_bind {decision : ApprovalDecision} {next : Unit → Program β}
    (h : ∀ known' (onIntents : Intents → Intents), (∀ t, known' t → known t) →
      (∀ s i, IntentMove setting c held s i (s.intent i) ((onIntents s.intents).get? i)) →
      (∀ s : Store, ∀ i, s.intent i = none → (onIntents s.intents).get? i = none) →
      Wp setting c (next ()) held
        (fun s => { pending s with intents := onIntents (pending s).intents }) known' post) :
    Wp setting c (recordActionIntentDecisionFact requestId request decision >>= next) held pending
      known post := by
  have hnothing : ∀ known', (∀ t, known' t → known t) →
      Wp setting c (next ()) held pending known' post := fun known' hknown' =>
    h known' id hknown' (fun s i => IntentMove.refl _) fun s i hi => hi
  unfold recordActionIntentDecisionFact
  split
  · exact pure_bind_iff.mpr (hnothing known fun _ ht => ht)
  refine bind_assoc_iff.mpr (select_bind fun s₀ known₀ _ _ hknown₀ => ?_)
  split
  · exact pure_bind_iff.mpr (hnothing known₀ fun t ht => (hknown₀ t ht).1)
  rename_i id intent _
  refine recordActionIntentFact_bind fun known₁ hknown₁ => ?_
  refine h known₁ (fun intents => intents.mapValues fun k record =>
    if k = id then record.withFact _ else record)
    (fun t ht => (hknown₀ t (hknown₁ t ht)).1) (fun s i => ?_) fun s i hi => ?_
  · rw [OrderedMap.get?_mapValues, show s.intents.get? i = s.intent i from rfl]
    cases hr : s.intent i with
    | none => exact .absent
    | some r =>
      rw [Option.map_some]
      split
      · refine .steps (.single (.fact _ ?_))
        split <;> rfl
      · exact .steps .refl
  · rw [OrderedMap.get?_mapValues, show s.intents.get? i = none from hi]
    rfl

theorem resumeDecisionExecution_bind {executionId : String} {next : Unit → Program β}
    (hp : ∀ s, (pending s).executions = s.executions)
    (h : ∀ held' known' onExecutions, held ⊆ held' → (∀ t, known' t → known t) →
      (∀ s, known' s → ∀ e, ExecutionMove held' e (s.executions e)
        ((onExecutions : Executions → Executions) s.executions e)) →
      Wp setting c (next ()) held'
        (fun s => { pending s with executions := onExecutions (pending s).executions }) known' post) :
    Wp setting c (resumeDecisionExecution executionId >>= next) held pending known post := by
  refine bind_assoc_iff.mpr (lockRow_bind ?_ ?_)
  · intro s₀ known₀ _ _ _ hknown₀
    exact pure_bind_iff.mpr
      (h held known₀ id subset_rfl (fun t ht => (hknown₀ t ht).1) fun s _ e => .keep)
  · intro s₀ execution known₀ _ _ hexecution hknown₀
    obtain ⟨row, hrow, hrequeue⟩ := Option.bind_eq_some_iff.mp hexecution
    rw [Store.execution, hp] at hrow
    have hlease : execution.leasedBy = row.leasedBy := by rw [(Execution.requeue_some hrequeue).2]
    refine update_bind (h _ known₀ (fun executions k => if k = executionId then
      (executions k).map (.withRow fun _ => execution) else executions k) Set.subset_union_left
      (fun t ht => (hknown₀ t ht).1) fun s hs => ?_)
    have hlock : .execution executionId ∈ held ∪ {.execution executionId} :=
      Set.mem_union_right _ rfl
    exact setExecution_move hlock ((hknown₀ s hs).2.execution_row hlock hrow) (.inr hlease)

theorem recordDecision_bind {input : RecordDecisionInput} {next : ApprovalDecision → Program β}
    (hp : ∀ s, (pending s).executions = s.executions)
    (h : ∀ id held' known' onIntents onExecutions, held ⊆ held' → (∀ t, known' t → known t) →
      Records setting c held' known' onIntents onExecutions →
      Wp setting c (next (input.decision id)) held'
        (fun s => (pending s).recorded requestId (input.decision id) onIntents onExecutions) known'
        post) :
    Wp setting c (recordDecision requestId request input >>= next) held pending known post := by
  refine bind_assoc_iff.mpr (receiving_bind fun reply => ?_)
  refine bind_assoc_iff.mpr (select_bind fun s₀ known₀ _ _ hknown₀ => ?_)
  split
  · exact halt_bind (by decide)
  refine bind_assoc_iff.mpr (update_bind (bind_assoc_iff.mpr (lockRow_bind ?_ ?_)))
  · intro s₁ known₁ _ _ _ _
    exact halt_bind (by decide)
  intro s₁ row known₁ _ _ _ hknown₁
  refine bind_assoc_iff.mpr (update_bind (bind_assoc_iff.mpr ?_))
  refine recordActionIntentDecisionFact_bind fun known₂ onIntents hknown₂ hmoves habsent => ?_
  refine bind_assoc_iff.mpr (resumeDecisionExecution_bind hp
    fun held₃ known₃ onExecutions hsub₃ hknown₃ hexecutions => ?_)
  refine bind_assoc_iff.mpr (publishRequestEvent_bind fun held₄ known₄ hsub₄ hknown₄ => ?_)
  have hsub : held ∪ {.request requestId} ⊆ held₄ := hsub₃.trans hsub₄
  refine pure_bind_iff.mpr (h reply.id held₄ known₄ onIntents onExecutions
    (Set.subset_union_left.trans hsub) (fun t ht => ?_) ⟨fun s hs i => ?_, habsent, fun s hs e => ?_⟩)
  · exact (hknown₀ t (hknown₁ t (hknown₂ t (hknown₃ t (hknown₄ t ht)))).1).1
  · exact (hmoves s i).mono hsub
  · exact (hexecutions s (hknown₄ s hs) e).mono hsub₄

end Recording

section Moves
variable {decision : ApprovalDecision} {q : RequestRecord}

theorem get?_recorded (s : Store) (onIntents : Intents → Intents)
    (onExecutions : Executions → Executions) (r : String) :
    (s.recorded requestId decision onIntents onExecutions).requests.get? r =
      (s.request r).map fun q =>
        if r = requestId then (q.withDecision decision).markDecided else q := by
  simp only [Store.recorded, Store.decided, Store.setRequest, mapValues_mapValues,
    OrderedMap.get?_mapValues]
  change (s.request r).map _ = _
  congr 1
  funext q
  split <;> rfl

/-- The commit of a Decision on a request that was pending, with what goes into the other tables. -/
theorem recorded_move {onIntents : Intents → Intents} {onExecutions : Executions → Executions}
    (hrecords : Records setting c held known onIntents onExecutions) (hs : known s)
    (hlock : .request requestId ∈ held) (hq : s.request requestId = some q)
    (hpending : q.row.status = .pending) {readings : List Reading}
    {decisionKeys : String × String → Option IdempotencyRecord} {answers : List Answer}
    (hsound : DecisionSound { s with readings := readings } requestId q decision)
    (hkeys : ∀ key record, decisionKeys key = some record → s.decisionKeys key = some record ∨
      record.resourceId.isSome ∧ ∃ outcome comment,
        record.requestHash = setting.hashing.hashPublicRequest requestId outcome comment)
    (hslots : ∀ session key, .decisionSlot session key ∉ held →
      decisionKeys (session, key) = s.decisionKeys (session, key))
    (hkept : ∀ key, (s.decisionKeys key).isSome → (decisionKeys key).isSome)
    (hanswers : answers = s.answers ∨ ∃ answer, answers = s.answers ++ [answer] ∧
      answer.Added s { s.recorded requestId decision onIntents onExecutions with
        decisionKeys := decisionKeys })
    (hreadings : ∀ reading ∈ s.readings, reading ∈ readings)
    (hread : ∀ reading ∈ readings, reading ∈ s.readings ∨ reading.approvalRequestId = requestId ∧
      (q.row.expired reading.checkedAt = false →
        decision.reason = .human ∧ decision.decidedAt = reading.decidedAt)) :
    Move setting c held s
      { s.recorded requestId decision onIntents onExecutions with
        decisionKeys := decisionKeys, answers := answers, readings := readings } := by
  have hget : (s.recorded requestId decision onIntents onExecutions).requests.get? requestId =
      some (q.withDecision decision).markDecided := by
    rw [get?_recorded, hq, Option.map_some, if_pos rfl]
  have hadded : answers = s.answers ∨ ∃ answer, answers = s.answers ++ [answer] ∧
      answer.Added s { s with
        requests := (s.recorded requestId decision onIntents onExecutions).requests
        decisionKeys := decisionKeys } := hanswers.imp_right fun ⟨answer, hanswer, hadded⟩ =>
    ⟨answer, hanswer, hadded.faithful, hadded.decisions, hadded.reserved⟩
  refine Move.ofTables (hrecords.executions s hs) ?_ (hrecords.moves s hs) ?_ ?_ hslots hkept hadded
    ?_ hreadings ?_
  · intro r
    rw [get?_recorded]
    by_cases hr : r = requestId
    · subst hr
      rw [hq, Option.map_some, if_pos rfl]
      exact .decide decision hlock hpending
    · simp only [if_neg hr, Option.map_id']
      exact .keep
  · intro i j r r' hi _ hr _
    change (onIntents s.intents).get? i = some r at hr
    rw [hrecords.absent s i hi] at hr
    cases hr
  · intro key record hrecord
    rcases hkeys key record hrecord with hold | ⟨hsome, outcome, comment, hhash⟩
    · exact .inl hold
    · exact .inr ⟨hsome, requestId, outcome, comment, _, hget, rfl, hhash⟩
  · intro r q₀ q' d hq₀ hq' hd hnew
    rw [get?_recorded, hq₀, Option.map_some, Option.some.injEq] at hq'
    subst hq'
    by_cases hr : r = requestId
    · subst hr
      rw [hq, Option.some.injEq] at hq₀
      subst hq₀
      rw [if_pos rfl] at hd ⊢
      rcases List.mem_append.mp hd with hold | hone
      · exact absurd hold hnew
      · rw [List.mem_singleton] at hone
        subst hone
        exact ⟨hsound.human, hsound.actor, hsound.timeout⟩
    · rw [if_neg hr] at hd
      exact absurd hd hnew
  · intro reading hin
    rcases hread reading hin with hold | ⟨rfl, hdecided⟩
    · exact .inl hold
    · refine .inr ⟨_, hget, fun hearly => ?_⟩
      obtain ⟨hreason, hat⟩ := hdecided hearly
      exact ⟨decision, List.mem_append_right _ (List.mem_singleton_self _), hreason, hat⟩

end Moves

section Timeouts

/-- A Decision by time-out. -/
structure TimedOut (decision : ApprovalDecision) : Prop where
  reason : decision.reason = .timeout
  key : decision.idempotencyKey = none
  actor : decision.actor = .system

theorem TimedOut.sound {decision : ApprovalDecision} (h : TimedOut decision) {q : RequestRecord} :
    DecisionSound s requestId q decision := by
  refine ⟨fun hreason => ?_, fun u session hactor => ?_, fun _ => h.key⟩
  · rw [h.reason] at hreason
    cases hreason
  · rw [h.actor] at hactor
    cases hactor

theorem recordTimeoutDecision_bind {now : ℕ} {next : ApprovalDecision → Program β}
    (hp : ∀ s, (pending s).executions = s.executions)
    (h : ∀ decision held' known' onIntents onExecutions, TimedOut decision → held ⊆ held' →
      (∀ t, known' t → known t) → Records setting c held' known' onIntents onExecutions →
      Wp setting c (next decision) held'
        (fun s => (pending s).recorded requestId decision onIntents onExecutions) known' post) :
    Wp setting c (recordTimeoutDecision requestId request now >>= next) held pending known post := by
  unfold recordTimeoutDecision
  split
  · exact halt_bind (by decide)
  · exact recordDecision_bind hp fun id held' known' onIntents onExecutions hsub hknown hrecords =>
      h _ held' known' onIntents onExecutions ⟨rfl, rfl, rfl⟩ hsub hknown hrecords

/-- The locked request is the one that the commit finds. -/
theorem request_of_row (hrow : s.requestRow requestId = some request)
    (hlock : .request requestId ∈ held) (h : Rely setting c held s t) :
    ∃ q, t.request requestId = some q ∧ q.row = request := by
  obtain ⟨q, hq, hrow⟩ := Option.map_eq_some_iff.mp hrow
  exact ⟨q, (h.request hlock).trans hq, hrow⟩

theorem claimAndDecideTimedOutApprovalRequest_triple {pre : Store → Prop} :
    Triple setting c pre claimAndDecideTimedOutApprovalRequest fun _ _ => True := by
  refine Discipline.Triple.transaction (receiving_bind fun clock => receiving_bind fun due => ?_)
  refine lockRow_bind ?_ ?_
  · intro s₀ known₀ _ _ _ _ s _ _
    exact ⟨Move.refl, fun _ _ => trivial⟩
  intro s₀ row known₀ _ _ hfound hknown₀
  obtain ⟨hrow, hdue⟩ := Option.filter_eq_some_iff.mp hfound
  simp only [decide_eq_true_eq] at hdue
  refine recordTimeoutDecision_bind (fun _ => rfl)
    fun decision held₁ known₁ onIntents onExecutions htimeout hsub₁ hknown₁ hrecords => ?_
  intro s _ hs
  have hrely := (hknown₀ s (hknown₁ s hs)).2
  obtain ⟨q, hq, rfl⟩ := request_of_row hrow (Set.mem_union_right _ (Set.mem_singleton _)) hrely
  refine ⟨?_, fun _ _ => trivial⟩
  change Move setting c held₁ s { s.recorded due.due decision onIntents onExecutions with
    decisionKeys := s.decisionKeys, answers := s.answers, readings := s.readings }
  exact recorded_move hrecords hs (hsub₁ (Set.mem_union_right _ rfl)) hq hdue.1 htimeout.sound
    (fun _ _ h => .inl h) (fun _ _ _ => rfl) (fun _ h => h) (.inl rfl) (fun _ h => h)
    fun _ h => .inl h

end Timeouts

section Members

theorem decideWorkspaceApprovalRequest_triple {pre : Store → Prop} {workspaceId : String}
    {input : WorkspaceDecisionInput} :
    Triple setting c pre (decideWorkspaceApprovalRequest workspaceId requestId input)
      fun _ _ => True := by
  refine Discipline.Triple.transaction (receiving_bind fun member => lockRow_bind ?_ ?_)
  · intro s₀ known₀ _ _ _ _ s _ _
    exact ⟨Move.refl, fun _ _ => trivial⟩
  intro s₀ row known₀ _ _ hfound hknown₀
  obtain ⟨hrow, hguard⟩ := Option.filter_eq_some_iff.mp hfound
  simp only [decide_eq_true_eq] at hguard
  refine receiving_bind fun checked => receiving_bind fun decided => update_bind ?_
  have hkept : ∀ held' s, Rely setting c held' s₀ s → .request requestId ∈ held' →
      ∃ q, s.request requestId = some q ∧ q.row = row := fun held' s hrely hlock =>
    request_of_row hrow hlock hrely
  split
  · -- the request has expired by the first reading of the clock
    rename_i hexpired
    refine recordTimeoutDecision_bind (fun _ => rfl)
      fun decision held₁ known₁ onIntents onExecutions htimeout hsub₁ hknown₁ hrecords => ?_
    intro s _ hs
    obtain ⟨q, hq, rfl⟩ := hkept _ s (hknown₀ s (hknown₁ s hs)).2 (Set.mem_union_right _ rfl)
    refine ⟨recorded_move hrecords hs (hsub₁ (Set.mem_union_right _ rfl)) hq hguard.2.1
      htimeout.sound (fun _ _ h => .inl h) (fun _ _ _ => rfl) (fun _ h => h) (.inl rfl)
      (fun _ h => List.mem_append_left _ h) fun reading hin => ?_, fun _ _ => trivial⟩
    rcases List.mem_append.mp hin with hold | hnew
    · exact .inl hold
    · rw [List.mem_singleton] at hnew
      subst hnew
      refine .inr ⟨rfl, fun hearly => ?_⟩
      rw [hearly] at hexpired
      cases hexpired
  · rename_i hearly
    refine recordDecision_bind (fun _ => rfl)
      fun id held₁ known₁ onIntents onExecutions hsub₁ hknown₁ hrecords => ?_
    intro s _ hs
    obtain ⟨q, hq, rfl⟩ := hkept _ s (hknown₀ s (hknown₁ s hs)).2 (Set.mem_union_right _ rfl)
    refine ⟨recorded_move hrecords hs (hsub₁ (Set.mem_union_right _ rfl)) hq hguard.2.1 ?_
      (fun _ _ h => .inl h) (fun _ _ _ => rfl) (fun _ h => h) (.inl rfl)
      (fun _ h => List.mem_append_left _ h) fun reading hin => ?_, fun _ _ => trivial⟩
    · refine ⟨fun _ => .inr ⟨_, List.mem_append_right _ (List.mem_singleton_self _), rfl, rfl, ?_⟩,
        fun u session hactor => (by cases hactor), fun hreason => (by cases hreason)⟩
      exact Bool.eq_false_iff.mpr hearly
    · rcases List.mem_append.mp hin with hold | hnew
      · exact .inl hold
      · rw [List.mem_singleton] at hnew
        subst hnew
        exact .inr ⟨rfl, fun _ => ⟨rfl, rfl⟩⟩

end Members

section External
variable {input : ExternalDecisionInput}

theorem Rely.present {u : String} (h : Rely setting c held s t) (hs : (s.subjects u).isSome) :
    (t.subjects u).isSome :=
  rely_keeps (fun t => (t.subjects u).isSome) h
    (fun _ _ _ _ _ _ _ hmove hin => hmove.present u hin) hs

theorem getApprovalReviewerAuthority_bind {externalSubjectId : String}
    {next : Option (Option String) → Program β}
    (h : ∀ authority known', (∀ t, known' t → known t) →
      Wp setting c (next authority) held pending known' post) :
    Wp setting c (getApprovalReviewerAuthority requestId request externalSubjectId >>= next) held
      pending known post := by
  refine bind_assoc_iff.mpr (select_bind fun s₀ known₀ _ _ hknown₀ => ?_)
  split
  · exact select_bind fun s₁ known₁ _ _ hknown₁ =>
      h _ known₁ fun t ht => (hknown₀ t (hknown₁ t ht).1).1
  · exact pure_bind_iff.mpr (h _ known₀ fun t ht => (hknown₀ t ht).1)

theorem isExternalRequestOwner_bind {row : Option ApprovalRequest} {next : Bool → Program β}
    (h : ∀ owner known', (∀ t, known' t → known t) →
      Wp setting c (next owner) held pending known' post) :
    Wp setting c (isExternalRequestOwner row input >>= next) held pending known post := by
  have hsame : ∀ owner, Wp setting c (next owner) held pending known post := fun owner =>
    h owner known fun _ ht => ht
  unfold isExternalRequestOwner
  split
  · exact pure_bind_iff.mpr (hsame _)
  · split
    · exact pure_bind_iff.mpr (hsame _)
    · exact bind_assoc_iff.mpr (getApprovalReviewerAuthority_bind fun authority known' hknown' =>
        pure_bind_iff.mpr (h _ known' hknown'))

theorem reservePublicRequest_bind {session key hash : String} {next : Reservation → Program β}
    (hp : ∀ s, (pending s).decisionKeys = s.decisionKeys)
    (hreserved : ∀ held' known', held ⊆ held' → .decisionSlot session key ∈ held' →
      (∀ t, known' t → known t ∧ t.decisionKeys (session, key) = none) →
      Wp setting c (next .reserved) held'
        (fun s => (pending s).insertDecisionKey (session, key) ⟨hash, none⟩) known' post)
    (hconflict : ∀ known', (∀ t, known' t → known t) →
      Wp setting c (next .conflict) held pending known' post)
    (hreplay : ∀ s record known', Inv setting s → known s →
      (pending s).decisionKeys (session, key) = some record → record.requestHash = hash →
      Wp setting c (next .replay) held pending known' post) :
    Wp setting c (reservePublicRequest session key hash >>= next) held pending known post := by
  refine bind_assoc_iff.mpr (lockSlot_bind ?_ ?_)
  · intro s₀ known₀ _ _ hfree hknown₀
    rw [hp] at hfree
    have hlock : .decisionSlot session key ∈ held ∪ {.decisionSlot session key} :=
      Set.mem_union_right _ rfl
    refine bind_assoc_iff.mpr (update_bind (pure_bind_iff.mpr
      (hreserved _ known₀ Set.subset_union_left hlock fun t ht => ⟨(hknown₀ t ht).1, ?_⟩)))
    rw [(hknown₀ t ht).2.decisionKey hlock]
    exact hfree
  · intro s₀ record known₀ hinv hs hrecord hknown₀
    dsimp only
    split
    · exact pure_bind_iff.mpr (hconflict known₀ fun t ht => (hknown₀ t ht).1)
    rename_i hhash
    split
    · exact halt_bind (by decide)
    · exact pure_bind_iff.mpr
        (hreplay s₀ record known₀ hinv hs hrecord (Decidable.of_not_not hhash))

/-- A commit that only answers decides nothing. -/
theorem answered_move {result : ExternalDecisionResult}
    (h : Answer.Faithful ⟨input, result, s.decisions input.approvalRequestId⟩)
    (hundecided : ∀ decision, result ≠ .decided decision) :
    Move setting c held s (s.answered input result) := by
  refine Move.ofTables (fun _ => .keep) (fun _ => .keep) (fun _ => IntentMove.refl _) ?_
    (fun _ _ h => .inl h) (fun _ _ _ => rfl) (fun _ h => h)
    (.inr ⟨_, rfl, h, rfl, fun decision hdecided => absurd hdecided (hundecided decision)⟩) ?_
    (fun _ h => h) fun _ h => .inl h
  · intro i j r r' hi _ hr _
    rw [show s.intents.get? i = none from hi] at hr
    cases hr
  · intro r q q' d hq hq' hd hnew
    rw [show s.requests.get? r = some q from hq, Option.some.injEq] at hq'
    exact absurd (hq' ▸ hd) hnew

theorem faithful_of_refused {result : ExternalDecisionResult} {decisions : List ApprovalDecision}
    (h : result = .wrongSubject ∨ result = .sessionInvalid) :
    Answer.Faithful ⟨input, result, decisions⟩ where
  given d hd := by rcases h with rfl | rfl <;> rcases hd with hd | hd <;> cases hd
  retry _ _ _ := .inr (.inr h)
  other _ _ _ _ := .inr h
  undecided _ := .inr (.inr h)

theorem faithful_of_none {result : ExternalDecisionResult}
    (h : result = .decisionConflict ∨ result = .cancelled) : Answer.Faithful ⟨input, result, []⟩ where
  given d hd := by rcases h with rfl | rfl <;> rcases hd with hd | hd <;> cases hd
  retry _ hd := absurd hd List.not_mem_nil
  other _ hd := absurd hd List.not_mem_nil
  undecided _ := h.imp_right .inl

/-- An answer on a request that has a Decision. -/
theorem faithful_of_single {result : ExternalDecisionResult} {decision : ApprovalDecision}
    (hgiven : ∀ d, result = .decided d ∨ result = .replay d →
      decision = d ∧ isIdenticalRetry decision input = true)
    (hretry : isIdenticalRetry decision input = true →
      result = .decided decision ∨ result = .replay decision)
    (hother : decision.idempotencyKey = some input.idempotencyKey →
      isIdenticalRetry decision input = false → result = .decisionConflict) :
    Answer.Faithful ⟨input, result, [decision]⟩ where
  given d hd := by
    obtain ⟨rfl, hsame⟩ := hgiven d hd
    exact ⟨rfl, hsame⟩
  retry d hd hsame := by
    rw [List.mem_singleton] at hd
    subst hd
    exact (hretry hsame).imp_right .inl
  other d hd hkey hnot := by
    rw [List.mem_singleton] at hd
    subst hd
    exact .inl (hother hkey hnot)
  undecided h := by cases h

theorem not_retry_of_key {decision : ApprovalDecision}
    (h : decision.idempotencyKey ≠ some input.idempotencyKey) :
    isIdenticalRetry decision input ≠ true := by
  intro hretry
  simp only [isIdenticalRetry, decide_eq_true_eq] at hretry
  exact h hretry.1

/-- A Decision that was made under another key, or under none, is not given. -/
theorem faithful_of_key {result : ExternalDecisionResult} {decision : ApprovalDecision}
    (hkey : decision.idempotencyKey ≠ some input.idempotencyKey)
    (hresult : ∀ d, result ≠ .decided d ∧ result ≠ .replay d) :
    Answer.Faithful ⟨input, result, [decision]⟩ :=
  faithful_of_single (fun d hd => (hd.elim (hresult d).1 (hresult d).2).elim)
    (fun hretry => absurd hretry (not_retry_of_key hkey)) fun hsame => absurd hsame hkey

theorem Inv.decisions_of_pending (h : Inv setting s) {q : RequestRecord}
    (hq : s.request requestId = some q) (hpending : q.row.status = .pending) : q.decisions = [] :=
  ((h.requests requestId q hq).pending hpending).1

theorem decisions_recorded {decision : ApprovalDecision} {q : RequestRecord}
    {onIntents : Intents → Intents} {onExecutions : Executions → Executions} (hinv : Inv setting s)
    (hq : s.request requestId = some q) (hpending : q.row.status = .pending) :
    (s.recorded requestId decision onIntents onExecutions).decisions requestId = [decision] := by
  have hget : (s.recorded requestId decision onIntents onExecutions).request requestId =
      some (q.withDecision decision).markDecided := by
    rw [Store.request, get?_recorded, hq, Option.map_some, if_pos rfl]
  rw [decisions_eq hget]
  change q.decisions ++ [decision] = [decision]
  rw [hinv.decisions_of_pending hq hpending, List.nil_append]

abbrev AnswerPost (setting : Setting) (c : Client) (input : ExternalDecisionInput)
    (next : ExternalDecisionResult → Program β)
    (post : Set Lock → (Store → Store) → (Store → Prop) → β → Prop) : Prop :=
  ∀ result held' pending' known',
    (∀ s, Inv setting s → known' s →
      Move setting c held' s ((pending' s).answered input result)) →
    Wp setting c (next result) held' pending' known' post

variable {next : ExternalDecisionResult → Program β}

theorem resolveExistingExternalDecision_bind {decision : Option ApprovalDecision}
    (hdecision : ∀ d, decision = some d → (d.reason = .timeout → d.idempotencyKey = none) ∧
      ∀ s, known s → s.decisions input.approvalRequestId = [d])
    (h : AnswerPost setting c input next post) :
    Wp setting c (resolveExistingExternalDecision decision input >>= next) held id known post := by
  unfold resolveExistingExternalDecision
  split
  · exact halt_bind (by decide)
  rename_i d
  obtain ⟨htimeout, hsingle⟩ := hdecision d rfl
  have hanswer : ∀ result, Answer.Faithful ⟨input, result, [d]⟩ →
      (∀ decision, result ≠ .decided decision) →
      Wp setting c (next result) held id known post := fun result hfaithful hundecided =>
    h result held id known fun s _ hs =>
      answered_move ((hsingle s hs).symm ▸ hfaithful) hundecided
  split
  · rename_i hreason
    refine pure_bind_iff.mpr (hanswer _
      (faithful_of_key ?_ fun _ => ⟨fun h => (by cases h), fun h => (by cases h)⟩)
      fun _ h => (by cases h))
    rw [htimeout hreason]
    exact fun hnone => by cases hnone
  split
  · rename_i hkey
    exact pure_bind_iff.mpr
      (hanswer _ (faithful_of_key hkey fun _ => ⟨fun h => (by cases h), fun h => (by cases h)⟩)
        fun _ h => (by cases h))
  split
  · rename_i hretry
    refine pure_bind_iff.mpr (hanswer _ (faithful_of_single ?_ (fun _ => .inr rfl) ?_)
      fun _ h => (by cases h))
    · rintro _ (hd | hd) <;> cases hd
      exact ⟨rfl, hretry⟩
    · intro _ hnot
      rw [hretry] at hnot
      cases hnot
  · rename_i hretry
    refine pure_bind_iff.mpr (hanswer _ (faithful_of_single ?_ ?_ fun _ _ => rfl)
      fun _ h => (by cases h))
    · rintro _ (hd | hd) <;> cases hd
    · exact fun hsame => absurd hsame hretry

/-- What is known of a pending request under its lock. -/
def Pending (id : String) (row : ApprovalRequest) (s : Store) : Prop :=
  ∃ q, s.request id = some q ∧ q.row = row ∧ row.status = .pending

theorem recorded_insertDecisionKey {key : String × String} {record : IdempotencyRecord}
    {decision : ApprovalDecision} {onIntents : Intents → Intents}
    {onExecutions : Executions → Executions} :
    (s.insertDecisionKey key record).recorded requestId decision onIntents onExecutions =
      (s.recorded requestId decision onIntents onExecutions).insertDecisionKey key record := rfl

theorem insertDecisionKey_again {key : String × String} {record record' : IdempotencyRecord} :
    (s.insertDecisionKey key record).insertDecisionKey key record' =
      s.insertDecisionKey key record' := by
  simp only [Store.insertDecisionKey, Function.update_idem]

theorem decisions_insertDecisionKey {key : String × String} {record : IdempotencyRecord} :
    (s.insertDecisionKey key record).decisions requestId = s.decisions requestId := rfl

/-- The commit of a Decision that the caller made, with its idempotency record and its answer. -/
theorem decided_move {decision : ApprovalDecision} {q : RequestRecord}
    {onIntents : Intents → Intents} {onExecutions : Executions → Executions} {hash : String}
    (hinv : Inv setting s) (hrecords : Records setting c held known onIntents onExecutions)
    (hs : known s) (hlock : .request input.approvalRequestId ∈ held)
    (hq : s.request input.approvalRequestId = some q) (hpending : q.row.status = .pending)
    (hhash : hash =
      setting.hashing.hashPublicRequest input.approvalRequestId input.outcome input.comment)
    (hslot : .decisionSlot input.endUserSessionId input.idempotencyKey ∈ held)
    (hfree : s.decisionKeys (input.endUserSessionId, input.idempotencyKey) = none)
    (hmade : isIdenticalRetry decision input = true)
    (hsound : DecisionSound s input.approvalRequestId q decision) :
    Move setting c held s ((((s.insertDecisionKey (input.endUserSessionId, input.idempotencyKey)
      ⟨hash, none⟩).recorded input.approvalRequestId decision onIntents onExecutions).insertDecisionKey
        (input.endUserSessionId, input.idempotencyKey) ⟨hash, some decision.id⟩).answered input
          (.decided decision)) := by
  have hone : (s.recorded input.approvalRequestId decision onIntents onExecutions).decisions
      input.approvalRequestId = [decision] := decisions_recorded hinv hq hpending
  rw [recorded_insertDecisionKey, insertDecisionKey_again, Store.answered,
    decisions_insertDecisionKey, hone]
  dsimp only [Store.insertDecisionKey]
  refine recorded_move hrecords hs hlock hq hpending ⟨hsound.human, hsound.actor, hsound.timeout⟩
    (fun key record hrecord => ?_) (fun session key hout => ?_) (fun key hkey => ?_)
    (.inr ⟨_, rfl, ?_, hone.symm, fun _ _ => ⟨hfree, ?_⟩⟩) (fun _ h => h) fun _ h => .inl h
  · change Function.update s.decisionKeys _ _ key = some record at hrecord
    by_cases hkey : key = (input.endUserSessionId, input.idempotencyKey)
    · subst hkey
      rw [Function.update_self, Option.some.injEq] at hrecord
      subst hrecord
      exact .inr ⟨rfl, input.outcome, input.comment, hhash⟩
    · rw [Function.update_of_ne hkey] at hrecord
      exact .inl hrecord
  · change Function.update s.decisionKeys _ _ (session, key) = s.decisionKeys (session, key)
    refine Function.update_of_ne (fun heq => hout ?_) _ _
    obtain ⟨rfl, rfl⟩ := Prod.mk.inj heq
    exact hslot
  · change (Function.update s.decisionKeys _ _ key).isSome
    by_cases hsame : key = (input.endUserSessionId, input.idempotencyKey)
    · rw [hsame, Function.update_self]
      rfl
    · rw [Function.update_of_ne hsame]
      exact hkey
  · refine faithful_of_single ?_ (fun _ => .inl rfl) ?_
    · rintro _ (hd | hd) <;> cases hd
      exact ⟨rfl, hmade⟩
    · intro _ hnot
      rw [hmade] at hnot
      cases hnot
  · change (Function.update s.decisionKeys _ _ (input.endUserSessionId,
      input.idempotencyKey)).isSome
    rw [Function.update_self]
    rfl

/-- The commit of a time-out that an external subject ran into. -/
theorem expired_move {decision : ApprovalDecision} {q : RequestRecord}
    {onIntents : Intents → Intents} {onExecutions : Executions → Executions} (hinv : Inv setting s)
    (hrecords : Records setting c held known onIntents onExecutions) (hs : known s)
    (hlock : .request input.approvalRequestId ∈ held)
    (hq : s.request input.approvalRequestId = some q) (hpending : q.row.status = .pending)
    (htimeout : TimedOut decision) :
    Move setting c held s ((s.recorded input.approvalRequestId decision onIntents
      onExecutions).answered input (.expired decision)) := by
  have hone : (s.recorded input.approvalRequestId decision onIntents onExecutions).decisions
      input.approvalRequestId = [decision] := decisions_recorded hinv hq hpending
  rw [Store.answered, hone]
  refine recorded_move hrecords hs hlock hq hpending htimeout.sound (fun _ _ h => .inl h)
    (fun _ _ _ => rfl) (fun _ h => h)
    (.inr ⟨_, rfl, faithful_of_key ?_ fun _ => ⟨fun h => (by cases h), fun h => (by cases h)⟩, hone.symm,
      fun _ h => (by cases h)⟩) (fun _ h => h) fun _ h => .inl h
  rw [htimeout.key]
  exact fun hnone => by cases hnone

theorem liveSession_subject (h : liveSession input s = true) :
    (s.subjects input.externalSubjectId).isSome := by
  unfold liveSession at h
  split at h
  · rename_i hsubject
    rw [hsubject]
    rfl
  · cases h

theorem decidePendingExternalRequest_bind (hlock : .request input.approvalRequestId ∈ held)
    (hpending : ∀ s, known s → Pending input.approvalRequestId request s)
    (hsubject : ∀ s, known s → (s.subjects input.externalSubjectId).isSome)
    (hearly : request.expired input.now = false) (h : AnswerPost setting c input next post) :
    Wp setting c (decidePendingExternalRequest setting.hashing request input >>= next) held id known
      post := by
  refine bind_assoc_iff.mpr (reservePublicRequest_bind (fun _ => rfl) ?_ ?_ ?_)
  · intro held₁ known₁ hsub₁ hslot hknown₁
    refine bind_assoc_iff.mpr (getApprovalReviewerAuthority_bind fun authority known₂ hknown₂ => ?_)
    refine bind_assoc_iff.mpr (recordDecision_bind (fun _ => rfl)
      fun id held₃ known₃ onIntents onExecutions hsub₃ hknown₃ hrecords => ?_)
    refine bind_assoc_iff.mpr (update_bind (pure_bind_iff.mpr (h _ held₃ _ known₃ ?_)))
    intro s hinv hs
    obtain ⟨hs₀, hfree⟩ := hknown₁ s (hknown₂ s (hknown₃ s hs))
    obtain ⟨q, hq, rfl, hstatus⟩ := hpending s hs₀
    exact decided_move hinv hrecords hs (hsub₃ (hsub₁ hlock)) hq hstatus rfl (hsub₃ hslot) hfree
      (decide_eq_true ⟨rfl, rfl, rfl, rfl⟩)
      ⟨fun _ => .inl hearly, fun u session hactor => (by cases hactor; exact hsubject s hs₀),
        fun hreason => (by cases hreason)⟩
  · intro known₁ hknown₁
    refine pure_bind_iff.mpr (h _ held _ known₁ fun s hinv hs =>
      answered_move ?_ fun _ h => (by cases h))
    obtain ⟨q, hq, rfl, hstatus⟩ := hpending s (hknown₁ s hs)
    rw [decisions_eq hq, hinv.decisions_of_pending hq hstatus]
    exact faithful_of_none (.inl rfl)
  · intro s record known₁ hinv hs hrecord hhash
    exfalso
    obtain ⟨q, hq, rfl, hstatus⟩ := hpending s hs
    obtain ⟨_, other, outcome, comment, q', hq', hdecided, hsame⟩ :=
      hinv.decisionKeys _ record hrecord
    have hid := setting.hashing.hash_request (hhash.symm.trans hsame)
    subst hid
    rw [hq, Option.some.injEq] at hq'
    rw [← hq', hstatus] at hdecided
    cases hdecided

theorem answerExternalDecision_bind (h : AnswerPost setting c input next post) :
    Wp setting c (answerExternalDecision setting.hashing input >>= next) held id known post := by
  have hrefused : ∀ result held' known', result = .wrongSubject ∨ result = .sessionInvalid →
      Wp setting c (next result) held' id known' post := fun result held' known' hresult =>
    h result held' id known' fun s _ _ => answered_move (faithful_of_refused hresult) (by
      rcases hresult with rfl | rfl <;> exact fun _ h => (by cases h))
  refine bind_assoc_iff.mpr (select_bind fun s₀ known₀ _ _ _ => ?_)
  refine bind_assoc_iff.mpr (isExternalRequestOwner_bind fun owner known₁ _ => ?_)
  split
  · exact pure_bind_iff.mpr (hrefused _ _ _ (.inl rfl))
  refine bind_assoc_iff.mpr (select_bind fun s₂ known₂ _ _ hknown₂ => ?_)
  split
  · exact pure_bind_iff.mpr (hrefused _ _ _ (.inr rfl))
  rename_i hsession
  have hpresent : (s₂.subjects input.externalSubjectId).isSome :=
    liveSession_subject (Bool.not_eq_false _ ▸ hsession)
  refine bind_assoc_iff.mpr (lockRow_bind ?_ ?_)
  · intro s₃ known₃ _ _ _ _
    refine bind_assoc_iff.mpr (isExternalRequestOwner_bind fun owner known₄ _ => ?_)
    exact pure_bind_iff.mpr (hrefused _ _ _ (.inl rfl))
  intro s₃ request known₃ hinv₃ hs₃ hrow hknown₃
  refine bind_assoc_iff.mpr (isExternalRequestOwner_bind fun owner known₄ hknown₄ => ?_)
  dsimp only
  split
  · exact pure_bind_iff.mpr (hrefused _ _ _ (.inl rfl))
  have hlock : .request input.approvalRequestId ∈ held ∪ {.request input.approvalRequestId} :=
    Set.mem_union_right _ rfl
  have hkept : ∀ s, known₄ s → ∃ q, s.request input.approvalRequestId = some q ∧ q.row = request :=
    fun s hs => request_of_row hrow hlock (hknown₃ s (hknown₄ s hs)).2
  have hsubject : ∀ s, known₄ s → (s.subjects input.externalSubjectId).isSome := fun s hs =>
    (hknown₂ s (hknown₃ s (hknown₄ s hs)).1).2.present hpresent
  split
  · -- a cancelled request has no Decision
    rename_i hcancelled
    refine pure_bind_iff.mpr (h _ _ _ known₄ fun s hinv hs =>
      answered_move ?_ fun _ h => (by cases h))
    obtain ⟨q, hq, rfl⟩ := hkept s hs
    rw [decisions_eq hq, ((hinv.requests _ q hq).cancelled hcancelled).1]
    exact faithful_of_none (.inr rfl)
  · rename_i hdecided
    refine bind_assoc_iff.mpr (select_bind fun s₅ known₅ hinv₅ hs₅ hknown₅ => ?_)
    refine resolveExistingExternalDecision_bind (fun d hd => ⟨?_, fun s hs => ?_⟩) h
    · have hsingle := hinv₅.single_decision hd
      obtain ⟨q, hq, hrow₅⟩ := hkept s₅ hs₅
      rw [decisions_eq hq] at hsingle
      exact (hinv₅.decided _ q d hq (by rw [hsingle]; exact List.mem_singleton_self d)).timeout
    · exact (hknown₅ s hs).2.single_decision hinv₅ hd
  · rename_i hpending
    have hopen : ∀ s, known₄ s → Pending input.approvalRequestId request s := fun s hs =>
      (hkept s hs).imp fun q hq => ⟨hq.1, hq.2, hpending⟩
    split
    · refine bind_assoc_iff.mpr (recordTimeoutDecision_bind (fun _ => rfl)
        fun decision held₅ known₅ onIntents onExecutions htimeout hsub₅ hknown₅ hrecords => ?_)
      refine pure_bind_iff.mpr (h _ held₅ _ known₅ fun s hinv hs => ?_)
      obtain ⟨q, hq, rfl, hstatus⟩ := hopen s (hknown₅ s hs)
      exact expired_move hinv hrecords hs (hsub₅ hlock) hq hstatus htimeout
    · rename_i hearly
      exact decidePendingExternalRequest_bind hlock hopen hsubject (Bool.eq_false_iff.mpr hearly) h

theorem decideExternalApprovalRequest_triple {pre : Store → Prop} :
    Triple setting c pre (decideExternalApprovalRequest setting.hashing input) fun _ _ => True := by
  refine Discipline.Triple.transaction (answerExternalDecision_bind ?_)
  intro result held' pending' known' hmove
  refine update_bind ?_
  intro s hinv hs
  exact ⟨hmove s hinv hs, fun _ _ => trivial⟩

end External
end Linea.Consent
