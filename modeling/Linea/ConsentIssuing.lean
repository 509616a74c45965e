import Linea.ConsentCancelling

/-! The transactions that create requests and intents. A new row's place is locked until the commit,
so that it is still free then. -/
namespace Linea.Consent
variable {setting : Setting} {c : Client} {held held' : Set Lock} {known known' : Store → Prop}
  {pending : Store → Store} {β : Type}
  {post : Set Lock → (Store → Store) → (Store → Prop) → β → Prop} {s t : Store}

section Requests
variable {question : Question} {rid : String} {row : ApprovalRequest}

theorem requireRequestOwner_bind {next : Unit → Program β}
    (h : ∀ known', (∀ t, known' t → known t) → Wp setting c (next ()) held pending known' post) :
    Wp setting c (requireRequestOwner question >>= next) held pending known post := by
  unfold requireRequestOwner
  split
  · exact pure_bind_iff.mpr (h known fun _ ht => ht)
  · refine bind_assoc_iff.mpr (select_bind fun s₀ known₀ _ _ hknown₀ => ?_)
    split
    · exact pure_bind_iff.mpr (h known₀ fun t ht => (hknown₀ t ht).1)
    · exact halt_bind (by decide)
  · exact halt_bind (by decide)

/-- A request as it is inserted. -/
structure NewRequest (row : ApprovalRequest) : Prop where
  status : row.status = .pending
  cancelledAt : row.cancelledAt = none

theorem createApprovalRequest_bind {next : Option (String × ApprovalRequest) → Program β}
    (hnone : ∀ known', (∀ t, known' t → known t) → Wp setting c (next none) held id known' post)
    (hsome : ∀ rid row held' known', NewRequest row → held ⊆ held' → .request rid ∈ held' →
      (∀ t, known' t → known t ∧ t.request rid = none) →
      Wp setting c (next (some (rid, row))) held' (Store.insertRequest rid row) known' post) :
    Wp setting c (createApprovalRequest question >>= next) held id known post := by
  refine bind_assoc_iff.mpr (requireRequestOwner_bind fun known₁ hknown₁ => ?_)
  refine bind_assoc_iff.mpr (receiving_bind fun key => ?_)
  refine bind_assoc_iff.mpr (receiving_bind fun clock => ?_)
  dsimp only
  split
  · exact halt_bind (by decide)
  refine bind_assoc_iff.mpr (lockSlot_bind ?_ ?_)
  · intro s₂ known₂ _ _ _ hknown₂
    refine bind_assoc_iff.mpr (lockSlot_bind ?_ ?_)
    · intro s₃ known₃ _ _ hfree hknown₃
      refine bind_assoc_iff.mpr (update_bind (bind_assoc_iff.mpr
        (publishRequestEvent_bind fun held₄ known₄ hsub₄ hknown₄ => pure_bind_iff.mpr ?_)))
      have hlock : .request key.id ∈ held₄ := hsub₄ (Set.mem_union_right _ rfl)
      refine hsome key.id _ held₄ known₄ ⟨rfl, rfl⟩
        ((Set.subset_union_left.trans Set.subset_union_left).trans hsub₄) hlock fun t ht => ⟨?_, ?_⟩
      · exact hknown₁ t (hknown₂ t (hknown₃ t (hknown₄ t ht)).1).1
      · exact ((hknown₃ t (hknown₄ t ht)).2.request (Set.mem_union_right _ rfl)).trans hfree
    · intro s₃ used known₃ _ _ _ _
      exact halt_bind (by decide)
  · intro s₂ taken known₂ _ _ _ hknown₂
    exact pure_bind_iff.mpr (hnone known₂ fun t ht => hknown₁ t (hknown₂ t ht).1)

theorem insertRequest_requests (hfree : s.request rid = none) (hasked : NewRequest row)
    (hlock : .request rid ∈ held) (r : String) :
    RequestMove held r (s.request r) ((s.insertRequest rid row).requests.get? r) := by
  by_cases hr : r = rid
  · subst hr
    rw [hfree, show (s.insertRequest r row).requests.get? r = some ⟨row, []⟩ from
      OrderedMap.get?_set_self _ _ _]
    exact .create row hlock hasked.status hasked.cancelledAt
  · rw [show (s.insertRequest rid row).requests.get? r = s.request r from
      OrderedMap.get?_set_of_ne _ hr _]
    exact .keep

/-- The writes that may stand beside a new intent: at most a new request. -/
structure MayAsk (held : Set Lock) (known : Store → Prop) (pending : Store → Store) : Prop where
  requests : ∀ s, known s → ∀ r, RequestMove held r (s.request r) ((pending s).request r)
  decisions : ∀ s, known s → ∀ r q q', s.request r = some q → (pending s).request r = some q' →
    q' = q
  shape : ∀ s, pending s = { s with requests := (pending s).requests }

theorem asks_id : MayAsk held known id where
  requests := fun _ _ _ => .keep
  decisions := fun s _ r q q' hq hq' => by
    rw [id_eq, hq, Option.some.injEq] at hq'
    exact hq'.symm
  shape := fun _ => rfl

theorem asks_insertRequest (hasked : NewRequest row) (hlock : .request rid ∈ held)
    (hfree : ∀ s, known s → s.request rid = none) : MayAsk held known (Store.insertRequest rid row) where
  requests := fun s hs r => insertRequest_requests (hfree s hs) hasked hlock r
  decisions := fun s hs r q q' hq hq' => by
    by_cases hr : r = rid
    · subst hr
      rw [hfree s hs] at hq
      cases hq
    · rw [Store.request, show (s.insertRequest rid row).requests.get? r = s.request r from
        OrderedMap.get?_set_of_ne _ hr _, hq, Option.some.injEq] at hq'
      exact hq'.symm
  shape := fun _ => rfl

theorem MayAsk.mono (h : MayAsk held known pending) (hsub : held ⊆ held')
    (hknown : ∀ s, known' s → known s) : MayAsk held' known' pending where
  requests := fun s hs r => (h.requests s (hknown s hs) r).mono hsub
  decisions := fun s hs => h.decisions s (hknown s hs)
  shape := h.shape

/-- A commit of a new request, or of none, with moves of intents. -/
theorem MayAsk.move (h : MayAsk held known pending) (hs : known s) {intents : OrderedMap String IntentRecord}
    (hintents : ∀ i, IntentMove setting c held s i (s.intent i) (intents.get? i))
    (hsingle : ∀ i j r r', s.intent i = none → s.intent j = none → intents.get? i = some r →
      intents.get? j = some r' → i = j) :
    Move setting c held s { pending s with intents := intents } := by
  rw [h.shape s]
  refine Move.ofTables (fun _ => .keep) (h.requests s hs) hintents hsingle (fun _ _ h => .inl h)
    (fun _ _ _ => rfl) (fun _ h => h) (.inl rfl) ?_ (fun _ h => h) fun _ h => .inl h
  intro r q q' d hq hq' hd hnew
  rw [h.decisions s hs r q q' hq hq'] at hd
  exact absurd hd hnew

theorem MayAsk.move_only (h : MayAsk held known pending) (hs : known s) :
    Move setting c held s (pending s) := by
  have hmove : Move setting c held s { pending s with intents := s.intents } :=
    h.move hs (fun i => IntentMove.refl _) fun i j r r' hi _ hr _ => by
      rw [show s.intents.get? i = none from hi] at hr
      cases hr
  rw [h.shape s] at hmove ⊢
  exact hmove

end Requests

section Intents
variable {input : CreateActionIntentInput} {id : String} {row : ActionIntent}

/-- The row of a new intent, as the transaction inserts it. -/
structure Invoked (setting : Setting) (input : CreateActionIntentInput) (row : ActionIntent) : Prop
    where
  executionId : row.executionId = input.executionId
  nodeId : row.nodeId = input.nodeId
  key : row.invocationIdempotencyKey = input.invocationIdempotencyKey
  status : row.status = .awaitingConsent
  started : row.dispatchStartedAt = none
  count : row.providerAttemptCount = 0
  digest : row.canonicalDigest = input.canonicalDigest
  canonical : setting.strict = true → Canonical setting row

theorem uninvoked_of_find {e n k : String} (h : s.findIntent e n k = none) : Uninvoked e n k s := by
  rw [Store.findIntent, Option.map_eq_none_iff, List.find?_eq_none] at h
  intro other record hrecord hsame
  exact h (other, record) (OrderedMap.get?_iff_mem.mp hrecord) (decide_eq_true hsame)

theorem insertActionIntent_bind {next : Option String → Program β}
    (hp : ∀ s, (pending s).intents = s.intents)
    (hnone : ∀ held' known', held ⊆ held' → (∀ t, known' t → known t) →
      Wp setting c (next none) held' pending known' post)
    (hsome : ∀ id held' known', held ⊆ held' → .intent id ∈ held' →
      .intentSlot input.executionId input.nodeId input.invocationIdempotencyKey ∈ held' →
      (∀ t, known' t → known t ∧ t.intent id = none ∧
        Uninvoked input.executionId input.nodeId input.invocationIdempotencyKey t) →
      Wp setting c (next (some id)) held' (fun s => (pending s).insertIntent id row) known' post) :
    Wp setting c (insertActionIntent input row >>= next) held pending known post := by
  refine bind_assoc_iff.mpr (receiving_bind fun key => ?_)
  split
  · exact halt_bind (by decide)
  refine bind_assoc_iff.mpr (lockSlot_bind ?_ ?_)
  · intro s₁ known₁ _ _ hfree hknown₁
    refine bind_assoc_iff.mpr (lockSlot_bind ?_ ?_)
    · intro s₂ known₂ _ _ _ hknown₂
      refine bind_assoc_iff.mpr (lockSlot_bind ?_ ?_)
      · intro s₃ known₃ _ _ hunused hknown₃
        refine bind_assoc_iff.mpr (update_bind (pure_bind_iff.mpr ?_))
        refine hsome key.id _ known₃
          ((Set.subset_union_left.trans Set.subset_union_left).trans Set.subset_union_left)
          (Set.mem_union_right _ rfl)
          (Set.mem_union_left _ (Set.mem_union_left _ (Set.mem_union_right _ rfl))) fun t ht => ?_
        have ht₂ := (hknown₃ t ht).1
        have ht₁ := (hknown₂ t ht₂).1
        rw [Store.intent, hp] at hunused
        have hnone : Uninvoked input.executionId input.nodeId input.invocationIdempotencyKey s₁ := by
          refine uninvoked_of_find ?_
          rw [findInvokedActionIntent, Store.findIntent, hp] at hfree
          exact hfree
        exact ⟨(hknown₁ t ht₁).1, (hknown₃ t ht).2.intent_absent (Set.mem_union_right _ rfl) hunused,
          (hknown₁ t ht₁).2.uninvoked (Set.mem_union_right _ rfl) hnone⟩
      · intro s₃ used known₃ _ _ _ _
        exact halt_bind (by decide)
    · intro s₂ paired known₂ _ _ _ _
      exact halt_bind (by decide)
  · intro s₁ taken known₁ _ _ _ hknown₁
    exact pure_bind_iff.mpr (hnone held known₁ subset_rfl fun t ht => (hknown₁ t ht).1)

theorem intent_inserted {fact : AuditFact} (hintents : (pending s).intents = s.intents) (i : String) :
    (((pending s).insertIntent id row).setIntent id (.withFact fact)).intent i =
      if i = id then some ⟨row, [fact], [], [], [], []⟩ else s.intent i := by
  rw [intent_setIntent]
  by_cases hi : i = id
  · subst hi
    rw [if_pos rfl, show ((pending s).insertIntent i row).intent i =
      some ⟨row, [], [], [], [], []⟩ from OrderedMap.get?_set_self _ _ _]
    simp [IntentRecord.withFact]
  · rw [if_neg hi, show ((pending s).insertIntent id row).intent i = (pending s).intent i from
      OrderedMap.get?_set_of_ne _ hi _, Store.intent, hintents]
    simp only [if_neg hi, Option.map_id']
    rfl

/-- The commit of a new intent with its first fact, and perhaps a new request. -/
theorem created_move {fact : AuditFact} (hasks : MayAsk held known pending) (hs : known s)
    (hinvoked : Invoked setting input row) (hlock : .intent id ∈ held)
    (hslot : .intentSlot input.executionId input.nodeId input.invocationIdempotencyKey ∈ held)
    (hnone : s.intent id = none)
    (hfree : Uninvoked input.executionId input.nodeId input.invocationIdempotencyKey s)
    (hfact : fact.factType.terminal = false) :
    Move setting c held s (((pending s).insertIntent id row).setIntent id (.withFact fact)) := by
  have hget := @intent_inserted pending s id row fact (by rw [hasks.shape s])
  refine hasks.move hs (fun i => ?_) fun i j r r' hi hj hr hr' => ?_
  · change IntentMove setting c held s i (s.intent i)
      ((((pending s).insertIntent id row).setIntent id (.withFact fact)).intent i)
    rw [hget]
    split
    · rename_i hi
      subst hi
      rw [hnone]
      refine .create _ hlock ?_ ?_ hinvoked.status
        ⟨hinvoked.started, hinvoked.count, rfl, rfl, rfl, rfl⟩ ?_ hinvoked.canonical
      · rw [hinvoked.executionId, hinvoked.nodeId, hinvoked.key]
        exact hslot
      · rw [hinvoked.executionId, hinvoked.nodeId, hinvoked.key]
        exact hfree
      · intro other hother
        rw [List.mem_singleton] at hother
        exact hother ▸ hfact
    · exact IntentMove.refl _
  · change (((pending s).insertIntent id row).setIntent id (.withFact fact)).intent i = some r at hr
    change (((pending s).insertIntent id row).setIntent id (.withFact fact)).intent j = some r' at hr'
    rw [hget] at hr hr'
    split at hr
    · split at hr'
      · rename_i hi hj
        exact hi.trans hj.symm
      · rw [hj] at hr'
        cases hr'
    · rw [hi] at hr
      cases hr

end Intents

section Creating
variable {input : CreateActionIntentInput}

abbrev CommitsAny (setting : Setting) (c : Client) : Set Lock → (Store → Store) → (Store → Prop) →
    β → Prop :=
  Commits setting c fun _ _ => True

theorem pure_commits {b : β} (h : ∀ s, known s → Move setting c held s (pending s)) :
    Wp setting c (pure b) held pending known (CommitsAny setting c) :=
  fun s _ hs => ⟨h s hs, fun _ _ => trivial⟩

/-- The invocation has an intent, with the digest of the input. -/
def Recorded (input : CreateActionIntentInput) (s : Store) : Prop :=
  ∃ i r, s.intent i = some r ∧ r.row.executionId = input.executionId ∧
    r.row.nodeId = input.nodeId ∧ r.row.invocationIdempotencyKey = input.invocationIdempotencyKey ∧
    r.row.canonicalDigest = input.canonicalDigest

theorem recorded_permanent : (discipline setting).Permanent (Recorded input) := by
  rintro d held' s s' _ ⟨i, r, hr, hexecution, hnode, hkey, hdigest⟩ hmove
  obtain ⟨r', hr', hsteps⟩ := Move.intent_some hmove hr
  have hsame := steps_invocation hsteps
  refine ⟨i, r', hr', ?_, ?_, ?_, ?_⟩
  · exact (congrArg Invocation.executionId hsame).trans hexecution
  · exact (congrArg Invocation.nodeId hsame).trans hnode
  · exact (congrArg Invocation.invocationIdempotencyKey hsame).trans hkey
  · exact (congrArg Invocation.canonicalDigest hsame).trans hdigest

theorem recorded_of_find {i : String} {intent : ActionIntent}
    (h : findInvokedActionIntent input s = some (i, intent))
    (hsame : sameInvocation intent input = true) : Recorded input s := by
  rw [findInvokedActionIntent, Store.findIntent, Option.map_eq_some_iff] at h
  obtain ⟨p, hp, hpi⟩ := h
  obtain ⟨rfl, rfl⟩ := Prod.mk.inj hpi
  have hfound := List.find?_some hp
  simp only [decide_eq_true_eq] at hfound
  have hdigest := (of_decide_eq_true hsame).1
  exact ⟨p.1, p.2, OrderedMap.get?_iff_mem.mpr (List.mem_of_find?_eq_some hp), hfound.1, hfound.2.1,
    hfound.2.2, hdigest⟩

/-- What the caller of `createActionIntent` learns. -/
def CreatePost (input : CreateActionIntentInput) (result : CreateActionIntentResult) (s : Store) :
    Prop :=
  (∃ i, result = .created i ∨ result = .replay i) → Recorded input s

theorem refused_commits {result : CreateActionIntentResult}
    (hresult : ∀ i, result ≠ .created i ∧ result ≠ .replay i)
    (h : ∀ s, known s → Move setting c held s (pending s)) :
    Wp setting c (pure result) held pending known (Commits setting c (CreatePost input)) := by
  intro s _ hs
  refine ⟨h s hs, ?_⟩
  rintro t _ ⟨i, hi | hi⟩
  · exact absurd hi (hresult i).1
  · exact absurd hi (hresult i).2

theorem recorded_commits {result : CreateActionIntentResult}
    (hrecorded : ∀ s, known s → Recorded input (pending s))
    (h : ∀ s, known s → Move setting c held s (pending s)) :
    Wp setting c (pure result) held pending known (Commits setting c (CreatePost input)) :=
  fun s _ hs => ⟨h s hs, fun _ hrely _ => recorded_permanent.rely hrely (hrecorded s hs)⟩

theorem replayBoundary_bind {intent : ActionIntent} {next : AuthorityBoundary → Program β}
    (h : ∀ boundary known', (∀ t, known' t → known t) →
      Wp setting c (next boundary) held pending known' post) :
    Wp setting c (replayBoundary intent input >>= next) held pending known post := by
  unfold replayBoundary
  split
  · exact pure_bind_iff.mpr (h _ known fun _ ht => ht)
  · refine bind_assoc_iff.mpr (select_bind fun s₀ known₀ _ _ hknown₀ => ?_)
    refine bind_assoc_iff.mpr (select_bind fun s₁ known₁ _ _ hknown₁ => ?_)
    exact pure_bind_iff.mpr (h _ known₁ fun t ht => (hknown₀ t (hknown₁ t ht).1).1)

theorem replayActionIntent_commits {id : String} {intent : ActionIntent}
    {approvalRequest : Option (String × ApprovalRequest)}
    (hrecorded : sameInvocation intent input = true → ∀ s, known s → Recorded input (pending s))
    (h : ∀ s, known s → Move setting c held s (pending s)) :
    Wp setting c (replayActionIntent id intent approvalRequest input) held pending known
      (Commits setting c (CreatePost input)) := by
  unfold replayActionIntent
  split
  · exact refused_commits (fun _ => ⟨fun h => (by cases h), fun h => (by cases h)⟩) h
  rename_i hsame
  refine replayBoundary_bind fun boundary known₁ hknown₁ => ?_
  have h₁ : ∀ s, known₁ s → Move setting c held s (pending s) := fun s hs => h s (hknown₁ s hs)
  have hrecorded₁ : ∀ s, known₁ s → Recorded input (pending s) := fun s hs =>
    hrecorded (by simpa using hsame) s (hknown₁ s hs)
  split
  · exact refused_commits (fun _ => ⟨fun h => (by cases h), fun h => (by cases h)⟩) h₁
  split
  · exact refused_commits (fun _ => ⟨fun h => (by cases h), fun h => (by cases h)⟩) h₁
  unfold storedApprovalRequest
  split
  · exact recorded_commits hrecorded₁ h₁
  · refine select_bind fun s₂ known₂ _ _ hknown₂ => ?_
    split
    · exact wp_halt_of (by decide)
    · exact recorded_commits (fun s hs => hrecorded₁ s (hknown₂ s hs).1)
        fun s hs => h₁ s (hknown₂ s hs).1

theorem readRequester_bind {connectionId externalSubjectId : String}
    {connection : Option Connection} {next : Option (Option String) → Program β}
    (h : ∀ authority known', (∀ t, known' t → known t) →
      Wp setting c (next authority) held pending known' post) :
    Wp setting c (readRequesterAuthority connectionId connection externalSubjectId >>= next) held
      pending known post := by
  unfold readRequesterAuthority
  split
  · exact select_bind fun s₀ known₀ _ _ hknown₀ => h _ known₀ fun t ht => (hknown₀ t ht).1
  · exact pure_bind_iff.mpr (h _ known fun _ ht => ht)

theorem foundApprovalRequest_bind {created : Option (String × ApprovalRequest)}
    {next : Option (String × ApprovalRequest) → Program β}
    (h : ∀ found known', (∀ t, known' t → known t) →
      Wp setting c (next found) held pending known' post) :
    Wp setting c (foundApprovalRequest created input >>= next) held pending known post := by
  unfold foundApprovalRequest
  split
  · exact pure_bind_iff.mpr (h _ known fun _ ht => ht)
  · exact select_bind fun s₀ known₀ _ _ hknown₀ => h _ known₀ fun t ht => (hknown₀ t ht).1

/-- What the input of a gateway's call has to be like. -/
def CanonicalInput (setting : Setting) (input : CreateActionIntentInput) : Prop :=
  input.canonicalEnvelope.operation = input.operationId ∧
    (∀ operation, registeredSideEffectOperation setting.registry input.operationId =
        some operation →
      operation.parametersSchema input.canonicalEnvelope.parameters =
        some input.canonicalEnvelope.parameters) ∧
    setting.hashing.digestActionIntent input.canonicalEnvelope = some input.canonicalDigest

/-- The end of `createActionIntent`, once the request was created or found. -/
def invokeActionIntent (input : CreateActionIntentInput) (grantId : Option String)
    (environmentId externalSubjectId : String) (created : Option (String × ApprovalRequest)) :
    Program CreateActionIntentResult := do
  let approvalRequest ← foundApprovalRequest created input
  let usable := approvalRequest.filter fun request =>
    request.2.audience = .externalSubject ∧ request.2.timeoutAction = some .autoReject ∧
      request.2.actionIntentDigest = some input.canonicalDigest
  match usable with
  | none =>
    let conflicting ← Tx.select (findInvokedActionIntent input)
    match conflicting with
    | none => pure .idempotencyConflict
    | some (id, intent) => replayActionIntent id intent approvalRequest input
  | some (approvalRequestId, _) =>
    let createdAt ← Tx.receiving Reply.now
    let row : ActionIntent :=
      { workspaceId := input.workspaceId
        environmentId := environmentId
        externalSubjectId := externalSubjectId
        connectionId := input.connectionId
        connectionAccessGrantId := grantId
        executionId := input.executionId
        nodeId := input.nodeId
        approvalRequestId := approvalRequestId
        connector := input.connector
        operationId := input.operationId
        operationRevision := input.operationRevision
        digestVersion := input.digestVersion
        canonicalDigest := input.canonicalDigest
        canonicalEnvelope := input.canonicalEnvelope
        invocationIdempotencyKey := input.invocationIdempotencyKey
        status := .awaitingConsent
        executionClaimId := none
        dispatchStartedAt := none
        providerAttemptCount := 0
        normalizedResult := none
        normalizedError := none
        updatedAt := createdAt }
    let inserted ← insertActionIntent input row
    match inserted with
    | some id => do
      recordActionIntentFact id row ⟨.created, createdAt, none, none⟩
      pure (.created id)
    | none =>
      let raced ← Tx.select (findInvokedActionIntent input)
      match raced with
      | none => .halt "Action Intent conflict did not resolve"
      | some (id, intent) => replayActionIntent id intent approvalRequest input

/-- What was read of the intents while a request was being inserted still holds at the commit. -/
theorem recorded_later {known' : Store → Prop} {i : String} {intent : ActionIntent}
    (hasks : MayAsk held known pending) (hfound : findInvokedActionIntent input (pending s) = some (i, intent))
    (hknown : ∀ t, known' t → known t ∧ Rely setting c held s t)
    (hsame : sameInvocation intent input = true) : ∀ t, known' t → Recorded input (pending t) := by
  intro t ht
  have hfound' : findInvokedActionIntent input s = some (i, intent) := by
    rw [findInvokedActionIntent, Store.findIntent, hasks.shape s] at hfound
    exact hfound
  have hlater := recorded_permanent.rely (hknown t ht).2 (recorded_of_find hfound' hsame)
  rw [hasks.shape t]
  exact hlater

theorem invokeActionIntent_commits {grantId : Option String} {environmentId externalSubjectId : String}
    {created : Option (String × ApprovalRequest)}
    (hinput : setting.strict = true → CanonicalInput setting input)
    (hasks : MayAsk held known pending) :
    Wp setting c (invokeActionIntent input grantId environmentId externalSubjectId created) held
      pending known (Commits setting c (CreatePost input)) := by
  refine foundApprovalRequest_bind fun found known₁ hknown₁ => ?_
  have hasks₁ := hasks.mono subset_rfl hknown₁
  dsimp only
  split
  · refine select_bind fun s₂ known₂ _ _ hknown₂ => ?_
    have hmove : ∀ s, known₂ s → Move setting c held s (pending s) := fun s hs =>
      hasks₁.move_only (hknown₂ s hs).1
    split
    · exact refused_commits (fun _ => ⟨fun h => (by cases h), fun h => (by cases h)⟩) hmove
    · rename_i hfound
      exact replayActionIntent_commits (recorded_later hasks₁ hfound hknown₂) hmove
  rename_i approvalRequestId _ _
  refine receiving_bind fun clock => ?_
  refine insertActionIntent_bind (fun s => by rw [hasks.shape s]) ?_ ?_
  · intro held₂ known₂ hsub₂ hknown₂
    have hasks₂ := hasks₁.mono hsub₂ hknown₂
    refine select_bind fun s₃ known₃ _ _ hknown₃ => ?_
    split
    · exact wp_halt_of (by decide)
    · rename_i hfound
      exact replayActionIntent_commits (recorded_later hasks₂ hfound hknown₃) fun s hs =>
        hasks₂.move_only (hknown₃ s hs).1
  · intro id held₂ known₂ hsub₂ hlock hslot hknown₂
    refine recordActionIntentFact_bind fun known₃ hknown₃ =>
      recorded_commits (fun s hs => ?_) fun s hs => ?_
    · refine ⟨id, _, (intent_inserted (by rw [hasks.shape s]) id).trans (if_pos rfl), ?_⟩
      exact ⟨rfl, rfl, rfl, rfl⟩
    · obtain ⟨hs₁, hnone, hfree⟩ := hknown₂ s (hknown₃ s hs)
      refine created_move (hasks₁.mono hsub₂ fun _ h => h) hs₁ ?_ hlock hslot hnone hfree rfl
      exact ⟨rfl, rfl, rfl, rfl, rfl, rfl, rfl, hinput⟩

theorem createActionIntent_triple {pre : Store → Prop}
    (hinput : setting.strict = true → CanonicalInput setting input) :
    Triple setting c pre (createActionIntent input) (CreatePost input) := by
  have hrefused : ∀ (held' : Set Lock) (known' : Store → Prop) (result : CreateActionIntentResult),
      (∀ i, result ≠ .created i ∧ result ≠ .replay i) →
      Wp setting c (pure result) held' id known' (Commits setting c (CreatePost input)) :=
    fun held' known' result hresult => refused_commits hresult fun s _ => Move.refl
  refine Discipline.Triple.transaction (selectForUpdate_bind fun s₀ known₀ _ _ hknown₀ => ?_)
  refine select_bind fun s₁ known₁ _ _ hknown₁ => ?_
  split
  · rename_i hfound
    exact replayActionIntent_commits (recorded_later asks_id hfound hknown₁) fun s _ => Move.refl
  refine select_bind fun s₂ known₂ _ _ hknown₂ => ?_
  split
  case h_2 => exact hrefused _ _ _ fun _ => ⟨fun h => (by cases h), fun h => (by cases h)⟩
  refine lockRow_any fun s₃ held₃ known₃ _ _ _ _ _ => ?_
  refine lockRow_any fun s₄ held₄ known₄ _ _ _ _ _ => ?_
  refine lockRow_any fun s₅ held₅ known₅ _ _ _ _ _ => ?_
  refine lockRow_any fun s₆ held₆ known₆ _ _ _ _ _ => ?_
  refine readRequester_bind fun authority known₇ _ => ?_
  dsimp only
  split
  · exact hrefused _ _ _ fun _ => ⟨fun h => (by cases h), fun h => (by cases h)⟩
  split
  · exact hrefused _ _ _ fun _ => ⟨fun h => (by cases h), fun h => (by cases h)⟩
  split
  case h_2 => exact hrefused _ _ _ fun _ => ⟨fun h => (by cases h), fun h => (by cases h)⟩
  split
  · exact hrefused _ _ _ fun _ => ⟨fun h => (by cases h), fun h => (by cases h)⟩
  rename_i grantId environmentId externalSubjectId _ _ _ _
  refine createApprovalRequest_bind (fun known₈ _ => ?_)
    fun rid row held₈ known₈ hasked _ hlock hknown₈ => ?_
  · exact invokeActionIntent_commits hinput asks_id
  · exact invokeActionIntent_commits hinput
      (asks_insertRequest hasked hlock fun s hs => (hknown₈ s hs).2)

end Creating
end Linea.Consent
