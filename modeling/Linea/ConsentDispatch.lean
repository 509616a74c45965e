import Linea.ConsentEndings

/-! Claiming and dispatching. Both transactions read the authority and the approval under locks on
the rows these rest on, so that what they found holds in the store they commit to. -/
namespace Linea.Consent
variable {setting : Setting} {c : Client} {held : Set Lock} {known : Store → Prop} {β : Type}
  {post : Set Lock → (Store → Store) → (Store → Prop) → β → Prop} {i : String} {s t : Store}

section Boundary
variable {connection : Option Connection} {environment : Option Environment}
  {input : ConnectionAuthorityInput}

theorem boundary_authorized (h : connectionAuthorityBoundary connection environment input =
    .authorized) :
    environment.map Environment.enabled = some true ∧
      connection.map Connection.status = some .active ∧
      connection.bind Connection.credentialEncrypted ≠ none ∧
      connectionOwned connection input = true ∧
      policyAllowsAction (providerPolicy environment input.provider) input.actionFamily = true ∧
      connectionMissingScope connection input.requiredScopes = false ∧
      policyAllowsScopes (providerPolicy environment input.provider) input.requiredScopes =
        true := by
  simp only [connectionAuthorityBoundary] at h
  split at h
  · cases h
  · split at h
    · cases h
    · split at h
      · cases h
      · rename_i hvalid
        simp only [not_or, ne_eq, not_not, Bool.not_eq_false, Bool.not_eq_true] at hvalid
        exact hvalid

theorem authorized_connection {conn : Connection}
    (h : connectionAuthorityBoundary (some conn) environment input = .authorized) :
    conn.status = .active ∧ conn.credentialEncrypted.isSome = true ∧
      conn.environmentId = input.environmentId ∧ conn.provider = input.provider ∧
      ∀ scope ∈ input.requiredScopes, scope ∈ conn.scopes := by
  obtain ⟨_, hstatus, hcredential, howned, _, hscopes, _⟩ := boundary_authorized h
  simp only [Option.map_some, Option.some.injEq] at hstatus
  simp only [connectionOwned, decide_eq_true_eq] at howned
  refine ⟨hstatus, Option.isSome_iff_ne_none.mpr hcredential, howned.2.1, howned.2.2.2, ?_⟩
  intro scope hscope
  simp only [connectionMissingScope, List.any_eq_false, decide_eq_true_eq, not_not] at hscopes
  exact hscopes scope hscope

theorem authorized_environment
    (h : connectionAuthorityBoundary connection environment input = .authorized) :
    ∃ env policy, environment = some env ∧ env.enabled = true ∧ policy ∈ env.providers ∧
      policy.provider = input.provider ∧ input.actionFamily ∈ policy.actionFamilies ∧
      ∀ scope ∈ input.requiredScopes, scope ∈ policy.maxScopes := by
  obtain ⟨henabled, _, _, _, haction, _, hscopes⟩ := boundary_authorized h
  obtain ⟨env, rfl, hon⟩ := Option.map_eq_some_iff.mp henabled
  cases hpolicy : providerPolicy (some env) input.provider with
  | none => simp [policyAllowsAction, hpolicy] at haction
  | some policy =>
    rw [hpolicy] at haction hscopes
    simp only [policyAllowsAction, decide_eq_true_eq] at haction
    simp only [policyAllowsScopes, List.all_eq_true, decide_eq_true_eq] at hscopes
    simp only [providerPolicy, Option.bind_some] at hpolicy
    exact ⟨env, policy, rfl, hon, List.mem_of_find?_eq_some hpolicy,
      by simpa using List.find?_some hpolicy, haction, hscopes⟩

end Boundary

section Reads

/-- What `currentConsent` found: the requester's grant in `s₁`, the reviewer's assignment in `s₂`,
the rest in the rows it was given. -/
structure ConsentRead (authority : LockedAuthority) (input : ClaimInput) (conn : Connection)
    (d : ApprovalDecision) (reviewer session : String) (s₁ s₂ : Store) : Prop where
  connection : authority.connection = some conn
  requester : getConnectionRequesterAuthority s₁ authority.intent.connectionId conn
    authority.intent.externalSubjectId = some authority.intent.connectionAccessGrantId
  subject : authority.subject.map ExternalSubject.status = some .verified
  boundary : connectionAuthorityBoundary (some conn) authority.environment
    { workspaceId := authority.intent.workspaceId
      environmentId := authority.intent.environmentId
      externalSubjectId := authority.intent.externalSubjectId
      provider := input.provider
      actionFamily := input.actionFamily
      requiredScopes := input.requiredScopes } = .authorized
  decision : authority.decision = some d
  actor : d.actor = .externalSubject reviewer session
  assigned : getConnectionReviewerAuthority s₂ authority.intent.connectionId conn reviewer =
    some d.reviewerAssignmentId
  decided : authority.request.map ApprovalRequest.status = some .decided
  digest : authority.request.bind (fun r => r.actionIntentDigest) =
    some authority.intent.canonicalDigest
  outcome : d.outcome = .approved
  reason : d.reason = .human

theorem actor_of_subject {decision : ApprovalDecision} {subject : String}
    (h : decision.actorExternalSubjectId = some subject) :
    ∃ session, decision.actor = .externalSubject subject session := by
  simp only [ApprovalDecision.actorExternalSubjectId] at h
  split at h
  · rename_i u session hactor
    cases h
    exact ⟨session, hactor⟩
  · cases h

theorem currentConsent_bind {authority : LockedAuthority} {input : ClaimInput}
    {next : Bool → Program β}
    (hfalse : ∀ known', (∀ t, known' t → known t) →
      Wp setting c (next false) held id known' post)
    (htrue : ∀ conn d reviewer session s₁ s₂ known',
      ConsentRead authority input conn d reviewer session s₁ s₂ →
      (∀ t, known' t → known t ∧ Rely setting c held s₁ t ∧ Rely setting c held s₂ t) →
      Wp setting c (next true) held id known' post) :
    Wp setting c (currentConsent authority input >>= next) held id known post := by
  obtain ⟨intent, connection, environment, subject, request, decision, execution⟩ := authority
  refine bind_assoc_iff.mpr (bind_assoc_iff.mpr ?_)
  cases connection with
  | none =>
    refine pure_bind_iff.mpr (pure_bind_iff.mpr ?_)
    simp only [reduceCtorEq, false_and, decide_false, Bool.false_eq_true, if_false]
    exact pure_bind_iff.mpr (hfalse known fun _ ht => ht)
  | some connection =>
    refine select_bind fun s₁ known₁ _ _ hknown₁ => pure_bind_iff.mpr ?_
    split
    · rename_i hauthority
      simp only [decide_eq_true_eq, id_eq] at hauthority
      obtain ⟨hrequester, hsubject, hboundary⟩ := hauthority
      refine bind_assoc_iff.mpr ?_
      cases decision with
      | none => exact pure_bind_iff.mpr (pure_bind_iff.mpr (hfalse known₁ fun t ht => (hknown₁ t ht).1))
      | some decision =>
        cases hactor : decision.actorExternalSubjectId with
        | none =>
          simp only [readReviewerAuthority, Option.bind_some, hactor]
          refine pure_bind_iff.mpr ?_
          simp only [reduceCtorEq, false_and, decide_false]
          exact pure_bind_iff.mpr (hfalse known₁ fun t ht => (hknown₁ t ht).1)
        | some reviewer =>
          simp only [readReviewerAuthority, Option.bind_some, hactor]
          refine select_bind fun s₂ known₂ _ _ hknown₂ => pure_bind_iff.mpr ?_
          refine decide_cases (fun _ => ?_) fun happroval => ?_
          · exact hfalse known₂ fun t ht => (hknown₁ t (hknown₂ t ht).1).1
          · obtain ⟨hassigned, hdecided, hdigest, houtcome, _, hreason⟩ := happroval
            obtain ⟨session, hactor⟩ := actor_of_subject hactor
            refine htrue connection decision reviewer session s₁ s₂ known₂
              ⟨rfl, hrequester, hsubject, hboundary, rfl, hactor, hassigned, hdecided, hdigest,
                houtcome, hreason⟩ fun t ht => ?_
            exact ⟨(hknown₁ t (hknown₂ t ht).1).1, (hknown₁ t (hknown₂ t ht).1).2, (hknown₂ t ht).2⟩
    · exact pure_bind_iff.mpr (hfalse known₁ fun t ht => (hknown₁ t ht).1)

theorem lockSubjects_bind {intent : ActionIntent} {decision : Option ApprovalDecision}
    {next : Option ExternalSubject → Program β}
    (h : ∀ s held' known', Inv setting s → known s → held ⊆ held' →
      (∀ u, u = intent.externalSubjectId ∨
        decision.bind ApprovalDecision.actorExternalSubjectId = some u →
        (s.subjects u).isSome → .subject u ∈ held') →
      (∀ t, known' t → known t ∧ Rely setting c held' s t) →
      Wp setting c (next (s.subjects intent.externalSubjectId)) held' id known' post) :
    Wp setting c (lockSubjects intent decision >>= next) held id known post := by
  refine selectForUpdate_bind fun s known' hinv hs hknown => ?_
  refine h s _ known' hinv hs Set.subset_union_left (fun u hu hpresent => .inr ?_) hknown
  simp only [id_eq, Set.mem_ofPred_eq, List.mem_map, List.mem_filter, List.mem_cons,
    Option.mem_toList]
  exact ⟨u, ⟨hu.imp id fun h => h, hpresent⟩, rfl⟩

/-- The rows that the four locking statements returned, in a later store. -/
structure RowsKept (snapshot : ActionIntent) (subject : Option ExternalSubject)
    (environment : Option Environment) (connection : Option Connection)
    (request : Option ApprovalRequest) (t : Store) : Prop where
  subject : ∀ x, subject = some x → t.subjects snapshot.externalSubjectId = some x
  environment : ∀ x, environment = some x → t.environments snapshot.environmentId = some x
  connection : ∀ x, connection = some x → t.connections snapshot.connectionId = some x
  request : ∀ x, request = some x → t.requestRow snapshot.approvalRequestId = some x

/-- The locks that keep the rows. -/
structure RowsLocked (snapshot : ActionIntent) (subject : Option ExternalSubject)
    (environment : Option Environment) (request : Option ApprovalRequest)
    (held : Set Lock) : Prop where
  subject : ∀ x, subject = some x → .subject snapshot.externalSubjectId ∈ held
  environment : ∀ x, environment = some x → .environment snapshot.environmentId ∈ held
  request : ∀ x, request = some x → .request snapshot.approvalRequestId ∈ held

theorem lockAuthority_bind {snapshot : ActionIntent} {decision : Option ApprovalDecision}
    {next : Option ExternalSubject → Option Environment → Option Connection →
      Option ApprovalRequest → Program β}
    (h : ∀ s subject environment connection request held' known', Inv setting s → known s →
      held ⊆ held' → RowsLocked snapshot subject environment request held' →
      (∀ u, decision.bind ApprovalDecision.actorExternalSubjectId = some u →
        (s.subjects u).isSome → .subject u ∈ held') →
      (∀ t, known' t → known t ∧
        RowsKept snapshot subject environment connection request t) →
      Wp setting c (next subject environment connection request) held' id known' post) :
    Wp setting c (lockSubjects snapshot decision >>= fun subject =>
      lockRow (.environment snapshot.environmentId) (fun s =>
        s.environments snapshot.environmentId) >>= fun environment =>
      lockRow (.connection snapshot.connectionId) (fun s =>
        s.connections snapshot.connectionId) >>= fun connection =>
      lockRow (.request snapshot.approvalRequestId)
        (Store.requestRow snapshot.approvalRequestId) >>= fun request =>
      next subject environment connection request) held id known post := by
  refine lockSubjects_bind fun s₁ held₁ known₁ hinv₁ hs₁ hsub₁ hlock₁ hknown₁ => ?_
  refine lockRow_any fun s₂ held₂ known₂ _ _ hsub₂ hlock₂ hknown₂ => ?_
  refine lockRow_any fun s₃ held₃ known₃ _ _ hsub₃ hlock₃ hknown₃ => ?_
  refine lockRow_any fun s₄ held₄ known₄ _ _ hsub₄ hlock₄ hknown₄ => ?_
  have hsubject : ∀ x, s₁.subjects snapshot.externalSubjectId = some x →
      .subject snapshot.externalSubjectId ∈ held₁ := fun x hx =>
    hlock₁ _ (.inl rfl) (by rw [hx]; rfl)
  refine h s₁ _ _ _ _ held₄ known₄ hinv₁ hs₁ (hsub₁.trans (hsub₂.trans (hsub₃.trans hsub₄)))
    ⟨fun x hx => hsub₄ (hsub₃ (hsub₂ (hsubject x hx))), fun x hx => hsub₄ (hsub₃ (hlock₂ x hx)),
      hlock₄⟩
    (fun u hu hpresent => hsub₄ (hsub₃ (hsub₂ (hlock₁ u (.inr hu) hpresent)))) fun t ht => ?_
  have ht₃ := (hknown₄ t ht).1
  have ht₂ := (hknown₃ t ht₃).1
  have ht₁ := (hknown₂ t ht₂).1
  refine ⟨(hknown₁ t ht₁).1, ⟨fun x hx => ?_, fun x hx => ?_, fun x hx => ?_, fun x hx => ?_⟩⟩
  · rw [(hknown₁ t ht₁).2.subject (hsubject x hx)]
    exact hx
  · rw [(hknown₂ t ht₂).2.environment (hlock₂ x hx)]
    exact hx
  · rw [(hknown₃ t ht₃).2.connection (hlock₃ x hx)]
    exact hx
  · rw [Store.requestRow, (hknown₄ t ht).2.request (hlock₄ x hx)]
    exact hx

/-- What was read under the locks holds in the store that the transaction commits to. -/
theorem ConsentRead.consented {authority : LockedAuthority} {input : ClaimInput}
    {conn : Connection} {d : ApprovalDecision} {reviewer session : String} {s₁ s₂ : Store}
    (h : ConsentRead authority input conn d reviewer session s₁ s₂)
    (hrows : RowsKept authority.intent authority.subject authority.environment
      authority.connection authority.request t)
    (hlocked : RowsLocked authority.intent authority.subject authority.environment
      authority.request held)
    (hreviewer : .subject reviewer ∈ held) (hrely₁ : Rely setting c held s₁ t)
    (hrely₂ : Rely setting c held s₂ t)
    (hdecision : t.decisions authority.intent.approvalRequestId = [d])
    (hlease : ∃ execution, t.execution authority.intent.executionId = some execution ∧
      execution.status = .running ∧ execution.leasedBy = some input.executionClaimId ∧
      ∃ expiry, execution.leaseExpiresAt = some expiry ∧ input.now < expiry) :
    Consented t authority.intent input := by
  obtain ⟨request, hrequest, hdecided⟩ := Option.map_eq_some_iff.mp h.decided
  obtain ⟨subject, hsubject, hverified⟩ := Option.map_eq_some_iff.mp h.subject
  obtain ⟨env, policy, henv, henabled, hpolicy, hprovider, hfamily, hmax⟩ :=
    authorized_environment h.boundary
  obtain ⟨hactive, hcredential, henvironment, hprovided, hscopes⟩ :=
    authorized_connection h.boundary
  have hdigest := h.digest
  rw [hrequest, Option.bind_some] at hdigest
  have hconnection := hrows.connection conn h.connection
  have henvLock : .environment conn.environmentId ∈ held := by
    rw [henvironment]
    exact hlocked.environment env henv
  have hrequester := hrely₁.requesterAuthority henvLock (hlocked.subject subject hsubject)
    |>.trans h.requester
  have hassigned := hrely₂.reviewerAuthority henvLock hreviewer h.assigned
  exact
    { request := ⟨request, hrows.request request hrequest, hdecided, hdigest⟩
      decision := ⟨d, reviewer, session, conn, hdecision, h.outcome, h.reason, h.actor,
        hconnection, hassigned⟩
      connection := ⟨conn, hconnection, hactive, hcredential, henvironment, hprovided, hscopes⟩
      environment := ⟨env, policy, hrows.environment env henv, henabled, hpolicy, hprovider,
        hfamily, hmax⟩
      requester := ⟨⟨subject, hrows.subject subject hsubject, hverified⟩, conn, hconnection,
        hrequester⟩
      lease := hlease }

theorem Consented.congr {row row' : ActionIntent} {input : ClaimInput}
    (h : Consented s row input) (hsame : row'.toInvocation = row.toInvocation) :
    Consented s row' input := by
  obtain ⟨invocation, _⟩ := row
  obtain ⟨invocation', _⟩ := row'
  cases hsame
  exact ⟨h.request, h.decision, h.connection, h.environment, h.requester, h.lease⟩

end Reads

section Begin
variable {input : ClaimInput}

theorem lease_of_valid {execution : Execution} {now : ℕ} {executionClaimId : String}
    (h : execution.isLeaseValid now executionClaimId = true) :
    execution.leasedBy = some executionClaimId ∧
      ∃ expiry, execution.leaseExpiresAt = some expiry ∧ now < expiry := by
  simp only [Execution.isLeaseValid, decide_eq_true_eq] at h
  refine ⟨h.1, ?_⟩
  have hexpiry := h.2
  split at hexpiry
  · rename_i expiry hsome
    exact ⟨expiry, hsome, of_decide_eq_true hexpiry⟩
  · cases hexpiry

/-- An executing intent has a Decision, which stays. -/
theorem decisions_of_executing (hinv : Inv setting s) {row : ActionIntent}
    (hrow : s.intentRow i = some row) (hstatus : row.status = .executing) :
    s.decisions row.approvalRequestId ≠ [] := by
  obtain ⟨r, hr, rfl⟩ := Option.map_eq_some_iff.mp hrow
  have hrecord := hinv.records i r hr
  obtain ⟨earlier, last, hclaims, _⟩ := hrecord.claimed hstatus
  exact hrecord.decided (by simp [hclaims])

theorem Inv.single_decision (hinv : Inv setting s) {d : ApprovalDecision}
    (hd : (s.decisions i).head? = some d) : s.decisions i = [d] := by
  have hne : s.decisions i ≠ [] := by
    intro h
    rw [h] at hd
    cases hd
  obtain ⟨q, hq, hnonempty⟩ := decisions_ne hne
  obtain ⟨⟨d', hd'⟩, _⟩ := (hinv.requests i q hq).decided (hinv.decided_of_decisions hq hnonempty)
  rw [decisions_eq hq, hd'] at hd ⊢
  cases hd
  rfl

theorem Rely.single_decision (h : Rely setting c held s t) (hinv : Inv setting s)
    {d : ApprovalDecision} (hd : (s.decisions i).head? = some d) : t.decisions i = [d] := by
  have hsingle := hinv.single_decision hd
  rw [h.decisions hinv (by rw [hsingle]; simp), hsingle]

theorem Inv.actor_present (hinv : Inv setting s) {d : ApprovalDecision} {u session : String}
    (hd : s.decisions i = [d]) (hactor : d.actor = .externalSubject u session) :
    (s.subjects u).isSome := by
  obtain ⟨q, hq, _⟩ := decisions_ne (by rw [hd]; simp : s.decisions i ≠ [])
  rw [decisions_eq hq] at hd
  exact (hinv.decided i q d hq (by simp [hd])).actor u session hactor

theorem RowsLocked.mono {held' : Set Lock} {snapshot : ActionIntent}
    {subject : Option ExternalSubject} {environment : Option Environment}
    {request : Option ApprovalRequest}
    (h : RowsLocked snapshot subject environment request held) (hsub : held ⊆ held') :
    RowsLocked snapshot subject environment request held' :=
  ⟨fun x hx => hsub (h.subject x hx), fun x hx => hsub (h.environment x hx),
    fun x hx => hsub (h.request x hx)⟩

/-- Two looks at an intent see one invocation. -/
theorem Rely.row_invocation (h : Rely setting c held s t) {row : ActionIntent} {r : IntentRecord}
    (hrow : s.intentRow i = some row) (hr : t.intent i = some r) :
    r.row.toInvocation = row.toInvocation := by
  obtain ⟨r₀, hr₀, rfl⟩ := Option.map_eq_some_iff.mp hrow
  obtain ⟨r', hr', hsame⟩ := h.invocation hr₀
  rw [hr, Option.some.injEq] at hr'
  exact hr' ▸ hsame

theorem dispatchedBy_dispatch {r : IntentRecord} (hinv : RecordInv setting s r)
    (hr : (s.setIntent i (.dispatch c input)).intent i = some (r.dispatch c input)) :
    DispatchedBy c i (r.row.providerAttemptCount + 1) (s.setIntent i (.dispatch c input)) := by
  refine ⟨_, _, hr, List.mem_append_right _ (List.mem_singleton.mpr rfl), rfl, rfl, ?_⟩
  intro call hcall heq
  obtain ⟨d, hd, hattempt, _⟩ := hinv.callOf call hcall
  have := hinv.tags d hd
  have := hinv.count
  omega

/-- The dispatch itself, in the store the transaction commits to. -/
theorem dispatch_step {r : IntentRecord} (hinv : Inv setting s)
    (hr : s.intent input.actionIntentId = some r) (hlock : .intent input.actionIntentId ∈ held)
    (hstatus : r.row.status = .executing)
    (hclaim : r.row.executionClaimId = some input.executionClaimId)
    (hconsent : Consented s r.row input)
    (hclaimed : setting.strict = true →
      ClaimedBy setting c input.actionIntentId input.executionClaimId s) :
    IntentStep setting c held s input.actionIntentId r (r.dispatch c input) := by
  refine .dispatch input hlock hstatus hclaim hconsent fun hstrict => ?_
  obtain ⟨r', hr', hin, hnone⟩ := hclaimed hstrict
  rw [hr, Option.some.injEq] at hr'
  subst hr'
  exact ⟨hin, fun hunrepeatable =>
    hnone hunrepeatable ((hinv.records _ r hr).last_claim hstatus hclaim hin)⟩

theorem beginActionIntentDispatch_triple {pre : Store → Prop}
    (hpre : setting.strict = true → ∀ s, pre s →
      ClaimedBy setting c input.actionIntentId input.executionClaimId s) :
    Triple setting c pre (beginActionIntentDispatch c input) fun result s =>
      ∀ intent, result = some intent →
        DispatchedBy c input.actionIntentId intent.providerAttemptCount s := by
  refine Discipline.Triple.transaction (select_bind fun s₀ known₀ hinv₀ _ hknown₀ => ?_)
  simp only [id_eq]
  split
  · intro s _ _
    exact ⟨Move.refl, fun t _ intent hresult => by cases hresult⟩
  rename_i snapshot hsnapshot
  split
  · intro s _ _
    exact ⟨Move.refl, fun t _ intent hresult => by cases hresult⟩
  rename_i hexecuting
  simp only [ne_eq, not_or, not_not] at hexecuting
  refine select_bind fun s₁ known₁ hinv₁ hs₁ hknown₁ => ?_
  simp only [id_eq]
  -- the Decision is there from the first look on
  have hdecisions := decisions_of_executing hinv₀ hsnapshot hexecuting.1
  have hdecisions₁ := (hknown₀ s₁ hs₁).2.decisions hinv₀ hdecisions
  obtain ⟨d, hd⟩ : ∃ d, (s₁.decisions snapshot.approvalRequestId).head? = some d := by
    rw [hdecisions₁]
    exact ⟨_, List.head?_eq_some_head hdecisions⟩
  rw [hd]
  refine lockAuthority_bind fun s₂ subject environment connection request held₂ known₂ hinv₂ hs₂
    _ hlocked hactor hknown₂ => ?_
  refine select_bind fun s₃ known₃ hinv₃ hs₃ hknown₃ => ?_
  refine lockActiveActionIntentExecution_bind ?_ ?_
  · intro held' known' _ _ s _ _
    exact ⟨Move.refl, fun t _ intent hresult => by cases hresult⟩
  intro s₄ claimed s₅ execution known₄ hinv₄ hs₄ hclaimed _ hexecution hrunning hvalid hknown₄
  refine currentConsent_bind ?_ ?_
  · intro known' _
    refine failRecoveredActionIntent_bind fun result held' pending' known'' _ hmove => ?_
    intro s hinv hs
    exact ⟨hmove s hinv hs, fun t _ intent hresult => by cases hresult⟩
  intro conn d' reviewer session s₆ s₇ known₅ hread hknown₅
  rw [if_neg (by decide)]
  refine of_bind_pure (updateIntent_bind ?_ ?_)
  · intro known' _ s _ _
    exact ⟨Move.refl, fun t _ intent hresult => by cases hresult⟩
  intro s₈ record known₆ _ _ hrecord hguard hknown₆
  simp only [decide_eq_true_eq] at hguard
  intro s hinv hs
  have hs₅ := (hknown₆ s hs).1
  have hs₄' := (hknown₅ s hs₅).1
  have hs₃' := (hknown₄ s hs₄').1
  have hs₂' := (hknown₃ s hs₃').1
  have hs₁' := (hknown₂ s hs₂').1
  have hs₀' := (hknown₁ s hs₁').1
  -- the row at the commit is the row that was updated, of the invocation that was looked up
  obtain ⟨r, hr, hrow, _⟩ := (hknown₆ s hs).2.intent (by simp) hrecord
  have hsame := (hknown₀ s hs₀').2.row_invocation hsnapshot hr
  have hexecutionId : claimed.executionId = snapshot.executionId :=
    congrArg Invocation.executionId
      (((hknown₄ s hs₄').2.1.row_invocation hclaimed hr).symm.trans hsame)
  -- the Decision that was read is the one of the first look, and its subject is locked
  have hsameDecision : d' = d := by
    have hfound := hread.decision
    simp only [id_eq, (hknown₁ s₃ (hknown₂ s₃ hs₃).1).2.single_decision hinv₁ hd, List.head?_cons,
      Option.some.injEq] at hfound
    exact hfound.symm
  subst hsameDecision
  have hreviewer : .subject reviewer ∈ held₂ :=
    hactor reviewer (by simp [ApprovalDecision.actorExternalSubjectId, hread.actor])
      (hinv₂.actor_present ((hknown₁ s₂ hs₂).2.single_decision hinv₁ hd) hread.actor)
  have hlease := lease_of_valid hvalid
  have hconsent : Consented s snapshot input := by
    refine hread.consented (hknown₂ s hs₂').2 (hlocked.mono Set.subset_union_left)
      (Set.mem_union_left _ hreviewer) (hknown₅ s hs₅).2.1 (hknown₅ s hs₅).2.2
      ((hknown₁ s hs₁').2.single_decision hinv₁ hd) ⟨execution, ?_, hrunning, hlease⟩
    rw [Store.execution, ← hexecutionId, (hknown₄ s hs₄').2.2.execution (by simp)]
    exact hexecution
  have hstep : IntentStep setting c
      (held₂ ∪ {.execution claimed.executionId} ∪ {.intent input.actionIntentId}) s
      input.actionIntentId r (r.dispatch c input) :=
    dispatch_step hinv hr (by simp) (hrow ▸ hguard.1) (hrow ▸ hguard.2) (hconsent.congr hsame)
      fun hstrict => hpre hstrict s (hknown₀ s hs₀').1
  refine ⟨Move.ofIntent fun r' hr' => ?_, fun t hrely intent hresult => ?_⟩
  · rw [hr, Option.some.injEq] at hr'
    exact hr' ▸ .single hstep
  · cases hresult
    refine Rely.dispatchedBy hrely ?_
    rw [show (IntentRecord.dispatch c input record).row.providerAttemptCount =
      r.row.providerAttemptCount + 1 by rw [hrow]; rfl]
    refine dispatchedBy_dispatch (hinv.records _ r hr) ?_
    rw [intent_setIntent_self, id_eq, hr]
    rfl

end Begin
section Claim
variable {input : ClaimInput}

/-- What an attempt that got the claim knows from then on. -/
def Claimed (setting : Setting) (c : Client) (input : ClaimInput) (intent : ActionIntent)
    (s : Store) : Prop :=
  (∃ r, s.intent input.actionIntentId = some r ∧ r.row.toInvocation = intent.toInvocation) ∧
    (setting.strict = true →
      intent.dispatchStartedAt = none ∨ ¬ Unrepeatable setting.registry intent →
      ClaimedBy setting c input.actionIntentId input.executionClaimId s)

theorem Unrepeatable.congr {registry : Registry} {row row' : ActionIntent}
    (h : Unrepeatable registry row) (hsame : row'.toInvocation = row.toInvocation) :
    Unrepeatable registry row' := by
  have hid : row'.operationId = row.operationId := congrArg Invocation.operationId hsame
  rw [Unrepeatable, hid]
  exact h

theorem Rely.claimed {intent : ActionIntent} (h : Rely setting c held s t)
    (hs : Claimed setting c input intent s) : Claimed setting c input intent t := by
  obtain ⟨⟨r, hr, hsame⟩, hclaimed⟩ := hs
  obtain ⟨r', hr', hsame'⟩ := h.invocation hr
  exact ⟨⟨r', hr', hsame'.trans hsame⟩, fun hstrict hfree =>
    h.claimedBy hstrict (hclaimed hstrict hfree)⟩

/-- A record right after the claim. -/
theorem claimed_of_claim {r r' : IntentRecord} {intent : ActionIntent}
    (hinv : RecordInv setting s r) (hr' : t.intent input.actionIntentId = some r')
    (hclaims : r'.claims = r.claims ++ [(input.executionClaimId, c)])
    (hdispatches : r'.dispatches = r.dispatches)
    (hsame : r'.row.toInvocation = intent.toInvocation)
    (hstarted : intent.dispatchStartedAt = r.row.dispatchStartedAt) :
    Claimed setting c input intent t := by
  refine ⟨⟨r', hr', hsame⟩, fun _ hfree => ⟨r', hr', ?_, fun hunrepeatable _ => ?_⟩⟩
  · simp [hclaims]
  · have hnone : intent.dispatchStartedAt = none :=
      hfree.resolve_right fun h => h (hunrepeatable.congr hsame.symm)
    rw [hdispatches]
    exact hinv.started.mp (hstarted ▸ hnone)

/-- What the caller of `claimApprovedActionIntent` learns. A claim that was not taken over is the
intent's first. -/
structure ClaimPost (setting : Setting) (c : Client) (input : ClaimInput)
    (result : Option ClaimResult) (s : Store) : Prop where
  claimed : ∀ intent, result.bind ClaimResult.claimedIntent = some intent →
    Claimed setting c input intent s
  first : ∀ intent connection, result = some (.claimed intent connection) →
    intent.dispatchStartedAt = none

theorem claimPost_none {result : ClaimResult} (h : result.claimedIntent = none) :
    ClaimPost setting c input (some result) s where
  claimed := fun intent hintent => by
    rw [Option.bind_some, h] at hintent
    cases hintent
  first := fun intent connection hresult => by
    cases hresult
    cases h

/-- What a claim rests on, in any store that the locks of the transaction allow. -/
structure Claimable (input : ClaimInput) (intent : ActionIntent) (t : Store) : Prop where
  row : t.intentRow input.actionIntentId = some intent
  lease : LeasedTo t intent.executionId input.executionClaimId
  decided : t.decisions intent.approvalRequestId ≠ []

/-- A record made ready for the claim, or one that needs no more than the claim. -/
structure Readied (setting : Setting) (c : Client) (held : Set Lock) (i : String)
    (intent : ActionIntent) (f : IntentRecord → IntentRecord) : Prop where
  steps : ∀ s r, r.row = intent →
    Relation.ReflTransGen (IntentStep setting c held s i) r (f r)
  status : ∀ r, r.row = intent → (f r).row.status = .ready ∨ intent.status = .executing ∧
    (f r).row.status = .executing ∧ (f r).row.executionClaimId = intent.executionClaimId
  invocation : ∀ r, r.row = intent → (f r).row.toInvocation = intent.toInvocation
  started : ∀ r, r.row = intent → (f r).row.dispatchStartedAt = intent.dispatchStartedAt
  claims : ∀ r, (f r).claims = r.claims
  dispatches : ∀ r, (f r).dispatches = r.dispatches

theorem readied_self {intent : ActionIntent}
    (h : intent.status = .ready ∨ intent.status = .executing) :
    Readied setting c held i intent fun r => r where
  steps := fun _ _ _ => .refl
  status := fun r hr => by
    rw [hr]
    exact h.imp id fun h => ⟨h, h, rfl⟩
  invocation := fun r hr => by rw [hr]
  started := fun r hr => by rw [hr]
  claims := fun _ => rfl
  dispatches := fun _ => rfl

theorem readied_awaiting {intent : ActionIntent} {now : ℕ} {fact : AuditFact}
    (hlock : .intent i ∈ held) (hstatus : intent.status = .awaitingConsent)
    (hfact : fact.factType.terminal = false) :
    Readied setting c held i intent fun r =>
      (r.withRow fun row => { row with status := .ready, updatedAt := now }).withFact fact where
  steps := fun s r hr =>
    .tail (.single (.ready now hlock (by rw [hr]; exact hstatus))) (.fact fact hfact)
  status := fun _ _ => .inl rfl
  invocation := fun r hr => by rw [← hr]; rfl
  started := fun r hr => by rw [← hr]; rfl
  claims := fun _ => rfl
  dispatches := fun _ => rfl

/-- The commit of a claim, with the fact that may go with it. -/
theorem claim_commits {intent : ActionIntent} {f : IntentRecord → IntentRecord}
    {g : IntentRecord → IntentRecord} {record : IntentRecord} {result : ClaimResult}
    (hlock : .intent input.actionIntentId ∈ held)
    (hready : Readied setting c held input.actionIntentId intent f)
    (hother : intent.status = .executing → intent.executionClaimId ≠ some input.executionClaimId)
    (hrecord : record.row = intent)
    (hresult : result.claimedIntent =
      some ((f record).claim c input.executionClaimId input.now).row)
    (hfirst : ∀ claimed connection, result = .claimed claimed connection →
      intent.status = .awaitingConsent ∨ intent.status = .ready)
    (hg : ∀ s r, Relation.ReflTransGen (IntentStep setting c held s input.actionIntentId) r (g r) ∧
      (g r).row = r.row ∧ (g r).claims = r.claims ∧ (g r).dispatches = r.dispatches)
    (hknown : ∀ t, known t → Claimable input intent t) :
    Commits setting c (ClaimPost setting c input) held
      (fun s => s.setIntent input.actionIntentId fun r =>
        g ((f r).claim c input.executionClaimId input.now)) known (some result) := by
  intro s hinv hs
  obtain ⟨hrow, hlease, hdecided⟩ := hknown s hs
  obtain ⟨r, hr, hreq⟩ := Option.map_eq_some_iff.mp hrow
  have hinvocation := hready.invocation r hreq
  refine ⟨Move.ofIntent fun r' hr' => ?_, fun t hrely =>
    ⟨fun intent' hintent => Rely.claimed hrely ?_, fun intent' connection hclaimed => ?_⟩⟩
  · rw [hr, Option.some.injEq] at hr'
    subst hr'
    refine ((hready.steps s r hreq).tail (.claim _ _ hlock ?_ ?_ ?_)).trans (hg s _).1
    · refine (hready.status r hreq).imp id fun h => ⟨h.2.1, ?_⟩
      rw [h.2.2]
      exact hother h.1
    · rw [show (f r).row.executionId = intent.executionId from
        congrArg Invocation.executionId hinvocation]
      exact hlease
    · rw [show (f r).row.approvalRequestId = intent.approvalRequestId from
        congrArg Invocation.approvalRequestId hinvocation]
      exact hdecided
  · rw [Option.bind_some, hresult, Option.some.injEq] at hintent
    subst hintent
    have hafter : (s.setIntent input.actionIntentId fun r =>
        g ((f r).claim c input.executionClaimId input.now)).intent input.actionIntentId =
        some (g ((f r).claim c input.executionClaimId input.now)) := by
      rw [intent_setIntent_self, hr]
      rfl
    refine claimed_of_claim (hinv.records _ r hr) hafter ?_ ?_ ?_ ?_
    · rw [(hg s _).2.2.1, IntentRecord.claim, hready.claims]
    · rw [(hg s _).2.2.2, IntentRecord.claim, hready.dispatches]
    · rw [(hg s _).2.1]
      exact hinvocation.trans (hready.invocation record hrecord).symm
    · exact (hready.started record hrecord).trans (by rw [hreq])
  · rw [Option.some.injEq] at hclaimed
    have hopen := hfirst intent' connection hclaimed
    rw [← hreq] at hopen
    have hinvariant := hinv.records _ r hr
    have hnone := hinvariant.started.mpr (hinvariant.quiet hopen).2
    rw [hclaimed, ClaimResult.claimedIntent, Option.some.injEq] at hresult
    rw [hresult]
    exact (hready.started record hrecord).trans (hreq ▸ hnone)

theorem markReady_bind {intent : ActionIntent} {now : ℕ} {next : Unit → Program β}
    (hlock : .intent i ∈ held) (hstatus : intent.status = .awaitingConsent ∨ intent.status = .ready)
    (hknown : ∀ t, known t → t.intentRow i = some intent)
    (h : ∀ f known', Readied setting c held i intent f → (∀ t, known' t → known t) →
      Wp setting c (next ()) held (fun s => s.setIntent i f) known' post) :
    Wp setting c (markReady i intent now >>= next) held id known post := by
  rw [markReady]
  split
  · rename_i hawaiting
    refine bind_assoc_iff.mpr (updateIntent_locked hlock (fun t ht => ?_) ?_)
    · obtain ⟨r, hr, _⟩ := Option.map_eq_some_iff.mp (hknown t ht)
      exact ⟨r, hr, rfl⟩
    · intro s record known' _ _ _ hknown'
      refine recordActionIntentFact_bind fun known'' hknown'' => ?_
      simp only [setIntent_setIntent, id_eq]
      exact h _ known'' (readied_awaiting hlock hawaiting rfl) fun t ht => hknown' t (hknown'' t ht)
  · rename_i hawaiting
    refine pure_bind_iff.mpr ?_
    have hself : (id : Store → Store) = fun s => s.setIntent i fun r => r := by
      funext s
      rw [setIntent_id]
      rfl
    rw [hself]
    exact h _ known (readied_self (.inl (hstatus.resolve_left hawaiting))) fun _ ht => ht

theorem claimReadyActionIntent_wp {intent : ActionIntent} {connection : Connection}
    (hlock : .intent input.actionIntentId ∈ held)
    (hstatus : intent.status = .awaitingConsent ∨ intent.status = .ready)
    (hknown : ∀ t, known t → Claimable input intent t) :
    Wp setting c (claimReadyActionIntent c intent connection input >>= fun result =>
      pure (some result)) held id known (Commits setting c (ClaimPost setting c input)) := by
  refine bind_assoc_iff.mpr (markReady_bind hlock hstatus (fun t ht => (hknown t ht).row) ?_)
  intro f known₁ hready hknown₁
  refine bind_assoc_iff.mpr (updateIntent_locked hlock (fun t ht => ?_) ?_)
  · obtain ⟨r, hr, hrow⟩ := Option.map_eq_some_iff.mp (hknown t (hknown₁ t ht)).row
    refine ⟨f r, by rw [intent_setIntent_self, hr]; rfl, ?_⟩
    rcases hready.status r hrow with h | h
    · exact decide_eq_true h
    · rw [h.1] at hstatus
      simp at hstatus
  · intro s record known₂ _ hs hrecord hknown₂
    refine bind_assoc_iff.mpr (recordActionIntentFact_bind fun known₃ hknown₃ => ?_)
    simp only [setIntent_setIntent]
    obtain ⟨r, hr, hrow⟩ := Option.map_eq_some_iff.mp (hknown s (hknown₁ s hs)).row
    rw [intent_setIntent_self, hr, Option.map_some, Option.some.injEq] at hrecord
    subst hrecord
    refine claim_commits hlock hready ?_ hrow rfl (fun _ _ _ => hstatus)
      (fun s r => ⟨.single (.fact _ rfl), rfl, rfl, rfl⟩)
      fun t ht => hknown t (hknown₁ t (hknown₂ t (hknown₃ t ht)))
    intro hexecuting
    rw [hexecuting] at hstatus
    simp at hstatus

theorem recoverExecutingActionIntent_wp {authority : LockedAuthority}
    (hlock : .intent input.actionIntentId ∈ held)
    (hstatus : authority.intent.status = .executing)
    (hknown : activeExecutionClaim authority.execution input = true →
      ∀ t, known t → Claimable input authority.intent t) :
    Wp setting c (recoverExecutingActionIntent c authority input >>= fun result =>
      pure (some result)) held id known (Commits setting c (ClaimPost setting c input)) := by
  have hrefused : ∀ known' : Store → Prop, Commits setting c (ClaimPost setting c input) held id
      known' (some .inProgress) := fun known' s _ _ =>
    ⟨Move.refl, fun t _ => claimPost_none rfl⟩
  rw [recoverExecutingActionIntent]
  split
  · exact hrefused known
  rename_i hother
  split
  · exact hrefused known
  rename_i hactive
  have hclaimable := hknown (by simpa using hactive)
  refine bind_assoc_iff.mpr (currentConsent_bind ?_ ?_)
  · intro known' _
    split
    · exact halt_bind (by decide)
    · simp only [if_true]
      refine failRecoveredActionIntent_bind ?_
      intro result held' pending' known'' hresult hmove s hinv hs
      exact ⟨hmove s hinv hs, fun t _ => claimPost_none hresult⟩
  · intro conn d reviewer session s₁ s₂ known' hread hknown'
    split
    · exact halt_bind (by decide)
    · rename_i priorClaimId hprior
      simp only [Bool.true_eq_false, if_false]
      refine bind_assoc_iff.mpr (updateIntent_locked hlock (fun t ht => ?_) ?_)
      · obtain ⟨r, hr, hrow⟩ :=
          Option.map_eq_some_iff.mp (hclaimable t (hknown' t ht).1).row
        exact ⟨r, hr, by simp [hrow, hstatus, hprior]⟩
      · intro s record known'' _ hs hrecord hknown''
        rw [hread.connection]
        obtain ⟨r, hr, hrow⟩ :=
          Option.map_eq_some_iff.mp (hclaimable s (hknown' s hs).1).row
        rw [id_eq, hr, Option.some.injEq] at hrecord
        subst hrecord
        refine claim_commits hlock (readied_self (.inr hstatus)) (fun _ => hother) hrow rfl
          (fun _ _ h => by cases h) (fun s r => ⟨.refl, rfl, rfl, rfl⟩) fun t ht => hclaimable t (hknown' t (hknown'' t ht)).1

theorem lease_of_active {execution : Option Execution}
    (h : activeExecutionClaim execution input = true) :
    ∃ e, execution = some e ∧ e.leasedBy = some input.executionClaimId := by
  cases execution with
  | none => cases h
  | some e =>
    simp only [activeExecutionClaim, decide_eq_true_eq] at h
    exact ⟨e, rfl, (lease_of_valid h.2).1⟩

theorem open_status {intent : ActionIntent} (hopen : ¬ terminalActionIntent intent = true)
    (hstatus : intent.status ≠ .executing) :
    intent.status = .awaitingConsent ∨ intent.status = .ready := by
  cases h : intent.status <;> simp_all [terminalActionIntent]

theorem claimApprovedActionIntent_triple {pre : Store → Prop} :
    Triple setting c pre (claimApprovedActionIntent c input) (ClaimPost setting c input) := by
  have hrefused : ∀ (held' : Set Lock) (known' : Store → Prop) (result : ClaimResult),
      result.claimedIntent = none →
      Commits setting c (ClaimPost setting c input) held' id known' (some result) :=
    fun held' known' result hresult s _ _ => ⟨Move.refl, fun t _ => claimPost_none hresult⟩
  have habsent : ∀ (held' : Set Lock) (known' : Store → Prop),
      Commits setting c (ClaimPost setting c input) held' id known' none :=
    fun held' known' s _ _ => ⟨Move.refl, fun t _ =>
      ⟨fun intent hintent => (by cases hintent), fun intent connection h => by cases h⟩⟩
  have hended : ∀ (held' : Set Lock) (known' : Store → Prop) (row : ActionIntent),
      Commits setting c (ClaimPost setting c input) held' id known'
        (some (if row.status = .cancelled then .cancelled else .terminal row)) := by
    intro held' known' row
    refine hrefused held' known' _ ?_
    split <;> rfl
  refine Discipline.Triple.transaction (select_bind fun s₀ known₀ hinv₀ _ hknown₀ => ?_)
  simp only [id_eq]
  split
  · exact habsent _ _
  rename_i snapshot hsnapshot
  split
  · exact hended _ _ _
  refine select_bind fun s₁ known₁ hinv₁ hs₁ hknown₁ => ?_
  simp only [id_eq]
  split
  · exact hrefused _ _ _ rfl
  rename_i hdecision
  obtain ⟨d, hd⟩ := Option.ne_none_iff_exists'.mp hdecision
  refine lockAuthority_bind fun s₂ subject environment connection request held₂ known₂ hinv₂ hs₂
    _ hlocked hactor hknown₂ => ?_
  refine lockRow_any fun s₃ held₃ known₃ _ _ hsub₃ hlock₃ hknown₃ => ?_
  refine select_bind fun s₄ known₄ _ _ hknown₄ => ?_
  refine lockRow_bind ?_ ?_
  · intro s₅ known₅ _ _ _ _
    exact habsent _ _
  intro s₅ intent known₅ _ hs₅ hintent hknown₅
  simp only
  have hclaimable : activeExecutionClaim (s₃.execution snapshot.executionId) input = true →
      ∀ t, known₅ t → Claimable input intent t := by
    intro hactive t ht
    have hs₄' := (hknown₅ t ht).1
    have hs₃' := (hknown₄ t hs₄').1
    have hs₁' := (hknown₂ t (hknown₃ t hs₃').1).1
    have hs₀' := (hknown₁ t hs₁').1
    have hrow := Rely.intentRow (hknown₅ t ht).2 (by simp) hintent
    obtain ⟨r, hr, hreq⟩ := Option.map_eq_some_iff.mp hrow
    have hsame := (hknown₀ t hs₀').2.row_invocation hsnapshot hr
    rw [hreq] at hsame
    obtain ⟨e, he, hleased⟩ := lease_of_active hactive
    refine ⟨hrow, ⟨e, ?_, hleased⟩, ?_⟩
    · rw [show intent.executionId = snapshot.executionId from congrArg Invocation.executionId hsame,
        Store.execution, (hknown₃ t hs₃').2.execution (hlock₃ e he)]
      exact he
    · rw [show intent.approvalRequestId = snapshot.approvalRequestId from
        congrArg Invocation.approvalRequestId hsame,
        (hknown₁ t hs₁').2.single_decision hinv₁ hd]
      simp
  split
  · exact hended _ _ _
  rename_i hopen
  split
  · rename_i hexecuting
    exact recoverExecutingActionIntent_wp (by simp) hexecuting hclaimable
  rename_i hnotExecuting
  split
  · exact hrefused _ _ _ rfl
  refine currentConsent_bind ?_ ?_
  · intro known₆ _
    rw [if_pos (.inl rfl)]
    refine cancelUnauthorizedActionIntent_bind fun result held' pending' known' hresult hmove => ?_
    intro s hinv hs
    exact ⟨hmove s hinv hs, fun t _ => claimPost_none hresult⟩
  intro conn d' reviewer session s₆ s₇ known₆ hread hknown₆
  split
  · refine cancelUnauthorizedActionIntent_bind fun result held' pending' known' hresult hmove => ?_
    intro s hinv hs
    exact ⟨hmove s hinv hs, fun t _ => claimPost_none hresult⟩
  rename_i hactive
  rw [show connection = some conn from hread.connection]
  refine claimReadyActionIntent_wp (by simp) (open_status hopen hnotExecuting) fun t ht =>
    hclaimable (by simpa using hactive) t (hknown₆ t ht).1

end Claim
end Linea.Consent
