import Linea.ConsentDispatch
import Linea.ConsentIssuing

/-! An attempt of the gateway at a side effect, from the look at the intent to the provider's answer,
in a system where nobody else creates and dispatches intents. What an attempt knows between two
transactions is a fact that all commits keep; only that nothing has been dispatched under its claim
is a fact of the claim's owner alone. -/
namespace Linea.Consent
variable {setting : Setting} {c : Client} {held : Set Lock} {known : Store → Prop}
  {pending : Store → Store} {α β : Type} {i : String} {s t : Store} {r r' : IntentRecord}

section Facts

theorem IntentStep.claims_mono {d : Client} (h : IntentStep setting d held s i r r') :
    ∀ p ∈ r.claims, p ∈ r'.claims := by
  cases h with
  | claim attempt now => exact fun p hp => List.mem_append_left _ hp
  | fact => exact fun p hp => hp
  | ready => exact fun p hp => hp
  | dispatch => exact fun p hp => hp
  | call => exact fun p hp => hp
  | settle => exact fun p hp => hp
  | withdraw => exact fun p hp => hp

theorem steps_claims {d : Client} (h : Relation.ReflTransGen (IntentStep setting d held s i) r r') :
    ∀ p ∈ r.claims, p ∈ r'.claims := by
  induction h with
  | refl => exact fun p hp => hp
  | tail _ hstep ih => exact fun p hp => hstep.claims_mono p (ih p hp)

/-- The invocation of an intent as the attempt has read it, and the claims it knows to be made. -/
def Knows (i : String) (invocation : Invocation) (claims : List (String × Client)) (s : Store) :
    Prop :=
  ∃ r, s.intent i = some r ∧ r.row.toInvocation = invocation ∧ ∀ p ∈ claims, p ∈ r.claims

theorem knows_permanent {invocation : Invocation} {claims : List (String × Client)} :
    (discipline setting).Permanent (Knows i invocation claims) := by
  rintro d held' s s' _ ⟨r, hr, hsame, hclaims⟩ hmove
  obtain ⟨r', hr', hsteps⟩ := Move.intent_some hmove hr
  exact ⟨r', hr', (steps_invocation hsteps).trans hsame, fun p hp =>
    steps_claims hsteps p (hclaims p hp)⟩

theorem permanent_and {P : Prop} {fact : Store → Prop} (h : (discipline setting).Permanent fact) :
    (discipline setting).Permanent fun s => P ∧ fact s :=
  fun hinv hs hmove => ⟨hs.1, h hinv hs.2 hmove⟩

/-- The gateway's operation is the one the intent names, its schema gives back the parameters of the
envelope, and the envelope has the digest that was consented to. -/
structure Executable (setting : Setting) (operation : SideEffectOperation)
    (invocation : Invocation) : Prop where
  registered : registeredSideEffectOperation setting.registry invocation.operationId = some operation
  schema : operation.parametersSchema invocation.canonicalEnvelope.parameters =
    some invocation.canonicalEnvelope.parameters
  digest : setting.hashing.digestActionIntent invocation.canonicalEnvelope =
    some invocation.canonicalDigest

/-- What an attempt knows of an intent that it has claimed. -/
def Holds (setting : Setting) (c : Client) (operation : SideEffectOperation) (i : String)
    (claimed : ActionIntent) (executionClaimId : String) (s : Store) : Prop :=
  Executable setting operation claimed.toInvocation ∧
    Knows i claimed.toInvocation [(executionClaimId, c)] s

theorem holds_permanent {operation : SideEffectOperation} {claimed : ActionIntent}
    {executionClaimId : String} :
    (discipline setting).Permanent (Holds setting c operation i claimed executionClaimId) :=
  permanent_and knows_permanent

/-- An operation that may be repeated needs nothing but the claim. -/
theorem Holds.claimedBy {operation : SideEffectOperation} {claimed : ActionIntent}
    {executionClaimId : String} (h : Holds setting c operation i claimed executionClaimId s)
    (hsafe : operation.retrySafety ≠ .none) : ClaimedBy setting c i executionClaimId s := by
  obtain ⟨hexecutable, r, hr, hsame, hclaims⟩ := h
  refine ⟨r, hr, hclaims _ (List.mem_singleton_self _), fun hunrepeatable _ => ?_⟩
  obtain ⟨operation', hregistered, hnone⟩ := hunrepeatable
  rw [show r.row.operationId = claimed.operationId from congrArg Invocation.operationId hsame,
    hexecutable.registered, Option.some.injEq] at hregistered
  exact absurd (hregistered ▸ hnone) hsafe

end Facts

section Attempts
variable {operation : SideEffectOperation} {claimed : ActionIntent} {executionClaimId : String}
  {pre : Store → Prop} {post : α → Store → Prop}

theorem halt_triple {message : String} (h : message ≠ decisionExists) :
    Triple setting c pre (.halt message : Program α) post :=
  Discipline.Triple.halt h

/-- Whatever a provider says, the gateway's own error is another one than the repository's. -/
theorem connectorGatewayError_ne (message : String) :
    connectorGatewayError message ≠ decisionExists := fun heq => by
  unfold connectorGatewayError decisionExists at heq
  have htext := congrArg String.toList heq
  simp only [String.toList_append, String.reduceToList, List.cons_append, List.cons.injEq] at htext
  exact absurd htext.1 (by decide)

theorem gatewayError_triple {message : String} :
    Triple setting c pre (.halt (connectorGatewayError message) : Program α) post :=
  halt_triple (connectorGatewayError_ne message)

theorem receiving_triple {view : Reply → α} :
    Triple setting c pre (Tx.receiving view) fun _ => pre :=
  Discipline.Triple.receiving fun _ _ h => h

/-- Nothing follows a failure: the attempt ends with it. -/
theorem failSideEffect_triple {error : ConnectorError}
    {status : FailureStatus} :
    Triple setting c pre (failSideEffect i executionClaimId error status : Program α) post := by
  refine Discipline.Triple.bind receiving_triple fun failedAt => ?_
  refine Discipline.Triple.bind failActionIntent_triple fun failed => ?_
  cases failed with
  | none => exact halt_triple (by decide)
  | some _ => exact gatewayError_triple

/-- The call is recorded for a dispatch of the attempt, with what the intent carries. -/
theorem call_step {call : ProviderCall} (hclient : call.client = c)
    (hdispatched : DispatchedBy c i call.attempt s) (hr : s.intent i = some r)
    (hparameters : call.parameters = r.row.canonicalEnvelope.parameters)
    (hkey : call.idempotencyKey = r.row.invocationIdempotencyKey)
    (hdigest : setting.hashing.digestActionIntent r.row.canonicalEnvelope =
      some r.row.canonicalDigest) :
    IntentStep setting c held s i r (r.withCall call) := by
  obtain ⟨r', d, hr', hd, hdc, hda, hfree⟩ := hdispatched
  rw [hr, Option.some.injEq] at hr'
  subst hr'
  exact .call call ⟨d, hd, hdc, hda⟩ hclient hfree hparameters hkey hdigest

theorem callProvider_triple {call : ProviderCall} (hclient : call.client = c)
    (hkey : call.idempotencyKey = claimed.invocationIdempotencyKey)
    (hparameters : operation.parametersSchema claimed.canonicalEnvelope.parameters =
      some call.parameters) :
    Triple setting c (fun s => DispatchedBy c i call.attempt s ∧
        Holds setting c operation i claimed executionClaimId s)
      (callProvider i call) fun _ => Holds setting c operation i claimed executionClaimId := by
  have hcommit : Triple setting c (fun s => DispatchedBy c i call.attempt s ∧
      Holds setting c operation i claimed executionClaimId s)
      (Tx.transaction (Tx.update (Store.setIntent i (.withCall call))))
      fun _ => Holds setting c operation i claimed executionClaimId := by
    refine Discipline.Triple.transaction ?_
    rintro s hinv ⟨hdispatched, hholds⟩
    have hmove : Move setting c ∅ s (s.setIntent i (.withCall call)) := by
      obtain ⟨hexecutable, r, hr, hsame, _⟩ := hholds
      have henvelope : r.row.canonicalEnvelope = claimed.canonicalEnvelope :=
        congrArg Invocation.canonicalEnvelope hsame
      refine Move.ofIntent fun r' hr' => .single (call_step hclient hdispatched hr' ?_ ?_ ?_)
      all_goals
        rw [hr, Option.some.injEq] at hr'
        subst hr'
      · have hschema := hexecutable.schema
        rw [hparameters, Option.some.injEq] at hschema
        rw [henvelope]
        exact hschema
      · rw [hkey]
        exact (congrArg Invocation.invocationIdempotencyKey hsame).symm
      · rw [henvelope, show r.row.canonicalDigest = claimed.canonicalDigest from
          congrArg Invocation.canonicalDigest hsame]
        exact hexecutable.digest
    exact ⟨hmove, fun t hrely => holds_permanent.rely hrely (holds_permanent hinv hholds hmove)⟩
  exact Discipline.Triple.bind hcommit fun _ => Discipline.Triple.receiving fun _ _ h => h

/-- What an attempt knows before it dispatches. -/
def Ready (setting : Setting) (c : Client) (operation : SideEffectOperation) (i : String)
    (claimed : ActionIntent) (executionClaimId : String) (s : Store) : Prop :=
  ClaimedBy setting c i executionClaimId s ∧ Holds setting c operation i claimed executionClaimId s

theorem dispatchAttempt_triple {call : SideEffectCall}
    {failed : ConnectorError → Bool → Program Value}
    (hparameters : call.operation.parametersSchema call.claimed.canonicalEnvelope.parameters =
      some call.parameters)
    (hfailed : ∀ error aborted, Triple setting call.client
      (Holds setting call.client call.operation call.actionIntentId call.claimed
        call.executionClaimId) (failed error aborted) fun _ _ => True) :
    Triple setting call.client
      (Ready setting call.client call.operation call.actionIntentId call.claimed
        call.executionClaimId) (dispatchAttempt call failed) fun _ _ => True := by
  refine Discipline.Triple.bind receiving_triple fun now => ?_
  refine Discipline.Triple.bind (Discipline.Triple.frame holds_permanent
    (beginActionIntentDispatch_triple fun _ _ h => h)) fun dispatch => ?_
  cases dispatch with
  | none => exact halt_triple (by decide)
  | some intent =>
    refine Discipline.Triple.bind (Discipline.Triple.mono
      (callProvider_triple rfl rfl hparameters) (fun s hs => ⟨hs.1 intent rfl, hs.2⟩)
      fun _ _ h => h) fun answer => ?_
    cases answer with
    | error error =>
      cases error with
      | none => exact halt_triple (by decide)
      | some error =>
        exact Discipline.Triple.bind (Discipline.Triple.receiving fun _ _ h => h)
          fun aborted => hfailed error aborted
    | ok result =>
      refine Discipline.Triple.bind receiving_triple fun completedAt => ?_
      refine Discipline.Triple.bind completeActionIntent_triple fun completed => ?_
      cases completed with
      | none => exact halt_triple (by decide)
      | some _ => exact Discipline.Triple.pure fun _ h => h

/-- The retries: another dispatch follows only for an operation that may be repeated. -/
theorem dispatchLoop_triple {call : SideEffectCall}
    (hparameters : call.operation.parametersSchema call.claimed.canonicalEnvelope.parameters =
      some call.parameters) (retries : ℕ) :
    Triple setting call.client
      (Ready setting call.client call.operation call.actionIntentId call.claimed
        call.executionClaimId) (dispatchLoop call retries) fun _ _ => True := by
  induction retries with
  | zero =>
    exact dispatchAttempt_triple hparameters fun _ _ => failSideEffect_triple
  | succ retries ih =>
    refine dispatchAttempt_triple hparameters fun error aborted => ?_
    split
    · rename_i hretry
      simp only [retryProviderRequest, decide_eq_true_eq] at hretry
      refine Discipline.Triple.mono ih (fun s hs => ⟨hs.claimedBy ?_, hs⟩) fun _ _ h => h
      rw [hretry.2.1]
      decide
    · exact failSideEffect_triple

theorem checkPreconditions_triple :
    Triple setting c pre (checkPreconditions claimed i executionClaimId) fun _ => pre := by
  unfold checkPreconditions
  split
  · refine Discipline.Triple.bind receiving_triple fun valid => ?_
    match valid with
    | none => exact failSideEffect_triple
    | some true => exact Discipline.Triple.pure fun _ h => h
    | some false => exact failSideEffect_triple
  · exact Discipline.Triple.pure fun _ h => h

theorem invokeSideEffect_triple {installationId : Option String} :
    Triple setting c (Ready setting c operation i claimed executionClaimId)
      (invokeSideEffect c operation i claimed installationId executionClaimId)
      fun _ _ => True := by
  unfold invokeSideEffect
  split
  · rename_i parameters _ hparameters _
    refine Discipline.Triple.bind (checkPreconditions_triple) fun _ => ?_
    split
    · exact halt_triple (by decide)
    · rename_i requiredScopes _
      exact @dispatchLoop_triple setting
        ⟨c, operation, i, claimed, parameters, requiredScopes, executionClaimId⟩ hparameters _
  · exact halt_triple (by decide)

/-- What an attempt knows right after its claim. -/
structure Taken (setting : Setting) (c : Client) (operation : SideEffectOperation) (i : String)
    (claimed : ActionIntent) (recovered : Bool) (executionClaimId : String) (s : Store) : Prop where
  executable : Executable setting operation claimed.toInvocation
  invocation : ∃ r, s.intent i = some r ∧ r.row.toInvocation = claimed.toInvocation
  free : claimed.dispatchStartedAt = none ∨ ¬ Unrepeatable setting.registry claimed →
    ClaimedBy setting c i executionClaimId s
  first : recovered = false → claimed.dispatchStartedAt = none

/-- An attempt goes on to dispatch under a claim that was taken over only where the first attempt
cannot have dispatched, or may have. -/
theorem Taken.ready {recovered : Bool}
    (h : Taken setting c operation i claimed recovered executionClaimId s)
    (hsafe : ¬ (recovered = true ∧ claimed.dispatchStartedAt.isSome = true ∧
      operation.retrySafety = .none)) :
    Ready setting c operation i claimed executionClaimId s := by
  have hclaimed : ClaimedBy setting c i executionClaimId s := by
    refine h.free ?_
    by_cases hstarted : claimed.dispatchStartedAt = none
    · exact .inl hstarted
    · refine .inr fun hunrepeatable => hsafe ⟨?_, ?_, ?_⟩
      · rw [← Bool.not_eq_false]
        exact fun hrecovered => hstarted (h.first hrecovered)
      · exact Option.isSome_iff_ne_none.mpr hstarted
      · obtain ⟨operation', hregistered, hnone⟩ := hunrepeatable
        have hsame := h.executable.registered
        rw [hregistered, Option.some.injEq] at hsame
        exact hsame ▸ hnone
  refine ⟨hclaimed, h.executable, ?_⟩
  obtain ⟨r, hr, hsame⟩ := h.invocation
  obtain ⟨r', hr', hin, _⟩ := hclaimed
  rw [hr, Option.some.injEq] at hr'
  subst hr'
  refine ⟨r, hr, hsame, fun p hp => ?_⟩
  rw [List.mem_singleton] at hp
  exact hp ▸ hin

theorem dispatchClaimedSideEffect_triple {recovered : Bool} :
    Triple setting c (Taken setting c operation i claimed recovered executionClaimId)
      (dispatchClaimedSideEffect c operation i claimed recovered executionClaimId)
      fun _ _ => True := by
  unfold dispatchClaimedSideEffect
  split
  · exact failSideEffect_triple
  rename_i hsafe
  refine Discipline.Triple.bind receiving_triple fun credential => ?_
  cases credential with
  | none =>
    dsimp only
    split <;> exact failSideEffect_triple
  | some installationId =>
    dsimp only
    split
    · exact halt_triple (by decide)
    · refine Discipline.Triple.bind (Discipline.Triple.mono (invokeSideEffect_triple)
        (fun s hs => hs.ready hsafe) fun _ _ h => h) fun result => ?_
      exact Discipline.Triple.pure fun _ h => h

end Attempts

section Consents
variable {operation : SideEffectOperation} {pre : Store → Prop}

/-- The row that was read is the intent's, and its envelope was made by the operation it names. -/
structure Shown (setting : Setting) (consent : ActionIntentConsent) (canonicalDigest : String)
    (s : Store) : Prop where
  row : ∃ r, s.intent consent.id = some r ∧ r.row.toInvocation = consent.intent.toInvocation
  canonical : Canonical setting consent.intent
  digest : consent.intent.canonicalDigest = canonicalDigest

theorem shown_permanent {consent : ActionIntentConsent} {canonicalDigest : String} :
    (discipline setting).Permanent (Shown setting consent canonicalDigest) := by
  rintro d held' s s' _ ⟨⟨r, hr, hsame⟩, hcanonical, hdigest⟩ hmove
  obtain ⟨r', hr', hsteps⟩ := Move.intent_some hmove hr
  exact ⟨⟨r', hr', (steps_invocation hsteps).trans hsame⟩, hcanonical, hdigest⟩

theorem getActionIntentConsent_some {input : SideEffectInput} {consent : ActionIntentConsent}
    (h : getActionIntentConsent input s = some consent) :
    ∃ r, s.intent consent.id = some r ∧ r.row = consent.intent ∧
      r.row.executionId = input.executionId ∧ r.row.nodeId = input.nodeId ∧
      r.row.invocationIdempotencyKey = input.invocationIdempotencyKey := by
  simp only [getActionIntentConsent, Option.bind_eq_bind, Option.bind_eq_some_iff] at h
  obtain ⟨⟨id, intent⟩, hfound, record, _, hconsent⟩ := h
  obtain ⟨hfind, _⟩ := Option.filter_eq_some_iff.mp hfound
  rw [Store.findIntent, Option.map_eq_some_iff] at hfind
  obtain ⟨p, hp, hpi⟩ := hfind
  obtain ⟨rfl, rfl⟩ := Prod.mk.inj hpi
  rw [Option.some.injEq] at hconsent
  subst hconsent
  have hmatch := List.find?_some hp
  simp only [decide_eq_true_eq] at hmatch
  exact ⟨p.2, OrderedMap.get?_iff_mem.mpr (List.mem_of_find?_eq_some hp), rfl, hmatch⟩

theorem Inv.shown (hinv : Inv setting s) (hstrict : setting.strict = true) {input : SideEffectInput}
    {consent : ActionIntentConsent} (h : getActionIntentConsent input s = some consent) :
    Shown setting consent consent.intent.canonicalDigest s := by
  obtain ⟨r, hr, hrow, _⟩ := getActionIntentConsent_some h
  exact ⟨⟨r, hr, by rw [hrow]⟩, hrow ▸ (hinv.records _ r hr).canonical hstrict, rfl⟩

/-- The intent that was recorded for the invocation is the one that is found for it. -/
theorem Inv.shown_recorded (hinv : Inv setting s) (hstrict : setting.strict = true)
    {input : SideEffectInput} {created : CreateActionIntentInput} {consent : ActionIntentConsent}
    (h : getActionIntentConsent input s = some consent) (hrecorded : Recorded created s)
    (hsame : created.executionId = input.executionId ∧ created.nodeId = input.nodeId ∧
      created.invocationIdempotencyKey = input.invocationIdempotencyKey) :
    Shown setting consent created.canonicalDigest s := by
  obtain ⟨r, hr, hrow, hexecution, hnode, hkey⟩ := getActionIntentConsent_some h
  obtain ⟨i, r', hr', hexecution', hnode', hkey', hdigest⟩ := hrecorded
  have hi : i = consent.id := hinv.unique _ _ _ _ hr' hr
    (by rw [hexecution', hexecution, hsame.1]) (by rw [hnode', hnode, hsame.2.1])
    (by rw [hkey', hkey, hsame.2.2])
  subst hi
  rw [hr, Option.some.injEq] at hr'
  subst hr'
  exact ⟨⟨r, hr, by rw [hrow]⟩, hrow ▸ (hinv.records _ r hr).canonical hstrict, hrow ▸ hdigest⟩

/-- The envelope of a prepared side effect is the operation's. -/
structure Prepares (setting : Setting) (operation : SideEffectOperation)
    (prepared : PreparedSideEffect) : Prop where
  digest : setting.hashing.digestActionIntent prepared.envelope = some prepared.canonicalDigest
  named : prepared.envelope.operation = operation.id
  schema : operation.parametersSchema prepared.envelope.parameters =
    some prepared.envelope.parameters

theorem prepareSideEffect_some {connectionId : String} {operationInput : Value}
    {prepared : PreparedSideEffect}
    (h : prepareSideEffect setting.hashing operation connectionId operationInput = some prepared) :
    Prepares setting operation prepared := by
  simp only [prepareSideEffect, Option.bind_eq_bind, Option.bind_eq_some_iff] at h
  obtain ⟨normalized, _, parameters, hparameters, preconditions, _, digest, hdigest, h⟩ := h
  split at h
  · cases h
    exact ⟨hdigest, rfl, operation.parametersSchema_again hparameters⟩
  · cases h

/-- What is consented to is what the operation would do. -/
theorem Shown.executable {consent : ActionIntentConsent} {prepared : PreparedSideEffect}
    (h : Shown setting consent prepared.canonicalDigest s) (hprepared : Prepares setting operation prepared)
    (hregistered : registeredSideEffectOperation setting.registry operation.id = some operation)
    (hverified : verifyConsentDigest setting.hashing operation consent = true) :
    Executable setting operation consent.intent.toInvocation := by
  simp only [verifyConsentDigest, decide_eq_true_eq] at hverified
  obtain ⟨_, _, hdigest, _⟩ := hverified
  have hsame := setting.hashing.digest_operation hdigest (h.digest ▸ hprepared.digest)
  have hid : consent.intent.operationId = operation.id := by
    rw [← h.canonical.1, hsame, hprepared.named]
  have hoperation : registeredSideEffectOperation setting.registry consent.intent.operationId =
      some operation := by
    rw [hid]
    exact hregistered
  exact ⟨hoperation, h.canonical.2.1 operation hoperation, hdigest⟩

theorem Executable.congr {invocation invocation' : Invocation}
    (h : Executable setting operation invocation) (hsame : invocation' = invocation) :
    Executable setting operation invocation' := hsame ▸ h

/-- The claim of an intent that was read, in the store in which it is known to be made. -/
theorem taken_of_claim (hstrict : setting.strict = true) {consent : ActionIntentConsent}
    {canonicalDigest : String} {intent : ActionIntent} {input : ClaimInput} {recovered : Bool}
    (hshown : Shown setting consent canonicalDigest s)
    (hexecutable : Executable setting operation consent.intent.toInvocation)
    (hid : input.actionIntentId = consent.id) (hclaimed : Claimed setting c input intent s)
    (hfirst : recovered = false → intent.dispatchStartedAt = none) :
    Taken setting c operation consent.id intent recovered input.executionClaimId s := by
  obtain ⟨⟨r, hr, hsame⟩, hfree⟩ := hclaimed
  obtain ⟨r', hr', hsame'⟩ := hshown.row
  rw [hid] at hr hfree
  rw [hr, Option.some.injEq] at hr'
  subst hr'
  exact ⟨hexecutable.congr (hsame.symm.trans hsame'), ⟨r, hr, hsame⟩, hfree hstrict, hfirst⟩

end Consents

section Execution
variable {operation : SideEffectOperation} {input : SideEffectInput} {pre : Store → Prop}

theorem select_triple {view : Store → α} :
    Triple setting c pre (Tx.select view) fun _ _ => True :=
  Discipline.Triple.select fun _ _ _ _ _ _ => trivial

/-- What a look at the intent shows, as long as the attempt goes on. -/
theorem getActionIntentConsent_triple {canonicalDigest : ActionIntentConsent → String}
    (h : ∀ s consent, Inv setting s → pre s → getActionIntentConsent input s = some consent →
      Shown setting consent (canonicalDigest consent) s) :
    Triple setting c pre (Tx.select (getActionIntentConsent input)) fun consent t =>
      ∀ consent', consent = some consent' → Shown setting consent' (canonicalDigest consent') t :=
  Discipline.Triple.select fun s _ hinv hs hrely _ consent' hconsent =>
    shown_permanent.rely hrely (h s consent' hinv hs hconsent)

theorem claimApprovedActionIntent_triple_any (c : Client) {input : ClaimInput} :
    Triple setting c (fun _ => True) (claimApprovedActionIntent c input)
      (ClaimPost setting c input) :=
  claimApprovedActionIntent_triple

theorem resolveTerminalActionIntent_triple {intent : ActionIntent} {consent : ActionIntentConsent} :
    Triple setting c pre (resolveTerminalActionIntent intent consent) fun _ _ => True := by
  unfold resolveTerminalActionIntent
  split
  · exact Discipline.Triple.pure fun _ _ => trivial
  · split
    · exact halt_triple (by decide)
    · exact Discipline.Triple.pure fun _ _ => trivial
  iterate 3
    · split
      · exact halt_triple (by decide)
      · exact gatewayError_triple
  · exact gatewayError_triple

theorem executeApprovedSideEffect_triple (hstrict : setting.strict = true)
    {consent : ActionIntentConsent} {canonicalDigest : String}
    (hexecutable : ∀ s, Shown setting consent canonicalDigest s →
      Executable setting operation consent.intent.toInvocation) :
    Triple setting c (Shown setting consent canonicalDigest)
      (executeApprovedSideEffect c operation input consent) fun _ _ => True := by
  unfold executeApprovedSideEffect
  split
  · exact halt_triple (by decide)
  refine Discipline.Triple.bind receiving_triple fun now => ?_
  refine Discipline.Triple.bind (Discipline.Triple.mono
    (Discipline.Triple.frame shown_permanent (claimApprovedActionIntent_triple_any c))
    (fun s hs => ⟨trivial, hs⟩) fun _ _ h => h) fun claimed => ?_
  split
  · exact halt_triple (by decide)
  · exact halt_triple (by decide)
  · exact halt_triple (by decide)
  · exact halt_triple (by decide)
  · exact resolveTerminalActionIntent_triple
  · refine Discipline.Triple.mono (dispatchClaimedSideEffect_triple) ?_ fun _ _ h => h
    rintro s ⟨hclaim, hshown⟩
    exact taken_of_claim hstrict hshown (hexecutable s hshown) rfl (hclaim.claimed _ rfl)
      fun _ => hclaim.first _ _ rfl
  · refine Discipline.Triple.mono (dispatchClaimedSideEffect_triple) ?_ fun _ _ h => h
    rintro s ⟨hclaim, hshown⟩
    exact taken_of_claim hstrict hshown (hexecutable s hshown) rfl (hclaim.claimed _ rfl) nofun

theorem resolveSideEffectConsent_triple (hstrict : setting.strict = true)
    {consent : ActionIntentConsent} {prepared : PreparedSideEffect}
    (hprepared : Prepares setting operation prepared)
    (hregistered : registeredSideEffectOperation setting.registry operation.id = some operation) :
    Triple setting c (Shown setting consent prepared.canonicalDigest)
      (resolveSideEffectConsent setting.hashing c operation input consent) fun _ _ => True := by
  unfold resolveSideEffectConsent
  split
  · exact Discipline.Triple.pure fun _ _ => trivial
  · exact halt_triple (by decide)
  · exact halt_triple (by decide)
  split
  · exact Discipline.Triple.bind rejectActionIntent_triple fun _ =>
      Discipline.Triple.pure fun _ _ => trivial
  split
  · rename_i hverified
    exact executeApprovedSideEffect_triple hstrict fun s hs =>
      hs.executable hprepared hregistered hverified
  · exact halt_triple (by decide)

theorem createAndResolve_triple (hstrict : setting.strict = true) {prepared : PreparedSideEffect}
    {kind : AuthorizationKind} (hprepared : Prepares setting operation prepared)
    (hregistered : registeredSideEffectOperation setting.registry operation.id = some operation) :
    Triple setting c pre
      (createAndResolve setting.hashing c operation input prepared kind) fun _ _ => True := by
  unfold createAndResolve
  split
  · exact halt_triple (by decide)
  rename_i requiredScopes _
  refine Discipline.Triple.bind receiving_triple fun now => ?_
  refine Discipline.Triple.bind
    (createActionIntent_triple fun _ => ⟨hprepared.named, ?_, hprepared.digest⟩) fun created => ?_
  · intro operation' hoperation
    rw [hregistered, Option.some.injEq] at hoperation
    exact hoperation ▸ hprepared.schema
  have hshown : (∃ i, created = .created i ∨ created = .replay i) → Triple setting c
      (CreatePost
        { workspaceId := input.workspaceId
          executionId := input.executionId
          nodeId := input.nodeId
          connectionId := input.connectionId
          connector := operation.provider
          actionFamily := operation.actionFamily
          requiredScopes := requiredScopes
          operationId := operation.id
          operationRevision := operation.revision
          digestVersion := ACTION_INTENT_DIGEST_VERSION
          canonicalDigest := prepared.canonicalDigest
          canonicalEnvelope := prepared.envelope
          invocationIdempotencyKey := input.invocationIdempotencyKey
          expiresAt := now + 15 * 60000 } created)
      (Tx.select (getActionIntentConsent input)) fun consent s =>
      ∀ consent', consent = some consent' →
        Shown setting consent' prepared.canonicalDigest s := by
    intro hfound
    exact getActionIntentConsent_triple fun s consent hinv hs hconsent =>
      hinv.shown_recorded hstrict hconsent (hs hfound) ⟨rfl, rfl, rfl⟩
  cases created with
  | created i | replay i =>
    refine Discipline.Triple.bind (hshown ⟨i, by simp⟩) fun consent => ?_
    cases consent with
    | none => exact halt_triple (by decide)
    | some consent =>
      exact Discipline.Triple.mono (resolveSideEffectConsent_triple hstrict hprepared hregistered)
        (fun s hs => hs consent rfl) fun _ _ h => h
  | idempotencyConflict => exact halt_triple (by decide)
  | connectionReauthorizationRequired => exact halt_triple (by decide)
  | connectionScopeInsufficient => exact halt_triple (by decide)
  | authorityInvalid => exact halt_triple (by decide)

theorem executeSideEffect_triple (hstrict : setting.strict = true)
    (hregistered : registeredSideEffectOperation setting.registry operation.id = some operation) :
    Triple setting c pre (executeSideEffect setting.hashing c operation input)
      fun _ _ => True := by
  unfold executeSideEffect
  split
  · exact halt_triple (by decide)
  rename_i prepared hprepare
  have hprepared := prepareSideEffect_some hprepare
  refine Discipline.Triple.bind (getActionIntentConsent_triple fun s consent hinv _ hconsent =>
    hinv.shown hstrict hconsent) fun consent => ?_
  cases consent with
  | some consent =>
    dsimp only
    split
    · exact halt_triple (by decide)
    rename_i hsame
    have hdigest : consent.intent.canonicalDigest = prepared.canonicalDigest := by
      by_contra hne
      exact hsame (.inl hne)
    split
    · exact Discipline.Triple.mono (resolveSideEffectConsent_triple hstrict hprepared hregistered)
        (fun s hs => hdigest ▸ hs consent rfl) fun _ _ h => h
    · exact createAndResolve_triple hstrict hprepared hregistered
  | none =>
    refine Discipline.Triple.bind select_triple fun authority => ?_
    cases authority with
    | none => exact halt_triple (by decide)
    | some connection => exact createAndResolve_triple hstrict hprepared hregistered

/-- An attempt of the gateway keeps to the discipline, wherever it ends. -/
theorem execute_triple (hstrict : setting.strict = true) {operationId : String} :
    Triple setting c pre (execute setting.registry setting.hashing c operationId input)
      fun _ _ => True := by
  unfold execute
  split
  · exact halt_triple (by decide)
  rename_i operation hregistered
  have hid : operation.id = operationId := by
    obtain ⟨_, hid⟩ := Option.filter_eq_some_iff.mp hregistered
    exact of_decide_eq_true hid
  refine Discipline.Triple.bind (executeSideEffect_triple hstrict (by rw [hid]; exact hregistered))
    fun _ => Discipline.Triple.pure fun _ h => h

end Execution
end Linea.Consent
