import Linea.SignInChanges

/-! Authorization requests are made, claimed and completed within the agreement. -/
namespace Linea.SignIn
open LockModes Discipline

section Rules

variable {n c : ℕ} {held : Set (Slot Row)} {pending : Store → Store} {known : Store → Prop}
  {β : Type} {post : Set (Slot Row) → (Store → Store) → (Store → Prop) → β → Prop}

/-- The end of a transaction of which nothing needs to be known afterwards. -/
lemma commits_of (h : ∀ s, Inv s → known s → Guarded n c held s (pending s) ∧ Inv (pending s)) :
    ∀ s, Inv s → known s → (discipline n).move c held s (pending s) ∧
      ∀ t, (discipline n).Rely c ∅ (pending s) t → True :=
  fun s hinv hs => ⟨h s hinv hs,fun _ _ => trivial⟩

lemma commits_nothing : ∀ s, Inv s → known s → (discipline n).move c held s s ∧
    ∀ t, (discipline n).Rely c ∅ s t → True :=
  commits_of fun s hinv _ => ⟨Guarded.refl s,hinv⟩

lemma wp_shareEnvironment_bind (hc : c < n) {environmentId : String} {meets : Environment → Bool}
    {next : Option Environment → Program β}
    (hnone : ∀ held' known', held ⊆ held' → (∀ t, known' t → known t) →
      (discipline n).wp c (next none) held' id known' post)
    (hsome : ∀ environment held' known', held ⊆ held' →
      Shares n c held' (.environment environmentId) → meets environment = true →
      (∀ t, known' t → known t ∧ t.environments environmentId = some environment) →
      (discipline n).wp c (next (some environment)) held' id known' post) :
    (discipline n).wp c (shareEnvironment c environmentId meets >>= next) held id known post := by
  refine wp_lockWhere_cases hnone ?_
  intro _ environment s held' known' _ _ hagain hsub hlocks hknown
  obtain ⟨hrow,hmeets⟩ := Option.filter_eq_some_iff.mp hagain
  have hshare : Shares n c held' (.environment environmentId) := shares_of_mem hc hlocks
  refine hsome environment held' known' hsub hshare hmeets fun t ht => ⟨(hknown t ht).1,?_⟩
  rw [rely_environment (hknown t ht).2 hshare]
  exact hrow

lemma wp_newKey_bind (hc : c < n) (extra : List String)
    (hpending : ∀ s, (pending s).issued = s.issued ++ extra) {next : String → Program β}
    (h : ∀ id held' known', held ⊆ held' → Excludes n held' (.key id) →
      (∀ t, known' t → known t ∧ id ∉ (pending t).issued) →
      (discipline n).wp c (next id) held' pending known' post) :
    (discipline n).wp c (newKey n >>= next) held pending known post := by
  refine wp_bind.mpr (wp_receiving_bind fun reply => ?_)
  refine wp_lock_bind fun s held' known' _ _ hsub hlocks hknown => ?_
  have hlock : Excludes n held' (.key reply.id) := excludes_of_mem hlocks
  by_cases htaken : reply.id ∈ (pending s).issued
  · simp only [htaken,decide_true,if_true]
    trivial
  · simp only [htaken,decide_false,Bool.false_eq_true,if_false]
    refine h reply.id held' known' hsub hlock fun t ht => ⟨(hknown t ht).1,?_⟩
    rw [hpending,List.mem_append,not_or] at htaken ⊢
    exact ⟨rely_key (hknown t ht).2 (hlock.shares hc) htaken.1,htaken.2⟩

/-- A request that is locked stands. -/
lemma request_stands (hc : c < n) {s t : Store} {id : String} {row : AuthorizationRequest}
    (hinv : Inv s) (hrow : s.requests id = some row) (hlock : Excludes n held (.request id))
    (h : Rely n c held s t) : t.requests id = some row :=
  (rely_row Store.requests .request (fun hmove => hmove.requests) h
    (hlock.shares hc) (hinv.requestIssued id row hrow)).trans hrow

lemma exchange_stands (hc : c < n) {s t : Store} {id : String} {row : IdentityExchange}
    (hinv : Inv s) (hrow : s.exchanges id = some row) (hlock : Excludes n held (.exchange id))
    (h : Rely n c held s t) : t.exchanges id = some row :=
  (rely_row Store.exchanges .exchange (fun hmove => hmove.exchanges) h
    (hlock.shares hc) (hinv.exchangeIssued id row hrow)).trans hrow

lemma session_stands (hc : c < n) {s t : Store} {id : String} {row : EndUserSession}
    (hinv : Inv s) (hrow : s.sessions id = some row) (hlock : Excludes n held (.session id))
    (h : Rely n c held s t) : t.sessions id = some row :=
  (rely_row Store.sessions .session (fun hmove => hmove.sessions) h
    (hlock.shares hc) (hinv.sessionIssued id row hrow)).trans hrow

lemma subject_stands {s t : Store} {id : String} {row : ExternalSubject}
    (hinv : Inv s) (hrow : s.externalSubjects id = some row)
    (hlock : Shares n c held (.subject id)) (h : Rely n c held s t) :
    t.externalSubjects id = some row :=
  (rely_row Store.externalSubjects .subject (fun hmove => hmove.subjects) h
    hlock (hinv.subjectIssued id row hrow)).trans hrow

end Rules

section Requests

variable {n c : ℕ} (hc : c < n)
include hc

theorem createAuthorizationRequest_keeps (input : CreateAuthorizationRequestInput) :
    (discipline n).Triple c (fun _ => True) (createAuthorizationRequest n c input)
      fun _ _ => True := by
  refine Triple.transaction (wp_shareEnvironment_bind hc (fun _ _ _ _ => ?_) ?_)
  · exact commits_nothing
  intro environment held known _ hshare henabled hknown
  cases htrust : environment.trust with
  | none =>
    simp only [htrust]
    exact commits_nothing
  | some trust =>
    simp only [htrust]
    split
    · exact commits_nothing
    refine wp_newKey_bind hc [] (fun _ => (List.append_nil _).symm) ?_
    intro id held' known' hsub hkey hknown'
    refine commits_of fun s hinv hs => ?_
    have hnew := (hknown' s hs).2
    refine ⟨(guarded_setRequest (.inl ⟨hnew,hshare.mono hsub⟩)).trans (guarded_issue hkey),?_⟩
    have hunclaimed (code verifier : String) (hfact : .claimed id code verifier ∈ s.facts) : False :=
      hnew (hinv.claimed id code verifier hfact).1
    refine (hinv.issue id).setRequest (List.mem_append_right _ (List.mem_singleton_self id))
      ?_ ?_ ?_
    · exact fun code verifier hfact => (hunclaimed code verifier hfact).elim
    · exact fun code verifier exchangeId issuer trust hfact => (hunclaimed code verifier
        (hinv.completed id code verifier exchangeId issuer trust hfact).1).elim
    · exact fun _ => rfl

/-- What a client knows of a request that it has claimed, as long as it does not look again. -/
def Granted (input : ExchangeInput) : Option Consumed → Store → Prop
  | none,_ => True
  | some consumed,s => Claimed consumed.requestId input.environmentId input.authorizationCodeHash
      input.codeVerifierHash consumed.request.generation s ∧
    Trusted input.environmentId consumed.request.generation consumed.trust s

omit hc in
lemma granted_permanent {input : ExchangeInput} {consumed : Option Consumed} :
    (discipline n).Permanent (Granted input consumed) := by
  intro d held s s' hinv hgranted hmove
  cases consumed with
  | none => trivial
  | some consumed =>
    exact ⟨claimed_permanent hinv hgranted.1 hmove,trusted_permanent hinv hgranted.2 hmove⟩

omit hc in
/-- A claim is made for the code and the verifier of the claims before it. -/
lemma claimable_same {input : ExchangeInput} {request : AuthorizationRequest}
    (h : claimable input request = true) {code verifier : String}
    (hcode : request.authorizationCodeHash = some code)
    (hverifier : request.codeVerifierHash = some verifier) :
    code = input.authorizationCodeHash ∧ verifier = input.codeVerifierHash := by
  simp only [claimable,hcode,hverifier,Bool.and_eq_true,Bool.or_eq_true,decide_eq_true_eq] at h
  simp_all

theorem consumeAuthorizationRequest_grants (input : ExchangeInput) :
    (discipline n).Triple c (fun _ => True) (consumeAuthorizationRequest n c input)
      (Granted input) := by
  refine Triple.transaction (wp_shareEnvironment_bind hc (fun _ _ _ _ => ?_) ?_)
  · exact commits_nothing
  intro environment held known _ hshare henabled hknown
  cases htrust : environment.trust with
  | none =>
    simp only [htrust]
    exact commits_nothing
  | some trust =>
    simp only [htrust]
    split
    · exact commits_nothing
    refine wp_lockWhere_cases (fun _ _ _ _ => commits_nothing) ?_
    rintro id ⟨_,request⟩ s₁ held' known' hinv₁ _ hagain hsub hlocks hknown'
    obtain ⟨request₁,hfilter,heq⟩ := Option.map_eq_some_iff.mp hagain
    cases heq
    obtain ⟨hrow₁,hclaimable⟩ := Option.filter_eq_some_iff.mp hfilter
    have hlock : Excludes n held' (.request id) := excludes_of_mem hlocks
    have henvironment : request.environmentId = input.environmentId := by
      simp only [claimable,Bool.and_eq_true,decide_eq_true_eq] at hclaimable
      exact hclaimable.1.1.1.1.1.1
    intro s hinv hs
    have hrow := request_stands hc hinv₁ hrow₁ hlock (hknown' s hs).2
    have hrow₀ := (hknown s (hknown' s hs).1).2
    have hgeneration := hinv.requestGeneration id request hrow
      (henvironment ▸ ⟨environment,hrow₀,henabled⟩)
    have hsame : ∀ code verifier, .claimed id code verifier ∈ s.facts →
        code = input.authorizationCodeHash ∧ verifier = input.codeVerifierHash :=
      fun code verifier hfact => by
        obtain ⟨hcode,hverifier⟩ := (hinv.claimed id code verifier hfact).2 request hrow
        exact claimable_same hclaimable hcode hverifier
    refine ⟨⟨Guarded.trans ?_ (guarded_record _),?_⟩,?_⟩
    · exact guarded_setRequest (.inr ⟨hlock,request,hrow,rfl,rfl⟩)
    · exact hinv.claim hrow hsame rfl rfl rfl rfl rfl
    · intro t hrely
      have hnow : generation input.environmentId (s.facts ++ [.claimed id
          input.authorizationCodeHash input.codeVerifierHash]) = request.generation := by
        rw [generation_append,hgeneration,henvironment]
        rfl
      refine granted_permanent.rely hrely ⟨⟨?_,hinv.requestIssued id request hrow,?_⟩,?_,?_⟩
      · exact mem_record.mpr (.inr rfl)
      · intro row hrow'
        change (s.setRequest id _).requests id = some row at hrow'
        rw [setRequest_self,Option.some.injEq] at hrow'
        exact hrow' ▸ ⟨henvironment,rfl⟩
      · exact hnow.ge
      · intro _
        change (s.environments input.environmentId).bind (·.trust) = some trust
        rw [hrow₀]
        exact htrust

theorem releaseAuthorizationRequestClaim_keeps (requestId : String) (claimedAt : ℤ) :
    (discipline n).Triple c (fun _ => True)
      (releaseAuthorizationRequestClaim n requestId claimedAt) fun _ _ => True := by
  refine Triple.transaction (wp_lockWhere_cases (fun _ _ _ _ => commits_nothing) ?_)
  intro _ request s₁ held known hinv₁ _ hagain _ hlocks hknown
  obtain ⟨hrow₁,-⟩ := Option.filter_eq_some_iff.mp hagain
  have hlock : Excludes n held (.request requestId) := excludes_of_mem hlocks
  refine commits_of fun s hinv hs => ?_
  have hrow := request_stands hc hinv₁ hrow₁ hlock (hknown s hs).2
  refine ⟨guarded_setRequest (.inr ⟨hlock,request,hrow,rfl,rfl⟩),?_⟩
  refine hinv.setRequest (hinv.requestIssued requestId request hrow) ?_ ?_ ?_
  · exact fun code verifier hfact => (hinv.claimed requestId code verifier hfact).2 request hrow
  · exact fun code verifier exchangeId issuer trust hfact =>
      (hinv.completed requestId code verifier exchangeId issuer trust hfact).2 request hrow
  · exact fun henabled => hinv.requestGeneration requestId request hrow henabled

end Requests

section Completion

/-- Writes after which the subject of a completion is there, from the issuer, and nothing else is
different. -/
structure Prepared (n c : ℕ) (held : Set (Slot Row)) (known : Store → Prop)
    (prepared : Store → Store) (subjectId issuer : String) : Prop where
  only : ∃ extra, ∀ s, ∃ subjects,
    prepared s = { s with externalSubjects := subjects, issued := s.issued ++ extra }
  guarded : ∀ s, Inv s → known s → Guarded n c held s (prepared s)
  inv : ∀ s, Inv s → known s → Inv (prepared s)
  issuer : ∀ s, Inv s → known s →
    ((prepared s).externalSubjects subjectId).map (·.issuer) = some issuer

variable {n c : ℕ} {held : Set (Slot Row)} {known : Store → Prop} {β : Type}
  {post : Set (Slot Row) → (Store → Store) → (Store → Prop) → β → Prop}

variable (hc : c < n)
include hc

lemma wp_upsertSubject_bind {workspaceId issuer issuerSubject : String}
    {next : String × Option ExternalSubject → Program β}
    (h : ∀ subjectId existing held' known' prepared, held ⊆ held' → (∀ t, known' t → known t) →
      Prepared n c held' known' prepared subjectId issuer →
      (∀ row, existing = some row → prepared = id ∧ row.issuer = issuer ∧
        Excludes n held' (.subject subjectId) ∧
        ∀ t, known' t → t.externalSubjects subjectId = some row) →
      (discipline n).wp c (next (subjectId,existing)) held' prepared known' post) :
    (discipline n).wp c (upsertSubject n workspaceId issuer issuerSubject >>= next) held id known
      post := by
  refine wp_bind.mpr (wp_lock_bind fun s₀ held₀ known₀ _ _ hsub₀ _ hknown₀ => ?_)
  cases hfound : findSubject workspaceId issuer issuerSubject s₀ with
  | none =>
    simp only [id,hfound]
    refine wp_newKey_bind hc [] (fun _ => (List.append_nil _).symm) ?_
    intro id held' known' hsub hkey hknown
    refine wp_update_bind (h id none held' known' _ (hsub₀.trans hsub)
      (fun t ht => (hknown₀ t (hknown t ht).1).1) ⟨⟨[id],fun s => ⟨_,rfl⟩⟩,?_,?_,?_⟩ nofun)
    · intro s _ hs
      exact (guarded_setSubject (.inr (hknown s hs).2)).trans (guarded_issue hkey)
    · intro s hinv _
      exact (hinv.issue id).setSubject (List.mem_append_right _ (List.mem_singleton_self id))
        (.inl rfl)
    · intro s _ _
      exact congrArg (Option.map _) setSubject_self
  | some id₀ =>
    simp only [id,hfound]
    refine wp_lockWhere_cases (fun _ _ _ _ => wp_halt.mpr trivial) ?_
    rintro id ⟨_,row⟩ s held' known' hinv _ hagain hsub hlocks hknown
    obtain ⟨row₁,hfilter,heq⟩ := Option.map_eq_some_iff.mp hagain
    cases heq
    obtain ⟨hrow,hmeets⟩ := Option.filter_eq_some_iff.mp hfilter
    have hissuer : row.issuer = issuer := by
      simp only [Bool.and_eq_true,decide_eq_true_eq] at hmeets
      exact hmeets.1.2
    have hlock : Excludes n held' (.subject id) := excludes_of_mem hlocks
    have hstands {t : Store} (ht : known' t) : t.externalSubjects id = some row :=
      subject_stands hinv hrow (hlock.shares hc) (hknown t ht).2
    refine h id (some row) held' known' _ (hsub₀.trans hsub)
      (fun t ht => (hknown₀ t (hknown t ht).1).1) ⟨⟨[],fun s => ⟨s.externalSubjects,?_⟩⟩,
        fun s _ _ => Guarded.refl s,fun s hinv _ => hinv,fun s _ hs => ?_⟩ fun row' heq => ?_
    · rw [List.append_nil]
      rfl
    · change (s.externalSubjects id).map (·.issuer) = some issuer
      rw [hstands hs,Option.map_some,hissuer]
    · cases heq
      exact ⟨rfl,hissuer,hlock,fun t ht => hstands ht⟩

omit hc in
lemma wp_verifySubject_bind {prepared : Store → Store} {subjectId issuer : String}
    {existing : Option ExternalSubject} {next : Unit → Program β}
    (hprepared : Prepared n c held known prepared subjectId issuer)
    (hexisting : ∀ row, existing = some row → prepared = id ∧ row.issuer = issuer ∧
      Excludes n held (.subject subjectId) ∧
      ∀ t, known t → t.externalSubjects subjectId = some row)
    (h : ∀ prepared', Prepared n c held known prepared' subjectId issuer →
      (discipline n).wp c (next ()) held prepared' known post) :
    (discipline n).wp c (verifySubject subjectId existing >>= next) held prepared known post := by
  cases existing with
  | none => exact h prepared hprepared
  | some subject =>
    obtain ⟨rfl,hissuer,hlock,hstands⟩ := hexisting subject rfl
    by_cases hstatus : subject.status = .provisioned
    · simp only [verifySubject,if_pos hstatus]
      refine wp_update_bind (h _ ⟨⟨[],fun s =>
        ⟨(s.setSubject subjectId { subject with status := .verified }).externalSubjects,?_⟩⟩,
        fun s _ _ => guarded_setSubject (.inl hlock),
        fun s hinv hs => ?_,fun s _ _ => ?_⟩)
      · rw [List.append_nil]
        rfl
      · exact hinv.setSubject (hinv.subjectIssued subjectId subject (hstands s hs)) (.inl rfl)
      · exact (congrArg (Option.map _) setSubject_self).trans (congrArg some hissuer)
    · simp only [verifySubject,if_neg hstatus]
      exact h id hprepared

theorem completeAuthorizationRequest_keeps (code verifier : String) (verifiedBy : Trust)
    (environmentId : String) (generation₀ : ℕ) (input : CompleteInput) :
    (discipline n).Triple c
      (fun s => Claimed input.authorizationRequestId environmentId code verifier generation₀ s ∧
        Trusted environmentId generation₀ verifiedBy s)
      (completeAuthorizationRequest n c code verifier verifiedBy input) fun _ _ => True := by
  refine Triple.transaction (wp_lockWhere_cases (fun _ _ _ _ => commits_nothing) ?_)
  intro _ request s₁ held₁ known₁ hinv₁ _ hrow₁ _ hlocks hknown₁
  have hlock : Excludes n held₁ (.request input.authorizationRequestId) := excludes_of_mem hlocks
  by_cases hinvalid : request.claimedAt ≠ some input.claimedAt ∨ request.completedAt.isSome
  · simp only [if_pos hinvalid]
    exact commits_nothing
  simp only [if_neg hinvalid]
  refine wp_shareEnvironment_bind hc (fun _ _ _ _ => commits_nothing) ?_
  intro environment held₂ known₂ hsub₂ hshare hmeets hknown₂
  cases htrust : environment.trust with
  | none =>
    simp only [htrust]
    exact commits_nothing
  | some trust =>
    simp only [htrust]
    refine wp_upsertSubject_bind hc ?_
    intro subjectId existing held₃ known₃ prepared hsub₃ hknown₃ hprepared hexisting
    by_cases hdisabled : existing.any (·.status = .disabled)
    · simp only [if_pos hdisabled]
      exact commits_of fun s hinv hs => ⟨hprepared.guarded s hinv hs,hprepared.inv s hinv hs⟩
    simp only [if_neg hdisabled]
    refine wp_verifySubject_bind hprepared hexisting fun prepared' hprepared' => ?_
    obtain ⟨extra,honly⟩ := hprepared'.only
    refine wp_newKey_bind hc extra (fun s => ?_) ?_
    · obtain ⟨subjects,heq⟩ := honly s
      rw [heq]
    intro exchangeId held₄ known₄ hsub₄ hkey hknown₄
    refine commits_of fun s hinv hs => ?_
    have hs₃ := (hknown₄ s hs).1
    obtain ⟨hs₁,henvironment⟩ := hknown₂ s (hknown₃ s hs₃)
    obtain ⟨⟨hclaimed,htrusted⟩,hrely⟩ := hknown₁ s hs₁
    have hrow := request_stands hc hinv₁ hrow₁ hlock hrely
    obtain ⟨hplace,hage⟩ := hclaimed.row request hrow
    -- the environment has had one configuration since the claim, and has it still
    have hsame : trust = verifiedBy := by
      have henabled : Enabled s request.environmentId := by
        simp only [Bool.and_eq_true] at hmeets
        exact ⟨environment,henvironment,hmeets.2⟩
      have hnow := hinv.requestGeneration _ request hrow henabled
      rw [hage,hplace] at hnow
      have hthen := htrusted.2 hnow.symm
      rw [← hplace,henvironment] at hthen
      exact Option.some.inj (htrust.symm.trans hthen)
    have hissuer := hprepared'.issuer s hinv hs₃
    obtain ⟨subjects,heq⟩ := honly s
    have hrow' : (prepared' s).requests input.authorizationRequestId = some request := by
      rw [heq]
      exact hrow
    have hfact : .claimed input.authorizationRequestId code verifier ∈ (prepared' s).facts := by
      rw [heq]
      exact hclaimed.fact
    have hopen : request.completedAt = none := by simpa using (not_or.mp hinvalid).2
    refine ⟨?_,(hprepared'.inv s hinv hs₃).complete hrow' hfact hopen rfl rfl rfl rfl rfl
      (hknown₄ s hs).2 ?_ rfl rfl⟩
    · refine ((hprepared'.guarded s hinv hs₃).mono hsub₄).trans ?_
      have hlock' := hlock.mono (hsub₂.trans (hsub₃.trans hsub₄))
      refine Guarded.trans ?_ (guarded_record _)
      refine Guarded.trans ?_ (guarded_setRequest (.inr ⟨hlock',request,hrow',rfl,rfl⟩))
      refine Guarded.trans ?_ (guarded_issue hkey)
      exact guarded_setExchange (.inl ⟨(hknown₄ s hs).2,hshare.mono (hsub₃.trans hsub₄)⟩)
    · exact (congrArg (Option.getD · "") hissuer).trans (congrArg Trust.oidcIssuer hsame)

theorem exchange_keeps (input : ExchangeInput) :
    (discipline n).Triple c (fun _ => True) (exchange n c input) fun _ _ => True := by
  refine (consumeAuthorizationRequest_grants hc input).bind fun consumed => ?_
  cases consumed with
  | none => exact Triple.pure fun _ _ => trivial
  | some consumed =>
    refine wp_receiving_bind fun answer => ?_
    cases answer.provider with
    | unavailable =>
      exact (releaseAuthorizationRequestClaim_keeps hc _ _).mono (fun _ _ => trivial) fun _ _ h => h
    | rejected => exact Triple.pure fun _ _ => trivial
    | verified issuerSubject =>
      refine wp_receiving_bind fun exchangeTokenHash => wp_receiving_bind fun dpopNonceHash => ?_
      refine wp_receiving_bind fun issuedAt => wp_receiving_bind fun now => ?_
      have hcomplete := completeAuthorizationRequest_keeps hc input.authorizationCodeHash
        input.codeVerifierHash consumed.trust input.environmentId consumed.request.generation
        ⟨consumed.requestId,issuerSubject,exchangeTokenHash.hash,dpopNonceHash.hash,
          issuedAt.now + 120000,now.now,input.now⟩
      exact hcomplete.bind fun _ => Triple.pure fun _ _ => trivial

end Completion
end Linea.SignIn
