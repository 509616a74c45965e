import Linea.SignInAuthorization

/-! Sessions are opened, used, revoked and deleted within the agreement, and what holds of every run
of the sign-in transactions. -/
namespace Linea.SignIn
open LockModes Discipline

section Sessions

variable {n c : ℕ} (hc : c < n)
include hc

theorem consumeIdentityExchange_keeps (tokenHash : String) (now : ℤ) :
    (discipline n).Triple c (fun _ => True) (consumeIdentityExchange n tokenHash now)
      fun _ _ => True := by
  refine Triple.transaction (wp_lockWhere_cases (fun _ _ _ _ => commits_nothing) ?_)
  rintro id ⟨_,exchange⟩ s₁ held known hinv₁ _ hagain _ hlocks hknown
  obtain ⟨exchange₁,hfilter,heq⟩ := Option.map_eq_some_iff.mp hagain
  cases heq
  obtain ⟨hrow₁,hmeets⟩ := Option.filter_eq_some_iff.mp hfilter
  have hopen : exchange.consumedAt = none := by
    simp only [unconsumed,Bool.and_eq_true,Option.isNone_iff_eq_none] at hmeets
    exact hmeets.2.1
  have hlock : Excludes n held (.exchange id) := excludes_of_mem hlocks
  refine commits_of fun s hinv hs => ?_
  have hrow := exchange_stands hc hinv₁ hrow₁ hlock (hknown s hs).2
  refine ⟨Guarded.trans ?_ (guarded_record _),hinv.consume hrow hopen now⟩
  exact guarded_setExchange (.inr ⟨hlock,exchange,hrow,rfl⟩)

theorem createEndUserSession_keeps (input : CreateEndUserSessionInput) :
    (discipline n).Triple c (fun _ => True) (createEndUserSession n c input) fun _ _ => True := by
  refine Triple.transaction (wp_shareEnvironment_bind hc (fun _ _ _ _ => commits_nothing) ?_)
  intro environment held₁ known₁ _ hshare hmeets hknown₁
  refine wp_lockWhere_cases (fun _ _ _ _ => commits_nothing) ?_
  intro _ subject s₂ held₂ known₂ hinv₂ _ hagain₂ hsub₂ hlocks₂ hknown₂
  obtain ⟨hsubject₂,hverified⟩ := Option.filter_eq_some_iff.mp hagain₂
  refine wp_lockWhere_cases (fun _ _ _ _ => commits_nothing) ?_
  intro _ exchange s₃ held₃ known₃ hinv₃ _ hagain₃ hsub₃ hlocks₃ hknown₃
  obtain ⟨hrow₃,hunconsumed⟩ := Option.filter_eq_some_iff.mp hagain₃
  simp only [unconsumed,Bool.and_eq_true,decide_eq_true_eq,Option.isNone_iff_eq_none]
    at hmeets hverified hunconsumed
  have hlock₂ : Shares n c held₂ (.subject input.externalSubjectId) := shares_of_mem hc hlocks₂
  have hlock₃ : Excludes n held₃ (.exchange input.exchangeId) := excludes_of_mem hlocks₃
  refine wp_update_bind ?_
  refine wp_newKey_bind hc [] (fun s => ?_) ?_
  · exact (List.append_nil s.issued).symm
  intro id held₄ known₄ hsub₄ hkey hknown₄
  refine commits_of fun s hinv hs => ?_
  obtain ⟨hs₃,hnew⟩ := hknown₄ s hs
  obtain ⟨hs₂,hrely₃⟩ := hknown₃ s hs₃
  obtain ⟨hs₁,hrely₂⟩ := hknown₂ s hs₂
  have hrow := exchange_stands hc hinv₃ hrow₃ hlock₃ hrely₃
  have hplace : exchange.environmentId = input.environmentId := hunconsumed.1.1.2
  have hwhose : exchange.externalSubjectId = input.externalSubjectId := hunconsumed.1.2
  have henabled : Enabled s exchange.environmentId :=
    hplace ▸ ⟨environment,(hknown₁ s hs₁).2,hmeets.2⟩
  have hopen : exchange.consumedAt = none := hunconsumed.2.1
  -- nothing has been opened from an exchange that is not consumed
  have hfirst : ∀ id generation current,
      .opened id input.exchangeId generation current ∉ s.facts := by
    intro id generation current hfact
    have hconsumed := (hinv.consumed _ (hinv.openedConsumed id _ generation current hfact)).2 _ hrow
    rw [hopen] at hconsumed
    cases hconsumed
  have hsub := hsub₃.trans hsub₄
  have hstands : s.externalSubjects exchange.externalSubjectId = some subject :=
    hwhose ▸ subject_stands hinv₂ hsubject₂ hlock₂ hrely₂
  refine ⟨?_,(hinv.consume hrow hopen input.now).opens hnew (mem_record.mpr (.inr rfl))
    (fun id generation current hfact => ?_) henabled ?_ ⟨subject,?_,hverified.2⟩⟩
  · refine Guarded.trans ?_ (guarded_record _)
    refine Guarded.trans ?_ (guarded_issue hkey)
    refine Guarded.trans ?_ (guarded_setSession (.inl ⟨hnew,?_,?_⟩))
    · refine Guarded.trans ?_ (guarded_record _)
      exact guarded_setExchange (.inr ⟨hlock₃.mono hsub₄,exchange,hrow,rfl⟩)
    · exact hplace ▸ (hshare.mono hsub₂).mono hsub
    · exact hwhose ▸ hlock₂.mono hsub
  · exact hfirst id generation current ((mem_record.mp hfact).resolve_right nofun)
  · rw [generation_record fun _ heq => by cases heq]
    exact hinv.exchangeGeneration _ exchange hrow henabled
  · exact hstands

theorem recordEndUserSessionProof_keeps (sessionId jtiHash : String) (now : ℤ) :
    (discipline n).Triple c (fun _ => True) (recordEndUserSessionProof n sessionId jtiHash now)
      fun _ _ => True := by
  refine Triple.transaction (wp_lockWhere_cases (fun _ _ _ _ => commits_nothing) ?_)
  intro _ session s₁ held known hinv₁ _ hrow₁ _ hlocks hknown
  have hlock : Excludes n held (.session sessionId) := excludes_of_mem hlocks
  by_cases hclosed : session.revokedAt.isSome ∨ session.expiresAt ≤ now
  · simp only [if_pos hclosed]
    exact commits_nothing
  simp only [if_neg hclosed]
  refine wp_select_bind fun s₂ known₂ _ hs₂ hknown₂ => ?_
  by_cases hconflict : (sessionId,jtiHash) ∈ s₂.proofs
  · simp only [id,hconflict,decide_true,if_true]
    exact commits_nothing
  simp only [id,hconflict,decide_false,Bool.false_eq_true,if_false]
  refine commits_of fun s hinv hs => ?_
  obtain ⟨hs₁,hrely⟩ := hknown₂ s hs
  have hrow := session_stands hc hinv₁ hrow₁ hlock (hknown s hs₁).2
  have hnew : (sessionId,jtiHash) ∉ s.proofs :=
    fun hold => hconflict ((rely_proofs hrely (hlock.shares hc)).mp hold)
  have hopen : session.revokedAt = none := by simpa using (not_or.mp hclosed).1
  have hlive : now < session.expiresAt := not_le.mp (not_or.mp hclosed).2
  have hrecorded := hinv.proves { session with lastUsedAt := some now } hrow hnew hopen hopen
    hlive rfl rfl rfl
  have hread : (({ s with proofs := s.proofs ++ [(sessionId,jtiHash)] } : Store).setSession
      sessionId (some { session with lastUsedAt := some now })).sessions sessionId =
      some { session with lastUsedAt := some now } := setSession_self
  simp only [id,hread]
  refine ⟨?_,hrecorded⟩
  refine Guarded.trans ?_ (guarded_record _)
  refine Guarded.trans (guarded_prove jtiHash hlock) ?_
  exact guarded_setSession (.inr ⟨hlock,session,hrow,rfl,rfl,fun _ => hopen⟩)

omit hc in
theorem revokeEndUserSession_keeps (sessionId : String) (now : ℤ) :
    (discipline n).Triple c (fun _ => True) (revokeEndUserSession n sessionId now)
      fun _ _ => True := by
  refine Triple.transaction (wp_lockWhere_cases (fun _ _ _ _ => commits_nothing) ?_)
  intro _ session s₁ held known _ _ _ _ hlocks _
  have hlock : Excludes n held (.session sessionId) := excludes_of_mem hlocks
  refine commits_of fun s hinv _ => ⟨guarded_revokeSessions now ?_,hinv.revokeSessions _ now⟩
  exact fun x hx => List.mem_singleton.mp hx ▸ hlock

omit hc in
theorem deleteExpiredEndUserSessions_keeps (before : ℤ) :
    (discipline n).Triple c (fun _ => True) (deleteExpiredEndUserSessions n before)
      fun _ _ => True := by
  refine Triple.transaction (wp_lockAll_bind ?_)
  intro s₀ ids held known _ _ _ _ hlocks _
  refine commits_of fun s hinv _ => ⟨guarded_deleteSessions fun id hid => ?_,hinv.deleteSessions _⟩
  exact excludes_of_mem (hlocks id hid)

omit hc in
theorem deleteExpiredEndUserAuthorizationArtifacts_keeps (before : ℤ) :
    (discipline n).Triple c (fun _ => True) (deleteExpiredEndUserAuthorizationArtifacts n before)
      fun _ _ => True := by
  refine Triple.transaction (wp_lockAll_bind ?_)
  intro s₀ exchanges held known _ _ _ _ hlocks _
  refine wp_update_bind (wp_lockAll_bind ?_)
  intro s₁ requests held' known' _ _ _ hsub hlocks' _
  refine commits_of fun s hinv _ => ⟨?_,(hinv.deleteExchanges _).deleteRequests _⟩
  refine Guarded.trans (guarded_deleteExchanges fun id hid => ?_)
    (guarded_deleteRequests fun id hid => excludes_of_mem (hlocks' id hid))
  exact (excludes_of_mem (hlocks id hid)).mono hsub

end Sessions

section Authorities

variable {n c : ℕ} {held : Set (Slot Row)} {known : Store → Prop} {pending : Store → Store}

lemma mem_idsWhere {α : Type} (table : Store → String → Option α) {meets : α → Bool} {s : Store}
    {id : String} (row : α) (hid : id ∈ s.issued) (hrow : table s id = some row)
    (hmeets : meets row = true) : id ∈ s.idsWhere table meets :=
  List.mem_filter.mpr ⟨hid,by rw [hrow]; exact hmeets⟩

/-- No row of a kind is left after the deletion of those that a statement has found, when no other
has come into being since. -/
lemma none_left {α : Type} (table : Store → String → Option α) {belongs : α → Prop}
    [DecidablePred belongs] {found s : Store} {ids : List String}
    (hfound : found.idsWhere table (fun row => decide (belongs row)) = ids)
    (hissued : ∀ id row, table found id = some row → id ∈ found.issued)
    (hkept : ∀ id row', table s id = some row' → belongs row' →
      ∃ row, table found id = some row ∧ belongs row) {x : String} {row : α}
    (hrow : (if x ∈ ids then none else table s x) = some row) : ¬belongs row := by
  intro hbelongs
  obtain ⟨hrest,hrow⟩ := of_delete hrow
  obtain ⟨row₀,hrow₀,hbelonged⟩ := hkept x row hrow hbelongs
  rw [← hfound] at hrest
  exact hrest (mem_idsWhere table row₀ (hissued x row₀ hrow₀) hrow₀ (decide_eq_true hbelonged))

/-- The revocation of the sessions of an environment or a subject of which the row is locked. -/
lemma wp_revokeSessionsOf {belongs : EndUserSession → Prop} [DecidablePred belongs] {now : ℤ}
    {post : Set (Slot Row) → (Store → Store) → (Store → Prop) → Unit → Prop}
    (hpending : ∀ s, (pending s).sessions = s.sessions ∧ (pending s).issued = s.issued)
    (hkept : ∀ s t, Rely n c held s t → ∀ id row', t.sessions id = some row' → belongs row' →
      row'.revokedAt = none → ∃ row, s.sessions id = some row ∧ belongs row ∧ row.revokedAt = none)
    (h : ∀ ids held' known', held ⊆ held' → (∀ id ∈ ids, Excludes n held' (.session id)) →
      (∀ t, known' t → known t ∧ ∀ id row, (t.revokeSessions ids now).sessions id = some row →
        belongs row → row.revokedAt ≠ none) →
      post held' (fun s => (pending s).revokeSessions ids now) known' ()) :
    (discipline n).wp c (revokeSessionsOf n (fun row => decide (belongs row)) now) held pending
      known post := by
  refine wp_lockAll_bind ?_
  intro s₀ ids held' known' hinv₀ _ hfound hsub hlocks hknown
  refine h ids held' known' hsub (fun id hid => excludes_of_mem (hlocks id hid)) fun t ht => ?_
  refine ⟨(hknown t ht).1,fun id row hrow hbelongs hopen => ?_⟩
  obtain ⟨row₀,hrow₀,hsame,-⟩ := of_revoke hrow
  obtain ⟨hrest,rfl⟩ := hsame hopen
  obtain ⟨row,hrow,hbelonged,hopened⟩ := hkept s₀ t (hknown t ht).2 id row₀ hrow₀ hbelongs hopen
  rw [← hfound] at hrest
  refine hrest (mem_idsWhere Store.sessions row ?_ ?_ ?_)
  · rw [(hpending s₀).2]
    exact hinv₀.sessionIssued id row hrow
  · rw [(hpending s₀).1]
    exact hrow
  · simp [hbelonged,hopened]

/-- A subject that is locked is given a status other than verified, and its sessions are revoked. -/
lemma wp_closeSubject {subjectId : String} {row row' : ExternalSubject} {now : ℤ} {s₁ : Store}
    (hc : c < n) (hinv₁ : Inv s₁) (hrow₁ : s₁.externalSubjects subjectId = some row)
    (hlock : Excludes n held (.subject subjectId))
    (hknown : ∀ t, known t → Rely n c held s₁ t) :
    (discipline n).wp c (do
        Tx.update (·.setSubject subjectId row')
        revokeSessionsOf n (·.externalSubjectId = subjectId) now) held id known
      ((discipline n).Commits c fun _ _ => True) := by
  refine wp_update_bind (wp_revokeSessionsOf ?_ ?_ ?_)
  · exact fun _ => ⟨rfl,rfl⟩
  · exact fun _ _ hrely _ _ hrow' hsubject hopen =>
      rely_sessions_subject hrely hlock hrow' hsubject hopen
  intro ids held' known' hsub hlocks hknown'
  refine commits_of fun s hinv hs => ?_
  obtain ⟨hs₁,hrevoked⟩ := hknown' s hs
  have hrow := subject_stands hinv₁ hrow₁ (hlock.shares hc) (hknown s hs₁)
  refine ⟨?_,(hinv.revokeSessions ids now).setSubject (hinv.subjectIssued subjectId row hrow)
    (.inr hrevoked)⟩
  exact (guarded_setSubject (.inl (hlock.mono hsub))).trans (guarded_revokeSessions now hlocks)

variable (hc : c < n)
include hc

theorem disableExternalSubject_keeps (workspaceId externalSubjectId : String) :
    (discipline n).Triple c (fun _ => True)
      (disableExternalSubject n workspaceId externalSubjectId) fun _ _ => True := by
  refine Triple.transaction (wp_lockWhere_cases (fun _ _ _ _ => commits_nothing) ?_)
  intro _ existing s₁ held known hinv₁ _ hagain _ hlocks hknown
  obtain ⟨hrow₁,-⟩ := Option.filter_eq_some_iff.mp hagain
  by_cases hdone : existing.status = .erased ∨ existing.status = .disabled
  · simp only [if_pos hdone]
    exact commits_nothing
  simp only [if_neg hdone]
  refine wp_receiving_bind fun reply => ?_
  exact wp_closeSubject hc hinv₁ hrow₁ (excludes_of_mem hlocks) fun t ht => (hknown t ht).2

theorem eraseExternalSubject_keeps (workspaceId externalSubjectId : String) :
    (discipline n).Triple c (fun _ => True)
      (eraseExternalSubject n workspaceId externalSubjectId) fun _ _ => True := by
  refine Triple.transaction (wp_lockWhere_cases (fun _ _ _ _ => commits_nothing) ?_)
  intro _ existing s₁ held known hinv₁ _ hagain _ hlocks hknown
  obtain ⟨hrow₁,-⟩ := Option.filter_eq_some_iff.mp hagain
  by_cases hdone : existing.status = .erased
  · simp only [if_pos hdone]
    exact commits_nothing
  simp only [if_neg hdone]
  refine wp_receiving_bind fun reply => ?_
  exact wp_closeSubject hc hinv₁ hrow₁ (excludes_of_mem hlocks) fun t ht => (hknown t ht).2

omit hc in
theorem replaceEnvironmentTrustConfiguration_keeps (workspaceId environmentId : String)
    (input : EnvironmentTrustConfiguration) :
    (discipline n).Triple c (fun _ => True)
      (replaceEnvironmentTrustConfiguration n workspaceId environmentId input) fun _ _ => True := by
  refine Triple.transaction (wp_receiving_bind fun reply =>
    wp_lockWhere_cases (fun _ _ _ _ => commits_nothing) ?_)
  intro _ environment s₁ held known _ _ _ _ hlocks _
  have hlock : Excludes n held (.environment environmentId) := excludes_of_mem hlocks
  refine wp_update_bind (wp_bind.mpr (wp_revokeSessionsOf ?_ ?_ ?_))
  · exact fun _ => ⟨rfl,rfl⟩
  · exact fun _ _ hrely _ _ hrow' henv hopen =>
      rely_sessions_environment hrely hlock hrow' henv hopen
  intro ids held₁ known₁ hsub₁ hlocks₁ hknown₁
  refine wp_lockAll_bind ?_
  intro s₂ exchanges held₂ known₂ hinv₂ _ hfound₂ hsub₂ hlocks₂ hknown₂
  refine wp_update_bind (wp_lockAll_bind ?_)
  intro s₃ requests held₃ known₃ hinv₃ _ hfound₃ hsub₃ hlocks₃ hknown₃
  refine commits_of fun s hinv hs => ?_
  obtain ⟨hs₂,hrely₃⟩ := hknown₃ s hs
  obtain ⟨hs₁,hrely₂⟩ := hknown₂ s hs₂
  have hguarded := (guarded_revokeSessions (c := c) (s := s) reply.now
    fun id hid => (hlocks₁ id hid).mono (hsub₂.trans hsub₃)).trans
      ((guarded_deleteExchanges fun id hid => (excludes_of_mem (hlocks₂ id hid)).mono hsub₃).trans
        (guarded_deleteRequests fun id hid => excludes_of_mem (hlocks₃ id hid)))
  refine ⟨hguarded.trans (guarded_change (hlock.mono (hsub₁.trans (hsub₂.trans hsub₃)))),
    (((hinv.revokeSessions ids reply.now).deleteExchanges _).deleteRequests _).change
      (hknown₁ s hs₁).2 fun _ => ⟨fun x request hrequest => ?_,fun x exchange hexchange => ?_⟩⟩
  · exact none_left Store.requests hfound₃ (fun id row hrow => hinv₃.requestIssued id row hrow)
      (fun id row' hrow' henv => rely_requests_environment hrely₃ (hlock.mono (hsub₁.trans hsub₂))
        hrow' henv) hrequest
  · exact none_left Store.exchanges hfound₂ (fun id row hrow => hinv₂.exchangeIssued id row hrow)
      (fun id row' hrow' henv => rely_exchanges_environment hrely₂ (hlock.mono hsub₁) hrow' henv)
      hexchange

omit hc in
theorem disableEnvironment_keeps (workspaceId environmentId : String) :
    (discipline n).Triple c (fun _ => True) (disableEnvironment n workspaceId environmentId)
      fun _ _ => True := by
  refine Triple.transaction (wp_lockWhere_cases (fun _ _ _ _ => commits_nothing) ?_)
  intro _ existing s₁ held known _ _ _ _ hlocks _
  have hlock : Excludes n held (.environment environmentId) := excludes_of_mem hlocks
  by_cases henabled : existing.enabled
  · simp only [if_pos henabled]
    refine wp_receiving_bind fun reply => wp_update_bind (wp_bind.mpr ?_)
    refine wp_revokeSessionsOf ?_ ?_ ?_
    · exact fun _ => ⟨rfl,rfl⟩
    · exact fun _ _ hrely _ _ hrow' henv hopen =>
        rely_sessions_environment hrely hlock hrow' henv hopen
    intro ids held₁ known₁ hsub₁ hlocks₁ hknown₁
    refine commits_of fun s hinv hs => ?_
    refine ⟨?_,(hinv.revokeSessions ids reply.now).change (hknown₁ s hs).2 nofun⟩
    exact (guarded_revokeSessions reply.now hlocks₁).trans (guarded_change (hlock.mono hsub₁))
  · simp only [if_neg henabled]
    exact commits_nothing

end Authorities

section Runs

variable {n : ℕ}

/-- A call of which the result is not used. -/
lemma keeps_of_call {c : ℕ} {α : Type} {program : Program α}
    (h : (discipline n).Triple c (fun _ => True) program fun _ _ => True) :
    (discipline n).wp c (do let _ ← program; pure ()) ∅ id (fun _ => True)
      fun _ _ _ _ => True :=
  wp_bind.mpr (wp_mono h (fun _ hs => hs) fun _ _ _ _ _ _ _ => trivial)

theorem admits_keeps : (discipline n).Keeps (Admits n) := by
  rintro c program ⟨hc,call,rfl⟩
  cases call with
  | createAuthorizationRequest input =>
    exact keeps_of_call (createAuthorizationRequest_keeps hc input)
  | exchange input => exact (exchange_keeps hc input).keeps
  | consumeIdentityExchange tokenHash now =>
    exact keeps_of_call (consumeIdentityExchange_keeps hc tokenHash now)
  | createEndUserSession input =>
    exact keeps_of_call (createEndUserSession_keeps hc input)
  | recordEndUserSessionProof sessionId jtiHash now =>
    exact keeps_of_call (recordEndUserSessionProof_keeps hc sessionId jtiHash now)
  | revokeEndUserSession sessionId now => exact (revokeEndUserSession_keeps sessionId now).keeps
  | deleteExpiredEndUserSessions before => exact (deleteExpiredEndUserSessions_keeps before).keeps
  | deleteExpiredEndUserAuthorizationArtifacts before =>
    exact (deleteExpiredEndUserAuthorizationArtifacts_keeps before).keeps
  | disableExternalSubject workspaceId id =>
    exact (disableExternalSubject_keeps hc workspaceId id).keeps
  | eraseExternalSubject workspaceId id =>
    exact (eraseExternalSubject_keeps hc workspaceId id).keeps
  | replaceEnvironmentTrustConfiguration workspaceId id input =>
    exact (replaceEnvironmentTrustConfiguration_keeps workspaceId id input).keeps
  | disableEnvironment workspaceId id => exact (disableEnvironment_keeps workspaceId id).keeps

theorem inv_start (environments : String → Option Environment)
    (subjects : List (String × ExternalSubject)) : Inv (Store.start environments subjects) where
  exchangeRecorded _ _ := nofun
  completedOnce := List.nodup_nil
  consumedOnce := List.nodup_nil
  sessionRecorded _ _ := nofun
  openedOnce := List.nodup_nil
  sameClaim _ _ _ _ _ _ _ _ := nofun
  provedOnce := List.nodup_nil
  provedOpen _ _ _ _ _ := nofun
  verified _ _ := nofun
  sessions _ _ := nofun
  opened _ _ _ _ := nofun
  proved _ _ _ _ _ := nofun
  issuer _ _ _ _ _ _ := nofun
  subjectIssued id row hrow := by
    obtain ⟨entry,hfind,-⟩ := Option.map_eq_some_iff.mp hrow
    have hid : entry.1 = id := by simpa using List.find?_some hfind
    exact hid ▸ List.mem_map_of_mem (List.mem_of_find?_eq_some hfind)
  requestIssued _ _ := nofun
  exchangeIssued _ _ := nofun
  sessionIssued _ _ := nofun
  claimed _ _ _ := nofun
  claims _ _ _ _ _ := nofun
  completed _ _ _ _ _ _ := nofun
  consumed _ := nofun
  openedConsumed _ _ _ _ := nofun
  provedIssued _ _ _ _ _ := nofun
  requestGeneration _ _ := nofun
  exchangeGeneration _ _ := nofun
  sessionEnabled _ _ := nofun

variable {environments : String → Option Environment} {subjects : List (String × ExternalSubject)}
  {sys : System Store (Slot Row) ℕ Reply}

theorem inv_of_reachable
    (h : System.Reachable (Admits n) (Store.start environments subjects) sys) : Inv sys.store :=
  (sound_of_reachable admits_keeps (inv_start environments subjects) h).inv

/-- In every reachable store a request has at most one exchange, an exchange is consumed at most
once and has at most one session, and a proof counts once, for a session that is open. -/
theorem single_use
    (h : System.Reachable (Admits n) (Store.start environments subjects) sys) :
    SingleUse sys.store :=
  (inv_of_reachable h).toSingleUse

/-- In every reachable store nothing is left of a sign-in from before the last change of the trust
configuration, and a subject has the issuer that verified it. -/
theorem trust_kept
    (h : System.Reachable (Admits n) (Store.start environments subjects) sys) :
    TrustKept sys.store :=
  (inv_of_reachable h).toTrustKept

section Example

/-- A program of one client, given these replies. -/
def playing (c : ℕ) (call : Call) (replies : List Reply) : List (Act Store (Slot Row) ℕ Reply) :=
  .start c (call.program 5 c) :: replies.map (.advance c)

def replying (id : String) : Reply := ⟨1,id,"hash",.verified "ada"⟩

def oidc (oidcIssuer : String) : Trust := ⟨oidcIssuer,"client","audience","jwks","sub"⟩

def trusting : Environment := ⟨"workspace",true,[],["https://app"],some (oidc "https://issuer")⟩

/-- A request is made and exchanged, a session opened and used; then the configuration changes. -/
def signInRun : List (Act Store (Slot Row) ℕ Reply) :=
  playing 0 (.createAuthorizationRequest ⟨"environment","https://app/back","https://app",none,
      "state","nonce","challenge",100⟩) (.replicate 6 (replying "request")) ++
    playing 1 (.exchange ⟨"environment","https://app/back",none,"state","challenge","code",
      "verifier",5⟩) (.replicate 18 (replying "subject") ++ .replicate 7 (replying "exchange")) ++
    playing 2 (.createEndUserSession ⟨"exchange","hash","workspace","environment","subject","token",
      "jkt","nonce",100,6⟩) (.replicate 12 (replying "session")) ++
    playing 3 (.recordEndUserSessionProof "session" "jti" 7) (.replicate 7 (replying "")) ++
    playing 4 (.replaceEnvironmentTrustConfiguration "workspace" "environment"
      ⟨[],["https://app"],oidc "https://other"⟩) (.replicate 15 (replying ""))

def signInStart : Store :=
  .start (fun id => if id = "environment" then some trusting else none) []

lemma playing_admitted {c : ℕ} (hc : c < 5) (call : Call) (replies : List Reply) :
    ∀ act ∈ playing c call replies, act.Admitted (Admits 5) := by
  intro act hact
  obtain rfl | hact := List.mem_cons.mp hact
  · exact ⟨hc,call,rfl⟩
  · obtain ⟨reply,-,rfl⟩ := List.mem_map.mp hact
    trivial

lemma signInRun_admitted : ∀ act ∈ signInRun, act.Admitted (Admits 5) := by
  intro act hact
  simp only [signInRun,List.mem_append] at hact
  obtain (((hact | hact) | hact) | hact) | hact := hact
  all_goals exact playing_admitted (by decide) _ _ act hact

lemma signInRun_ends : ∃ sys, (System.idle signInStart).run signInRun = some sys ∧
    sys.store.facts.length = 6 ∧
    (sys.store.sessions "session").any (·.revokedAt.isSome) = true := by
  have hrun : (((System.idle signInStart).run signInRun).any fun sys =>
      sys.store.facts.length = 6 ∧
        (sys.store.sessions "session").any (·.revokedAt.isSome) = true) = true := by
    decide +kernel
  obtain ⟨sys,hsys,hends⟩ := (Option.any_eq_true _ _).mp hrun
  exact ⟨sys,hsys,of_decide_eq_true hends⟩

theorem single_use_of_sign_in : ∃ sys : System Store (Slot Row) ℕ Reply,
    System.Reachable (Admits 5) signInStart sys ∧ sys.store.facts.length = 6 ∧
      SingleUse sys.store := by
  obtain ⟨sys,hsys,hfacts,-⟩ := signInRun_ends
  have hreachable : System.Reachable (Admits 5) signInStart sys :=
    System.Reachable.start.run signInRun_admitted hsys
  exact ⟨sys,hreachable,hfacts,single_use hreachable⟩

theorem trust_kept_of_change : ∃ sys : System Store (Slot Row) ℕ Reply,
    System.Reachable (Admits 5) signInStart sys ∧
      (sys.store.sessions "session").any (·.revokedAt.isSome) = true ∧ TrustKept sys.store := by
  obtain ⟨sys,hsys,-,hrevoked⟩ := signInRun_ends
  have hreachable : System.Reachable (Admits 5) signInStart sys :=
    System.Reachable.start.run signInRun_admitted hsys
  exact ⟨sys,hreachable,hrevoked,trust_kept hreachable⟩

end Example
end Runs
end Linea.SignIn
