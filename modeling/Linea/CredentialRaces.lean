import Linea.CredentialRefresh

/-! When a connection is given up: what the callers know of a row that has moved on, and the answers
of the provider after which a good connection is lost. -/
namespace Linea.CredentialRefresh

def Change.apply (row : Connection) : Change → Connection
  | .rotated credential _ => { row with
      credential := some credential
      credentialVersion := row.credentialVersion + 1 }
  | .gaveUp _ => { row with
      status := .reauthorizationRequired
      credential := none
      credentialVersion := row.credentialVersion + 1 }

/-- The provider has refused the newest refresh token, or granted less for it. -/
def Cause.justified : Cause → Prop
  | .refused newest | .narrowed newest => newest = true
  | _ => False

/-- The row is what the recorded changes make of it: none of them comes from a transient failure,
and where the connection was given up the provider had said so. -/
structure Honest (start : Connection) (w : World) : Prop where
  replayed : w.connection = w.changes.foldl Change.apply start
  rotated : ∀ credential cause, .rotated credential cause ∈ w.changes → cause ≠ .transient
  gaveUp : ∀ cause, .gaveUp cause ∈ w.changes → cause.justified

/-- The answer to a token request, while the row is still as the caller has read it: a refresh token
that is not the newest is neither refused nor granted less, and a request to GitHub does not fail
otherwise. -/
def Act.meets (w : World) : Act → Bool
  | .token caller _ answer _ =>
    match w.callers caller with
    | .asking _ row current refreshToken =>
      row.credentialVersion < w.connection.credentialVersion ||
        (!(refuses answer row.provider || narrows row current answer) ||
            refreshToken = w.newest) &&
          (row.provider = .google || refuses answer .github || (tokenRequest answer).isSome)
    | _ => true
  | _ => true

section Invariant

/-- A row that has been read: it stands, and is active, or it has moved on. -/
structure Since (w : World) (read : Connection) : Prop where
  le : read.credentialVersion ≤ w.connection.credentialVersion
  active : read.credentialVersion = w.connection.credentialVersion → w.connection.status = .active

/-- A result may be stored or leads to reauthorization with good reason, or the row has moved on. -/
def Settles (w : World) (read : Connection) (cause : Cause) : Refreshed → Prop
  | .failed => True
  | .invalidGrant => cause.justified ∨ read.credentialVersion < w.connection.credentialVersion
  | .credential credential => credential.refreshToken.isSome ∧ cause ≠ .transient ∧
      (read.scopes.any (· ∉ credential.grantedScopes) = true →
        cause.justified ∨ read.credentialVersion < w.connection.credentialVersion)

def Phase.Sound (w : World) : Phase → Prop
  | .idle => True
  | .asking _ read current _ => Since w read ∧ current.refreshToken.isSome
  | .discovering _ read current token cause => Since w read ∧ current.refreshToken.isSome ∧
      cause ≠ .transient ∧
      (read.scopes.any (· ∉ normalized (token.scope.getD [])) = true →
        cause.justified ∨ read.credentialVersion < w.connection.credentialVersion)
  | .settling _ read outcome cause => Since w read ∧ Settles w read cause outcome
  | .reloading _ read => read.credentialVersion < w.connection.credentialVersion
  | .ended _ => True

structure Inv (start : Connection) (w : World) : Prop extends Honest start w where
  refreshable : ∀ credential, w.connection.credential = some credential →
    credential.refreshToken.isSome
  callers : ∀ caller, (w.callers caller).Sound w

/-- The row is as it was, or has moved on. -/
def Later (w w' : World) : Prop :=
  w'.connection = w.connection ∨
    w.connection.credentialVersion < w'.connection.credentialVersion

variable {start : Connection} {w w' : World} {read : Connection} {via : Via} {cause : Cause}

lemma Later.le (h : Later w w') :
    w.connection.credentialVersion ≤ w'.connection.credentialVersion :=
  h.elim (fun heq => heq ▸ le_rfl) le_of_lt

lemma Since.mono (h : Since w read) (hlater : Later w w') : Since w' read := by
  refine ⟨h.le.trans hlater.le,fun heq => ?_⟩
  obtain hrow | hlt := hlater
  · rw [hrow] at heq ⊢
    exact h.active heq
  · have := h.le
    omega

lemma Phase.Sound.mono {phase : Phase} (h : phase.Sound w) (hlater : Later w w') :
    phase.Sound w' := by
  cases phase with
  | idle => trivial
  | asking via read current refreshToken => exact ⟨h.1.mono hlater,h.2⟩
  | discovering via read current token cause =>
    obtain ⟨hsince,hrefreshable,htransient,hscopes⟩ := h
    refine ⟨hsince.mono hlater,hrefreshable,htransient,fun hmissing => ?_⟩
    exact (hscopes hmissing).imp_right fun hlt => hlt.trans_le hlater.le
  | settling via read outcome cause =>
    refine ⟨h.1.mono hlater,?_⟩
    cases outcome with
    | credential credential =>
      obtain ⟨hrefreshable,htransient,hscopes⟩ := h.2
      refine ⟨hrefreshable,htransient,fun hmissing => ?_⟩
      exact (hscopes hmissing).imp_right fun hlt => hlt.trans_le hlater.le
    | invalidGrant => exact h.2.imp_right fun hlt => hlt.trans_le hlater.le
    | failed => trivial
  | reloading via read => exact h.trans_le hlater.le
  | ended credential => trivial

/-- A step of one caller that leaves the row as it is. -/
lemma Inv.become (h : Inv start w) {caller : ℕ} {phase : Phase} (hphase : phase.Sound w) :
    Inv start (w.become caller phase) :=
  { h with
    callers := fun other => by
      by_cases hother : other = caller
      · subst hother
        simp only [World.become,Function.update_self]
        exact hphase.mono (.inl rfl)
      · simp only [World.become,Function.update_of_ne hother]
        exact (h.callers other).mono (.inl rfl) }

/-- A recorded change by a caller that has then ended. -/
lemma Inv.changed (h : Inv start w) {caller : ℕ} {result : Option Credential} {change : Change}
    {row : Connection} (hrow : row = change.apply w.connection)
    (hrotated : ∀ credential cause, change = .rotated credential cause →
      cause ≠ .transient ∧ credential.refreshToken.isSome)
    (hgaveUp : ∀ cause, change = .gaveUp cause → cause.justified) :
    Inv start { w.become caller (.ended result) with
      connection := row, changes := w.changes ++ [change] } where
  replayed := by
    rw [hrow,h.replayed,List.foldl_append]
    rfl
  rotated credential cause hmem := by
    obtain hmem | hmem := List.mem_append.mp hmem
    · exact h.rotated credential cause hmem
    · exact (hrotated credential cause (List.mem_singleton.mp hmem).symm).1
  gaveUp cause hmem := by
    obtain hmem | hmem := List.mem_append.mp hmem
    · exact h.gaveUp cause hmem
    · exact hgaveUp cause (List.mem_singleton.mp hmem).symm
  refreshable credential hcredential := by
    subst hrow
    cases change with
    | rotated credential' cause =>
      cases hcredential
      exact (hrotated credential cause rfl).2
    | gaveUp cause => cases hcredential
  callers other := by
    have hlt : w.connection.credentialVersion < row.credentialVersion := by
      subst hrow
      cases change <;> exact Nat.lt_succ_self _
    by_cases hother : other = caller
    · subst hother
      simp only [World.become,Function.update_self]
      trivial
    · simp only [World.become,Function.update_of_ne hother]
      exact (h.callers other).mono (.inr hlt)

end Invariant

section Steps

variable {start : Connection} {w w' : World} {read : Connection} {via : Via} {cause : Cause}
  {caller : ℕ}

lemma Inv.giveUp (h : Inv start w)
    (hcause : cause.justified ∨ read.credentialVersion < w.connection.credentialVersion) :
    Inv start (w.giveUp caller read cause) := by
  unfold World.giveUp Connection.requireConnectionReauthorization
  by_cases hcurrent : w.connection.status = .active ∧
      w.connection.credentialVersion = read.credentialVersion
  · simp only [if_pos hcurrent]
    refine h.changed rfl nofun fun cause' heq => ?_
    cases heq
    exact hcause.resolve_right (by omega)
  · simp only [if_neg hcurrent]
    exact h.become trivial

lemma Inv.settle (h : Inv start w) {outcome : Refreshed} (hsince : Since w read)
    (hsettles : Settles w read cause outcome) :
    Inv start (w.settle caller via read cause outcome) := by
  cases outcome with
  | failed => exact h.become trivial
  | invalidGrant => exact h.giveUp hsettles
  | credential refreshed =>
    obtain ⟨hrefreshable,htransient,hscopes⟩ := hsettles
    by_cases hmissing : read.scopes.any (· ∉ refreshed.grantedScopes) = true
    · rw [World.settle,if_pos hmissing]
      exact h.giveUp (hscopes hmissing)
    rw [World.settle,if_neg hmissing]
    unfold Connection.rotateConnectionCredential
    by_cases hcurrent : w.connection.status = .active ∧
        w.connection.credentialVersion = read.credentialVersion
    · simp only [if_pos hcurrent]
      refine h.changed rfl (fun credential cause' heq => ?_) nofun
      cases heq
      exact ⟨htransient,hrefreshable⟩
    · simp only [if_neg hcurrent]
      refine h.become ((hsince.le).lt_of_ne fun heq => ?_)
      exact hcurrent ⟨hsince.active heq,heq.symm⟩

/-- What a caller does with a row that it has just loaded. -/
lemma Inv.look (h : Inv start w) (via : Via) (now : ℤ) : (look via now w.connection).Sound w := by
  unfold CredentialRefresh.look
  cases hcredential : w.connection.credential with
  | none => trivial
  | some current =>
    have hrefreshable := h.refreshable current hcredential
    have hsince (hactive : w.connection.status = .active) : Since w w.connection :=
      ⟨le_rfl,fun _ => hactive⟩
    dsimp only
    split
    · trivial
    rename_i hactive
    split
    · trivial
    obtain ⟨refreshToken,htoken⟩ := Option.isSome_iff_exists.mp hrefreshable
    have hasking : (Phase.asking via w.connection current refreshToken).Sound w :=
      ⟨hsince (not_not.mp hactive),hrefreshable⟩
    rw [htoken]
    cases via with
    | resolve => cases hprovider : w.connection.provider <;> exact hasking
    | gateway =>
      cases hprovider : w.connection.provider with
      | google => exact hasking
      | github => trivial

lemma Inv.reload (h : Inv start w) (now : ℤ)
    (hlt : read.credentialVersion < w.connection.credentialVersion) :
    Inv start (w.reload caller read now via) := by
  have hlost : (Phase.settling .resolve read .invalidGrant .superseded).Sound w :=
    ⟨⟨hlt.le,fun heq => absurd heq hlt.ne⟩,.inr hlt⟩
  cases via with
  | gateway => exact h.become (h.look .gateway now)
  | resolve =>
    unfold World.reload
    dsimp only
    split
    · exact h.become hlost
    · split
      · exact h.become hlost
      · exact h.become trivial

end Steps

section Answers

variable {read : Connection} {current : Credential} {answer : Option Response} {newest : Bool}
  {now : ℤ}

lemma mem_normalized {scope : String} {scopes : List String} :
    scope ∈ normalized scopes ↔ scope ∈ scopes := by
  simp [normalized]

lemma normalized_eq {scopes scopes' : List String} (h : ∀ scope, scope ∈ scopes ↔ scope ∈ scopes') :
    normalized scopes = normalized scopes' := by
  have hdedup : scopes.dedup.Perm scopes'.dedup :=
    (List.perm_ext_iff_of_nodup (List.nodup_dedup _) (List.nodup_dedup _)).mpr (by simpa using h)
  have hperm : (normalized scopes).Perm (normalized scopes') :=
    (List.perm_insertionSort _ _).trans (hdedup.trans (List.perm_insertionSort _ _).symm)
  exact hperm.eq_of_pairwise' (List.pairwise_insertionSort (· ≤ ·) _)
    (List.pairwise_insertionSort (· ≤ ·) _)

lemma causeOf_refuses (h : refuses answer read.provider = true) :
    causeOf newest read current answer = .refused newest := if_pos h

lemma causeOf_narrows (hrefuses : refuses answer read.provider = false)
    (h : narrows read current answer = true) :
    causeOf newest read current answer = .narrowed newest := by
  rw [causeOf,hrefuses,h]
  rfl

lemma causeOf_accepted (current : Credential) (newest : Bool) {token : Token}
    (hrefuses : refuses answer read.provider = false)
    (h : accepted answer read.provider = some token) :
    causeOf newest read current answer ≠ .transient := by
  rw [causeOf,hrefuses,h]
  by_cases hnarrows : narrows read current answer = true
  · simp [hnarrows]
  · simp [hnarrows]

lemma narrows_iff {token : Token} (h : accepted answer read.provider = some token) :
    narrows read current answer = true ↔
      (expectedScopes read current).any (· ∉ grantedBy current token) = true := by
  rw [narrows,h]
  rfl

lemma tokenRequest_scope {token : Token} (h : tokenRequest answer = some token) :
    token.scope.isSome := by
  obtain ⟨response,-,hresponse⟩ := Option.bind_eq_some_iff.mp h
  split at hresponse
  · obtain ⟨body,-,hbody⟩ := Option.bind_eq_some_iff.mp hresponse
    cases body with
    | token token' =>
      simp only [githubToken] at hbody
      split at hbody
      · cases hbody
        assumption
      · cases hbody
    | error code => cases hbody
    | other => cases hbody
  · cases hresponse

lemma refuses_token {token : Token} {provider : Provider}
    (h : accepted answer provider = some token) :
    refuses answer provider = false := by
  cases answer with
  | none => rfl
  | some response =>
    obtain ⟨ok,body⟩ := response
    cases body with
    | none => cases provider <;> cases ok <;> simp [refuses,Response.refuses]
    | some body =>
      cases body <;> cases provider <;> cases ok <;>
        simp_all [refuses,Response.refuses,accepted,tokenRequest,googleToken,githubToken]

lemma readable {ok : Bool} {body : Body}
    (h : (answer.bind fun response => response.body.map (response.ok,·)) = some (ok,body)) :
    answer = some ⟨ok,some body⟩ := by
  obtain ⟨⟨ok',body'⟩,rfl,hbody⟩ := Option.bind_eq_some_iff.mp h
  obtain ⟨body',rfl,heq⟩ := Option.map_eq_some_iff.mp hbody
  cases heq
  rfl

/-- The Google adapters tell a refusal from other failures. -/
lemma refreshGoogleCredential_invalidGrant
    (h : refreshGoogleCredential current answer now = .invalidGrant) :
    refuses answer .google = true := by
  unfold refreshGoogleCredential at h
  split at h
  · cases h
  · rename_i body hanswer
    rw [readable hanswer]
    split at h
    · rename_i hbody
      subst hbody
      rfl
    · cases h
  · split at h <;> cases h

lemma refreshGoogleCredential_credential {credential : Credential}
    (h : refreshGoogleCredential current answer now = .credential credential) :
    ∃ token, accepted answer .google = some token ∧
      credential.refreshToken = (token.refreshToken.orElse fun _ => current.refreshToken) ∧
      credential.grantedScopes = (token.scope.map normalized).getD current.grantedScopes := by
  unfold refreshGoogleCredential at h
  split at h
  · cases h
  · split at h <;> cases h
  · rename_i body hanswer
    rw [readable hanswer]
    cases htoken : googleToken body with
    | none =>
      rw [htoken] at h
      cases h
    | some token =>
      rw [htoken] at h
      cases h
      exact ⟨token,htoken,rfl,rfl⟩

end Answers

section Requests

variable {start : Connection} {w : World} {read : Connection} {current : Credential}
  {answer : Option Response} {refreshToken : String}

/-- The scopes of a Google credential are those that its token grants. -/
lemma mem_granted_google {token : Token} {scope : String} :
    scope ∈ (token.scope.map normalized).getD current.grantedScopes ↔
      scope ∈ grantedBy current token := by
  rw [grantedBy]
  cases token.scope <;> simp [mem_normalized]

/-- A scope of the connection that is missing is missing from what the token grants. -/
lemma expected_missing {token : Token} {granted : List String}
    (hgranted : ∀ scope, scope ∈ granted ↔ scope ∈ grantedBy current token)
    (h : read.scopes.any (· ∉ granted) = true) :
    (expectedScopes read current).any (· ∉ grantedBy current token) = true := by
  obtain ⟨scope,hscope,hmissing⟩ := List.any_eq_true.mp h
  refine List.any_eq_true.mpr ⟨scope,?_,?_⟩
  · unfold expectedScopes
    split
    · exact hscope
    · exact List.mem_append_right _ hscope
  · simpa [hgranted] using hmissing

lemma orElse_isSome {token : Token} (h : current.refreshToken.isSome) :
    (token.refreshToken.orElse fun _ => current.refreshToken).isSome := by
  cases htoken : token.refreshToken with
  | none => exact h
  | some _ => rfl

lemma answered_sound (via : Via) (now : ℤ) (hsince : Since w read)
    (hrefreshable : current.refreshToken.isSome)
    (hgenuine : ∀ token, accepted answer read.provider = some token →
      ∀ scope ∈ grantedBy current token, scope ∈ current.grantedScopes)
    (hmeets : read.credentialVersion < w.connection.credentialVersion ∨
      (refuses answer read.provider = true ∨ narrows read current answer = true →
        refreshToken = w.newest) ∧
        (read.provider = .github → refuses answer .github = true ∨ (tokenRequest answer).isSome)) :
    (answered via read current answer now
      (causeOf (decide (refreshToken = w.newest)) read current answer)).Sound w := by
  have hrefused (h : refuses answer read.provider = true) :
      (causeOf (decide (refreshToken = w.newest)) read current answer).justified ∨
        read.credentialVersion < w.connection.credentialVersion := by
    rw [causeOf_refuses h]
    exact hmeets.symm.imp_left fun hmeets => decide_eq_true (hmeets.1 (.inl h))
  have hnarrowed {token : Token} (htoken : accepted answer read.provider = some token)
      (h : (expectedScopes read current).any (· ∉ grantedBy current token) = true) :
      (causeOf (decide (refreshToken = w.newest)) read current answer).justified ∨
        read.credentialVersion < w.connection.credentialVersion := by
    have hnarrows := (narrows_iff htoken).mpr h
    rw [causeOf_narrows (refuses_token htoken) hnarrows]
    exact hmeets.symm.imp_left fun hmeets => decide_eq_true (hmeets.1 (.inr hnarrows))
  cases hprovider : read.provider with
  | google =>
    simp only [answered,hprovider]
    refine ⟨hsince,?_⟩
    cases hrefresh : refreshGoogleCredential current answer now with
    | failed => trivial
    | invalidGrant =>
      exact hrefused (hprovider ▸ refreshGoogleCredential_invalidGrant hrefresh)
    | credential credential =>
      obtain ⟨token,htoken,hnext,hgranted⟩ := refreshGoogleCredential_credential hrefresh
      rw [← hprovider] at htoken
      have hcause := causeOf_accepted current (decide (refreshToken = w.newest))
        (refuses_token htoken) htoken
      refine ⟨hnext ▸ orElse_isSome hrefreshable,hcause,fun hmissing => hnarrowed htoken ?_⟩
      refine expected_missing (fun scope => ?_) hmissing
      rw [hgranted,mem_granted_google]
  | github =>
    simp only [answered,hprovider]
    cases htoken : tokenRequest answer with
    | none =>
      refine ⟨hsince,?_⟩
      obtain hlt | ⟨hnewest,hgithub⟩ := hmeets
      · exact .inr hlt
      · have hrefuses := (hgithub hprovider).resolve_right (by simp [htoken])
        exact hrefused (hprovider ▸ hrefuses)
    | some token =>
      have haccepted : accepted answer read.provider = some token := hprovider ▸ htoken
      have hcause := causeOf_accepted current (decide (refreshToken = w.newest))
        (refuses_token haccepted) haccepted
      have hscope : grantedBy current token = token.scope.getD [] := by
        obtain ⟨scopes,heq⟩ := Option.isSome_iff_exists.mp (tokenRequest_scope htoken)
        rw [grantedBy,heq]
        rfl
      by_cases hrequire : requireScopes (token.scope.getD []) current.grantedScopes = true
      · simp only [if_pos hrequire]
        refine ⟨hsince,hrefreshable,hcause,fun hmissing => hnarrowed haccepted ?_⟩
        refine expected_missing (fun scope => ?_) hmissing
        rw [mem_normalized,hscope]
      · simp only [if_neg hrequire]
        -- the scopes differ, and none has been added
        refine ⟨hsince,hnarrowed haccepted ?_⟩
        by_contra hnone
        refine hrequire (decide_eq_true (normalized_eq fun scope => ?_))
        refine ⟨fun hmem => ?_,fun hmem => ?_⟩
        · exact hgenuine token haccepted scope (hscope ▸ hmem)
        · by_contra hmissing
          refine hnone (List.any_eq_true.mpr ⟨scope,?_,by simpa [hscope] using hmissing⟩)
          rw [expectedScopes,hprovider]
          exact List.mem_append_left _ hmem

lemma meets_iff {caller : ℕ} {issued : Option Token} {via : Via} {now : ℤ}
    (hcaller : w.callers caller = .asking via read current refreshToken) :
    (Act.token caller issued answer now).meets w = true ↔
      read.credentialVersion < w.connection.credentialVersion ∨
      (refuses answer read.provider = true ∨ narrows read current answer = true →
        refreshToken = w.newest) ∧
        (read.provider = .github →
          refuses answer .github = true ∨ (tokenRequest answer).isSome) := by
  simp only [Act.meets,hcaller,Bool.or_eq_true,Bool.and_eq_true,Bool.not_eq_true',
    decide_eq_true_eq,← Bool.not_eq_true,not_or]
  cases read.provider <;> simp [or_iff_not_imp_left]

/-- What one act keeps. -/
lemma Inv.step {w' : World} {act : Act} (h : Inv start w) (hgenuine : act.genuine w = true)
    (hmeets : act.meets w = true) (hstep : w.step act = some w') : Inv start w' := by
  cases act with
  | read caller via now =>
    simp only [World.step] at hstep
    split at hstep <;> cases hstep
    exact h.become (h.look via now)
  | token caller issued answer now =>
    simp only [World.step] at hstep
    split at hstep
    · rename_i via read current refreshToken hcaller
      cases hstep
      have hsound := h.callers caller
      rw [hcaller] at hsound
      simp only [Act.genuine,hcaller,Bool.and_eq_true,Option.all_eq_true,List.all_eq_true,
        decide_eq_true_eq] at hgenuine
      have hanswered := answered_sound via now hsound.1 hsound.2
        (fun token htoken => (hgenuine.2 token htoken).2) ((meets_iff hcaller).mp hmeets)
      have hnext := (h.become hanswered : Inv start (w.become caller _))
      exact { hnext with callers := fun other => (hnext.callers other).mono (.inl rfl) }
    · cases hstep
  | account caller accountId now =>
    simp only [World.step] at hstep
    split at hstep
    · rename_i via read current token cause hcaller
      cases hstep
      have hsound := h.callers caller
      rw [hcaller] at hsound
      refine h.become ⟨hsound.1,?_⟩
      cases accountId with
      | none => trivial
      | some accountId =>
        have haccount : accountId = current.accountId := by
          simpa [Act.genuine,hcaller] using hgenuine
        rw [identified,if_neg (not_not.mpr haccount)]
        exact ⟨orElse_isSome hsound.2.1,hsound.2.2⟩
    · cases hstep
  | settle caller =>
    simp only [World.step] at hstep
    split at hstep
    · rename_i via read outcome cause hcaller
      cases hstep
      have hsound := h.callers caller
      rw [hcaller] at hsound
      exact h.settle hsound.1 hsound.2
    · cases hstep
  | reload caller now =>
    simp only [World.step] at hstep
    split at hstep
    · rename_i via read hcaller
      cases hstep
      have hsound := h.callers caller
      rw [hcaller] at hsound
      exact h.reload now hsound
    · cases hstep

end Requests

section Refusals

variable {read : Connection} {current : Credential} {answer : Option Response} {via : Via} {now : ℤ}
  {cause : Cause}

end Refusals

section Runs

variable {start w w₁ : World} {acts : List Act} {caller : ℕ} {answer : Option Response}

lemma World.Fresh.inv (h : start.Fresh) : Inv start.connection start where
  replayed := by
    rw [h.changes]
    rfl
  rotated := by
    rw [h.changes]
    nofun
  gaveUp := by
    rw [h.changes]
    nofun
  refreshable credential hcredential := by
    obtain ⟨credential',hcredential',hnewest⟩ := h.credential
    cases hcredential'.symm.trans hcredential
    exact Option.isSome_of_eq_some hnewest
  callers caller := by
    rw [h.idle]
    trivial

section Example

def connected (provider : Provider) : Connection :=
  ⟨provider,.active,some ⟨"account","access",some "refresh",some 0,["repo"]⟩,1,["repo"]⟩

def renewed : Token := ⟨"access 2",some "refresh 2",some 3600,some ["repo"]⟩

end Example
end Runs
end Linea.CredentialRefresh
