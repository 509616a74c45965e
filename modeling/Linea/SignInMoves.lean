import Linea.SignIn

/-! What the clients of the sign-in tables keep to: the invariant, and which rows a commit may
change under which locks. -/
namespace Linea.SignIn
open LockModes

section Invariant

/-- What is single use, as the record of commits shows it. -/
structure SingleUse (s : Store) : Prop where
  exchangeRecorded : ∀ id row, s.exchanges id = some row →
    ∃ requestId code verifier issuer trust,
      Fact.completed requestId code verifier id issuer trust ∈ s.facts
  completedOnce : (s.facts.filterMap fun
    | .completed requestId _ _ _ _ _ => some requestId
    | _ => none).Nodup
  consumedOnce : (s.facts.filterMap fun
    | .consumed exchangeId => some exchangeId
    | _ => none).Nodup
  sessionRecorded : ∀ id row, s.sessions id = some row →
    ∃ exchangeId generation current, Fact.opened id exchangeId generation current ∈ s.facts
  openedOnce : (s.facts.filterMap fun
    | .opened _ exchangeId _ _ => some exchangeId
    | _ => none).Nodup
  sameClaim : ∀ id code verifier exchangeId issuer trust code' verifier',
    .completed id code verifier exchangeId issuer trust ∈ s.facts →
    .claimed id code' verifier' ∈ s.facts → code' = code ∧ verifier' = verifier
  provedOnce : (s.facts.filterMap fun
    | .proved sessionId jtiHash _ _ _ => some (sessionId,jtiHash)
    | _ => none).Nodup
  provedOpen : ∀ id jti now row current, .proved id jti now row current ∈ s.facts →
    row.revokedAt = none ∧ now < row.expiresAt
  verified : ∀ id row, s.sessions id = some row → row.revokedAt = none →
    ∃ subject, s.externalSubjects row.externalSubjectId = some subject ∧ subject.status = .verified

/-- What is left of sign-ins that began before the trust configuration changed. -/
structure TrustKept (s : Store) : Prop where
  sessions : ∀ id row, s.sessions id = some row → row.revokedAt = none →
    row.generation = generation row.environmentId s.facts
  opened : ∀ id exchangeId generation current,
    .opened id exchangeId generation current ∈ s.facts → generation = current
  proved : ∀ id jti now row current, .proved id jti now row current ∈ s.facts →
    row.generation = current
  issuer : ∀ id code verifier exchangeId issuer trust,
    .completed id code verifier exchangeId issuer trust ∈ s.facts → issuer = trust.oidcIssuer

def Enabled (s : Store) (environmentId : String) : Prop :=
  ∃ row, s.environments environmentId = some row ∧ row.enabled = true

structure Inv (s : Store) : Prop extends SingleUse s, TrustKept s where
  subjectIssued : ∀ id row, s.externalSubjects id = some row → id ∈ s.issued
  requestIssued : ∀ id row, s.requests id = some row → id ∈ s.issued
  exchangeIssued : ∀ id row, s.exchanges id = some row → id ∈ s.issued
  sessionIssued : ∀ id row, s.sessions id = some row → id ∈ s.issued
  claimed : ∀ id code verifier, .claimed id code verifier ∈ s.facts → id ∈ s.issued ∧
    ∀ row, s.requests id = some row →
      row.authorizationCodeHash = some code ∧ row.codeVerifierHash = some verifier
  claims : ∀ id code verifier code' verifier', .claimed id code verifier ∈ s.facts →
    .claimed id code' verifier' ∈ s.facts → code' = code ∧ verifier' = verifier
  completed : ∀ id code verifier exchangeId issuer trust,
    .completed id code verifier exchangeId issuer trust ∈ s.facts →
      .claimed id code verifier ∈ s.facts ∧
      ∀ row, s.requests id = some row → row.completedAt.isSome
  consumed : ∀ id, .consumed id ∈ s.facts → id ∈ s.issued ∧
    ∀ row, s.exchanges id = some row → row.consumedAt.isSome
  openedConsumed : ∀ id exchangeId generation current,
    .opened id exchangeId generation current ∈ s.facts → .consumed exchangeId ∈ s.facts
  provedIssued : ∀ id jti now row current, .proved id jti now row current ∈ s.facts →
    id ∈ s.issued ∧ ((s.sessions id).isSome → (id,jti) ∈ s.proofs)
  requestGeneration : ∀ id row, s.requests id = some row → Enabled s row.environmentId →
    row.generation = generation row.environmentId s.facts
  exchangeGeneration : ∀ id row, s.exchanges id = some row → Enabled s row.environmentId →
    row.generation = generation row.environmentId s.facts
  sessionEnabled : ∀ id row, s.sessions id = some row → row.revokedAt = none →
    Enabled s row.environmentId

end Invariant

section Moves

/-- A row stays, or its lock is held in exclusive mode, or its key is new. -/
def Kept {α : Type} (n : ℕ) (held : Set (Slot Row)) (s : Store) (row : Row) (id : String)
    (before after : Option α) : Prop :=
  after = before ∨ Excludes n held row ∨ id ∉ s.issued

/-- What a client may change while it holds its locks. -/
structure Guarded (n c : ℕ) (held : Set (Slot Row)) (s s' : Store) : Prop where
  facts : s.facts <+: s'.facts
  issued : ∀ id ∈ s.issued, id ∈ s'.issued
  keys : ∀ id ∈ s'.issued, id ∈ s.issued ∨ Excludes n held (.key id)
  environments : ∀ id, s'.environments id = s.environments id ∨ Excludes n held (.environment id)
  changed : ∀ id, generation id s'.facts = generation id s.facts →
    (s'.environments id).bind (·.trust) = (s.environments id).bind (·.trust)
  subjects : ∀ id, Kept n held s (.subject id) id (s.externalSubjects id) (s'.externalSubjects id)
  requests : ∀ id, Kept n held s (.request id) id (s.requests id) (s'.requests id)
  requestOrigin : ∀ id row', s'.requests id = some row' →
    (id ∉ s.issued ∧ Shares n c held (.environment row'.environmentId)) ∨
    ∃ row, s.requests id = some row ∧ row'.environmentId = row.environmentId ∧
      row'.generation = row.generation
  exchanges : ∀ id, Kept n held s (.exchange id) id (s.exchanges id) (s'.exchanges id)
  exchangeOrigin : ∀ id row', s'.exchanges id = some row' →
    (id ∉ s.issued ∧ Shares n c held (.environment row'.environmentId)) ∨
    ∃ row, s.exchanges id = some row ∧ row'.environmentId = row.environmentId
  sessions : ∀ id, Kept n held s (.session id) id (s.sessions id) (s'.sessions id)
  sessionOrigin : ∀ id row', s'.sessions id = some row' →
    (id ∉ s.issued ∧ Shares n c held (.environment row'.environmentId) ∧
      Shares n c held (.subject row'.externalSubjectId)) ∨
    ∃ row, s.sessions id = some row ∧ row'.environmentId = row.environmentId ∧
      row'.externalSubjectId = row.externalSubjectId ∧
      (row'.revokedAt = none → row.revokedAt = none)
  proofs : ∀ id jti, ((id,jti) ∈ s'.proofs ↔ (id,jti) ∈ s.proofs) ∨
    Excludes n held (.session id)

variable {n c : ℕ} {held held' : Set (Slot Row)} {s s' s'' : Store}

@[simp] lemma generation_append (id : String) (facts facts' : List Fact) :
    generation id (facts ++ facts') = generation id facts + generation id facts' :=
  List.countP_append ..

lemma generation_mono (id : String) {facts facts' : List Fact} (h : facts <+: facts') :
    generation id facts ≤ generation id facts' := by
  obtain ⟨new,rfl⟩ := h
  simp

lemma Kept.trans {α : Type} {row : Row} {id : String} {x y z : Option α}
    (hissued : ∀ id ∈ s.issued, id ∈ s'.issued) (h : Kept n held s row id x y)
    (h' : Kept n held s' row id y z) : Kept n held s row id x z := by
  obtain rfl | hlock | hnew := h'
  · exact h
  · exact .inr (.inl hlock)
  · exact .inr (.inr fun hold => hnew (hissued id hold))

lemma Guarded.refl (s : Store) : Guarded n c held s s where
  facts := List.prefix_refl _
  issued _ h := h
  keys _ h := .inl h
  environments _ := .inl rfl
  changed _ _ := rfl
  subjects _ := .inl rfl
  requests _ := .inl rfl
  requestOrigin _ row h := .inr ⟨row,h,rfl,rfl⟩
  exchanges _ := .inl rfl
  exchangeOrigin _ row h := .inr ⟨row,h,rfl⟩
  sessions _ := .inl rfl
  sessionOrigin _ row h := .inr ⟨row,h,rfl,rfl,id⟩
  proofs _ _ := .inl Iff.rfl

lemma Guarded.trans (h : Guarded n c held s s') (h' : Guarded n c held s' s'') :
    Guarded n c held s s'' where
  facts := h.facts.trans h'.facts
  issued id hid := h'.issued id (h.issued id hid)
  keys id hid := (h'.keys id hid).elim (h.keys id) .inr
  environments id := (h'.environments id).elim
    (fun heq => (h.environments id).imp_left heq.trans) .inr
  changed id heq := by
    have hle := generation_mono id h.facts
    have hle' := generation_mono id h'.facts
    exact (h'.changed id (by omega)).trans (h.changed id (by omega))
  subjects id := (h.subjects id).trans h.issued (h'.subjects id)
  requests id := (h.requests id).trans h.issued (h'.requests id)
  requestOrigin id row'' hrow'' := by
    obtain ⟨hnew,hshare⟩ | ⟨row',hrow',henv',hgen'⟩ := h'.requestOrigin id row'' hrow''
    · exact .inl ⟨fun hold => hnew (h.issued id hold),hshare⟩
    · obtain ⟨hnew,hshare⟩ | ⟨row,hrow,henv,hgen⟩ := h.requestOrigin id row' hrow'
      · exact .inl ⟨hnew,henv' ▸ hshare⟩
      · exact .inr ⟨row,hrow,henv'.trans henv,hgen'.trans hgen⟩
  exchanges id := (h.exchanges id).trans h.issued (h'.exchanges id)
  exchangeOrigin id row'' hrow'' := by
    obtain ⟨hnew,hshare⟩ | ⟨row',hrow',henv'⟩ := h'.exchangeOrigin id row'' hrow''
    · exact .inl ⟨fun hold => hnew (h.issued id hold),hshare⟩
    · obtain ⟨hnew,hshare⟩ | ⟨row,hrow,henv⟩ := h.exchangeOrigin id row' hrow'
      · exact .inl ⟨hnew,henv' ▸ hshare⟩
      · exact .inr ⟨row,hrow,henv'.trans henv⟩
  sessions id := (h.sessions id).trans h.issued (h'.sessions id)
  sessionOrigin id row'' hrow'' := by
    obtain ⟨hnew,hshare⟩ | ⟨row',hrow',henv',hsub',hrev'⟩ := h'.sessionOrigin id row'' hrow''
    · exact .inl ⟨fun hold => hnew (h.issued id hold),hshare⟩
    · obtain ⟨hnew,hshare⟩ | ⟨row,hrow,henv,hsub,hrev⟩ := h.sessionOrigin id row' hrow'
      · exact .inl ⟨hnew,henv' ▸ hsub' ▸ hshare⟩
      · exact .inr ⟨row,hrow,henv'.trans henv,hsub'.trans hsub,fun h => hrev (hrev' h)⟩
  proofs id jti := (h'.proofs id jti).elim
    (fun hiff => (h.proofs id jti).imp_left hiff.trans) .inr

lemma Kept.mono {α : Type} {row : Row} {id : String} {x y : Option α}
    (h : Kept n held s row id x y) (hsub : held ⊆ held') : Kept n held' s row id x y :=
  h.imp_right (Or.imp_left (Excludes.mono · hsub))

/-- More locks allow as much. -/
lemma Guarded.mono (h : Guarded n c held s s') (hsub : held ⊆ held') :
    Guarded n c held' s s' :=
  { h with
    keys := fun id hid => (h.keys id hid).imp_right (Excludes.mono · hsub)
    environments := fun id => (h.environments id).imp_right (Excludes.mono · hsub)
    subjects := fun id => (h.subjects id).mono hsub
    requests := fun id => (h.requests id).mono hsub
    requestOrigin := fun id row hrow =>
      (h.requestOrigin id row hrow).imp_left (And.imp_right (Shares.mono · hsub))
    exchanges := fun id => (h.exchanges id).mono hsub
    exchangeOrigin := fun id row hrow =>
      (h.exchangeOrigin id row hrow).imp_left (And.imp_right (Shares.mono · hsub))
    sessions := fun id => (h.sessions id).mono hsub
    sessionOrigin := fun id row hrow => (h.sessionOrigin id row hrow).imp_left
      (And.imp_right (And.imp (Shares.mono · hsub) (Shares.mono · hsub)))
    proofs := fun id jti => (h.proofs id jti).imp_right (Excludes.mono · hsub) }

/-- The clients' agreement. -/
def discipline (n : ℕ) : Discipline Store (Slot Row) ℕ where
  inv := Inv
  move c held s s' := Guarded n c held s s' ∧ Inv s'
  permits _ := True
  inv_move _ h := h.2

abbrev Rely (n c : ℕ) (held : Set (Slot Row)) (s t : Store) : Prop :=
  (discipline n).Rely c held s t

end Moves

section Rely

variable {n c : ℕ} {held : Set (Slot Row)} {s t : Store}

/-- A relation that every interference keeps. -/
lemma rely_induction (rel : Store → Prop) (h : Rely n c held s t) (hs : rel s)
    (hstep : ∀ u v d held', Inv u → Disjoint held' held → Guarded n d held' u v → rel u → rel v) :
    rel t := by
  induction h with
  | refl => exact hs
  | tail _ hmove ih =>
    obtain ⟨d,held',-,hdisjoint,hinv,hmove,-⟩ := hmove
    exact hstep _ _ d held' hinv hdisjoint hmove ih

lemma rely_facts (h : Rely n c held s t) : s.facts <+: t.facts :=
  rely_induction (fun t => s.facts <+: t.facts) h (List.prefix_refl _)
    fun _ _ _ _ _ _ hmove ih => ih.trans hmove.facts

lemma rely_issued (h : Rely n c held s t) {id : String} (hid : id ∈ s.issued) : id ∈ t.issued :=
  rely_induction (fun t => id ∈ t.issued) h hid
    fun _ _ _ _ _ _ hmove ih => hmove.issued id ih

lemma rely_key (h : Rely n c held s t) {id : String} (hlock : Shares n c held (.key id))
    (hid : id ∉ s.issued) : id ∉ t.issued :=
  rely_induction (fun t => id ∉ t.issued) h hid
    fun _ _ _ _ _ hdisjoint hmove ih hv =>
      (hmove.keys id hv).elim ih (hlock.not_excludes hdisjoint)

lemma rely_environment (h : Rely n c held s t) {id : String}
    (hlock : Shares n c held (.environment id)) : t.environments id = s.environments id :=
  rely_induction (fun t => t.environments id = s.environments id) h rfl
    fun _ _ _ _ _ hdisjoint hmove ih =>
      ((hmove.environments id).resolve_right (hlock.not_excludes hdisjoint)).trans ih

/-- A locked row of a table stands. -/
lemma rely_row {α : Type} (table : Store → String → Option α) (row : String → Row)
    (hkept : ∀ {d held s s'}, Guarded n d held s s' → ∀ id,
      Kept n held s (row id) id (table s id) (table s' id))
    (h : Rely n c held s t) {id : String} (hlock : Shares n c held (row id))
    (hid : id ∈ s.issued) : table t id = table s id :=
  (rely_induction (fun t => id ∈ t.issued ∧ table t id = table s id) h ⟨hid,rfl⟩
    fun _ _ _ _ _ hdisjoint hmove ih =>
      ⟨hmove.issued id ih.1,(((hkept hmove id).resolve_right
        (not_or.mpr ⟨hlock.not_excludes hdisjoint,fun hnew => hnew ih.1⟩))).trans ih.2⟩).2

lemma rely_proofs (h : Rely n c held s t) {id jti : String}
    (hlock : Shares n c held (.session id)) : (id,jti) ∈ t.proofs ↔ (id,jti) ∈ s.proofs :=
  rely_induction (fun t => (id,jti) ∈ t.proofs ↔ (id,jti) ∈ s.proofs) h Iff.rfl
    fun _ _ _ _ _ hdisjoint hmove ih =>
      ((hmove.proofs id jti).resolve_right (hlock.not_excludes hdisjoint)).trans ih

/-- Rows that need a share of a lock to come into being do not come into being. -/
lemma rely_origin {α : Type} (table : Store → String → Option α) (belongs : α → Prop) {lock : Row}
    (horigin : ∀ {d held s s'}, Guarded n d held s s' → ∀ id row', table s' id = some row' →
      belongs row' → Shares n d held lock ∨ ∃ row, table s id = some row ∧ belongs row)
    (h : Rely n c held s t) (hlock : Excludes n held lock) {id : String} {row' : α}
    (hrow' : table t id = some row') (hbelongs : belongs row') :
    ∃ row, table s id = some row ∧ belongs row :=
  rely_induction (fun t => ∀ row', table t id = some row' → belongs row' →
      ∃ row, table s id = some row ∧ belongs row) h (fun row hrow hbelongs => ⟨row,hrow,hbelongs⟩)
    (fun _ _ _ _ _ hdisjoint hmove ih row' hrow' hbelongs' => by
      obtain hshare | ⟨row,hrow,hbelongs⟩ := horigin hmove id row' hrow' hbelongs'
      · exact absurd hshare (hlock.not_shares hdisjoint)
      · exact ih row hrow hbelongs) row' hrow' hbelongs

lemma rely_sessions_environment {environmentId : String} (h : Rely n c held s t)
    (hlock : Excludes n held (.environment environmentId)) {id : String} {row' : EndUserSession}
    (hrow' : t.sessions id = some row') (henv : row'.environmentId = environmentId)
    (hopen : row'.revokedAt = none) : ∃ row, s.sessions id = some row ∧
      row.environmentId = environmentId ∧ row.revokedAt = none :=
  rely_origin Store.sessions
    (fun row => row.environmentId = environmentId ∧ row.revokedAt = none)
    (fun hmove id row' hrow' hbelongs => by
      obtain ⟨-,hshare,-⟩ | ⟨row,hrow,henv,-,hopen⟩ := hmove.sessionOrigin id row' hrow'
      · exact .inl (hbelongs.1 ▸ hshare)
      · exact .inr ⟨row,hrow,henv.symm.trans hbelongs.1,hopen hbelongs.2⟩)
    h hlock hrow' ⟨henv,hopen⟩

lemma rely_sessions_subject {subjectId : String} (h : Rely n c held s t)
    (hlock : Excludes n held (.subject subjectId)) {id : String} {row' : EndUserSession}
    (hrow' : t.sessions id = some row') (hsubject : row'.externalSubjectId = subjectId)
    (hopen : row'.revokedAt = none) : ∃ row, s.sessions id = some row ∧
      row.externalSubjectId = subjectId ∧ row.revokedAt = none :=
  rely_origin Store.sessions
    (fun row => row.externalSubjectId = subjectId ∧ row.revokedAt = none)
    (fun hmove id row' hrow' hbelongs => by
      obtain ⟨-,-,hshare⟩ | ⟨row,hrow,-,hsubject,hopen⟩ := hmove.sessionOrigin id row' hrow'
      · exact .inl (hbelongs.1 ▸ hshare)
      · exact .inr ⟨row,hrow,hsubject.symm.trans hbelongs.1,hopen hbelongs.2⟩)
    h hlock hrow' ⟨hsubject,hopen⟩

lemma rely_requests_environment {environmentId : String} (h : Rely n c held s t)
    (hlock : Excludes n held (.environment environmentId)) {id : String}
    {row' : AuthorizationRequest} (hrow' : t.requests id = some row')
    (henv : row'.environmentId = environmentId) :
    ∃ row, s.requests id = some row ∧ row.environmentId = environmentId :=
  rely_origin Store.requests (fun row => row.environmentId = environmentId)
    (fun hmove id row' hrow' hbelongs => by
      obtain ⟨-,hshare⟩ | ⟨row,hrow,henv,-⟩ := hmove.requestOrigin id row' hrow'
      · exact .inl (hbelongs ▸ hshare)
      · exact .inr ⟨row,hrow,henv.symm.trans hbelongs⟩) h hlock hrow' henv

lemma rely_exchanges_environment {environmentId : String} (h : Rely n c held s t)
    (hlock : Excludes n held (.environment environmentId)) {id : String} {row' : IdentityExchange}
    (hrow' : t.exchanges id = some row') (henv : row'.environmentId = environmentId) :
    ∃ row, s.exchanges id = some row ∧ row.environmentId = environmentId :=
  rely_origin Store.exchanges (fun row => row.environmentId = environmentId)
    (fun hmove id row' hrow' hbelongs => by
      obtain ⟨-,hshare⟩ | ⟨row,hrow,henv⟩ := hmove.exchangeOrigin id row' hrow'
      · exact .inl (hbelongs ▸ hshare)
      · exact .inr ⟨row,hrow,henv.symm.trans hbelongs⟩) h hlock hrow' henv

/-- The configuration under which a request with a place in a generation is verified: as long as the
generation lasts, the environment has it. -/
def Trusted (environmentId : String) (generation₀ : ℕ) (trust : Trust) (s : Store) : Prop :=
  generation₀ ≤ generation environmentId s.facts ∧
    (generation environmentId s.facts = generation₀ →
      (s.environments environmentId).bind (·.trust) = some trust)

lemma trusted_permanent {environmentId : String} {generation₀ : ℕ} {trust : Trust} :
    (discipline n).Permanent (Trusted environmentId generation₀ trust) := by
  rintro d held s s' - ⟨hle,htrust⟩ ⟨hmove,-⟩
  have hmono := generation_mono environmentId hmove.facts
  refine ⟨hle.trans hmono,fun heq => ?_⟩
  rw [hmove.changed environmentId (by omega)]
  exact htrust (by omega)

/-- What stays true of a request once it has been claimed. -/
structure Claimed (id environmentId code verifier : String) (generation₀ : ℕ) (s : Store) :
    Prop where
  fact : .claimed id code verifier ∈ s.facts
  issued : id ∈ s.issued
  row : ∀ row, s.requests id = some row →
    row.environmentId = environmentId ∧ row.generation = generation₀

lemma claimed_permanent {id environmentId code verifier : String} {generation₀ : ℕ} :
    (discipline n).Permanent (Claimed id environmentId code verifier generation₀) := by
  rintro d held s s' - hclaimed ⟨hmove,-⟩
  refine ⟨hmove.facts.subset hclaimed.fact,hmove.issued id hclaimed.issued,fun row' hrow' => ?_⟩
  obtain ⟨hnew,-⟩ | ⟨row,hrow,henv,hgen⟩ := hmove.requestOrigin id row' hrow'
  · exact absurd hclaimed.issued hnew
  · obtain ⟨henv₀,hgen₀⟩ := hclaimed.row row hrow
    exact ⟨henv.trans henv₀,hgen.trans hgen₀⟩

end Rely
end Linea.SignIn
