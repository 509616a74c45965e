import Linea.SignInMoves

/-! The writes of the sign-in transactions: when a write keeps the invariant, and which locks it
needs. -/
namespace Linea.SignIn
open LockModes

section Rows

variable {s : Store} {id : String}

@[simp] lemma setRequest_self {row : Option AuthorizationRequest} :
    (s.setRequest id row).requests id = row := Function.update_self ..

@[simp] lemma setExchange_self {row : Option IdentityExchange} :
    (s.setExchange id row).exchanges id = row := Function.update_self ..

@[simp] lemma setSession_self {row : Option EndUserSession} :
    (s.setSession id row).sessions id = row := Function.update_self ..

@[simp] lemma setSubject_self {row : ExternalSubject} :
    (s.setSubject id row).externalSubjects id = some row := Function.update_self ..

end Rows

section Invariants

variable {s : Store} {id : String}

lemma Inv.issue (h : Inv s) (id : String) : Inv (s.issue id) :=
  have hmono {x : String} (hx : x ∈ s.issued) : x ∈ s.issued ++ [id] := List.mem_append_left _ hx
  { h with
    subjectIssued := fun x row hrow => hmono (h.subjectIssued x row hrow)
    requestIssued := fun x row hrow => hmono (h.requestIssued x row hrow)
    exchangeIssued := fun x row hrow => hmono (h.exchangeIssued x row hrow)
    sessionIssued := fun x row hrow => hmono (h.sessionIssued x row hrow)
    claimed := fun x code verifier hfact => ⟨hmono (h.claimed x code verifier hfact).1,
      (h.claimed x code verifier hfact).2⟩
    consumed := fun x hfact => ⟨hmono (h.consumed x hfact).1,(h.consumed x hfact).2⟩
    provedIssued := fun x jti now row current hfact =>
      ⟨hmono (h.provedIssued x jti now row current hfact).1,
        (h.provedIssued x jti now row current hfact).2⟩ }

/-- The rows of a table after one of them is set. -/
lemma of_update {α : Type} {table : String → Option α} {new : α} (holds : String → α → Prop)
    (hnew : holds id new) (hold : ∀ x row, table x = some row → holds x row) (x : String) (row : α)
    (hrow : Function.update table id (some new) x = some row) : holds x row := by
  by_cases hx : x = id
  · subst hx
    rw [Function.update_self,Option.some.injEq] at hrow
    exact hrow ▸ hnew
  · rw [Function.update_of_ne hx] at hrow
    exact hold x row hrow

lemma Inv.setRequest (h : Inv s) {row : AuthorizationRequest} (hid : id ∈ s.issued)
    (hclaimed : ∀ code verifier, .claimed id code verifier ∈ s.facts →
      row.authorizationCodeHash = some code ∧ row.codeVerifierHash = some verifier)
    (hcompleted : ∀ code verifier exchangeId issuer trust,
      .completed id code verifier exchangeId issuer trust ∈ s.facts → row.completedAt.isSome)
    (hgeneration : Enabled s row.environmentId →
      row.generation = generation row.environmentId s.facts) :
    Inv (s.setRequest id (some row)) :=
  { h with
    requestIssued := of_update (fun x _ => x ∈ s.issued) hid h.requestIssued
    claimed := fun x code verifier hfact => ⟨(h.claimed x code verifier hfact).1,
      fun row' hrow' => of_update
        (fun x (row : AuthorizationRequest) => .claimed x code verifier ∈ s.facts →
          row.authorizationCodeHash = some code ∧ row.codeVerifierHash = some verifier)
        (hclaimed code verifier)
        (fun x row hrow hfact => (h.claimed x code verifier hfact).2 row hrow) x row' hrow' hfact⟩
    completed := fun x code verifier exchangeId issuer trust hfact =>
      ⟨(h.completed x code verifier exchangeId issuer trust hfact).1,fun row' hrow' => of_update
        (fun x (row : AuthorizationRequest) =>
          .completed x code verifier exchangeId issuer trust ∈ s.facts → row.completedAt.isSome)
        (hcompleted code verifier exchangeId issuer trust)
        (fun x row hrow hfact => (h.completed x code verifier exchangeId issuer trust hfact).2 row
          hrow) x row' hrow' hfact⟩
    requestGeneration := of_update
      (fun _ (row : AuthorizationRequest) => Enabled s row.environmentId →
        row.generation = generation row.environmentId s.facts) hgeneration h.requestGeneration }

lemma Inv.setExchange (h : Inv s) {row : IdentityExchange} (hid : id ∈ s.issued)
    (hrecorded : ∃ requestId code verifier issuer trust,
      Fact.completed requestId code verifier id issuer trust ∈ s.facts)
    (hconsumed : .consumed id ∈ s.facts → row.consumedAt.isSome)
    (hgeneration : Enabled s row.environmentId →
      row.generation = generation row.environmentId s.facts) :
    Inv (s.setExchange id (some row)) :=
  { h with
    exchangeRecorded := of_update
      (fun x _ => ∃ requestId code verifier issuer trust,
        Fact.completed requestId code verifier x issuer trust ∈ s.facts)
      hrecorded h.exchangeRecorded
    exchangeIssued := of_update (fun x _ => x ∈ s.issued) hid h.exchangeIssued
    consumed := fun x hfact => ⟨(h.consumed x hfact).1,fun row' hrow' => of_update
      (fun x (row : IdentityExchange) => .consumed x ∈ s.facts → row.consumedAt.isSome) hconsumed
      (fun x row hrow hfact => (h.consumed x hfact).2 row hrow) x row' hrow' hfact⟩
    exchangeGeneration := of_update
      (fun _ (row : IdentityExchange) => Enabled s row.environmentId →
        row.generation = generation row.environmentId s.facts) hgeneration h.exchangeGeneration }

lemma Inv.setSession (h : Inv s) {row : EndUserSession} (hid : id ∈ s.issued)
    (hrecorded : ∃ exchangeId generation current,
      Fact.opened id exchangeId generation current ∈ s.facts)
    (hproved : ∀ jti now row current,
      .proved id jti now row current ∈ s.facts → (id,jti) ∈ s.proofs)
    (hopen : row.revokedAt = none → Enabled s row.environmentId ∧
      row.generation = generation row.environmentId s.facts ∧
      ∃ subject, s.externalSubjects row.externalSubjectId = some subject ∧
        subject.status = .verified) :
    Inv (s.setSession id (some row)) :=
  { h with
    sessionRecorded := of_update
      (fun x _ => ∃ exchangeId generation current,
        Fact.opened x exchangeId generation current ∈ s.facts) hrecorded h.sessionRecorded
    verified := of_update
      (fun _ (row : EndUserSession) => row.revokedAt = none →
        ∃ subject, s.externalSubjects row.externalSubjectId = some subject ∧
          subject.status = .verified) (fun hnone => (hopen hnone).2.2) h.verified
    sessions := of_update
      (fun _ (row : EndUserSession) => row.revokedAt = none →
        row.generation = generation row.environmentId s.facts)
      (fun hnone => (hopen hnone).2.1) h.sessions
    sessionIssued := of_update (fun x _ => x ∈ s.issued) hid h.sessionIssued
    provedIssued := fun x jti now row' current hfact => by
      refine ⟨(h.provedIssued x jti now row' current hfact).1,fun hsome => ?_⟩
      by_cases hx : x = id
      · exact hx ▸ hproved jti now row' current (hx ▸ hfact)
      · refine (h.provedIssued x jti now row' current hfact).2 ?_
        change (Function.update s.sessions id (some row) x).isSome = true at hsome
        rwa [Function.update_of_ne hx] at hsome
    sessionEnabled := of_update
      (fun _ (row : EndUserSession) => row.revokedAt = none → Enabled s row.environmentId)
      (fun hnone => (hopen hnone).1) h.sessionEnabled }

section Facts

lemma mem_record {fact fact' : Fact} :
    fact' ∈ (s.record fact).facts ↔ fact' ∈ s.facts ∨ fact' = fact := by
  simp [Store.record]

/-- What a fact that is recorded says of the rows at that time. A change is recorded with the row of
the environment. -/
def Recordable (s : Store) : Fact → Prop
  | .changed _ => False
  | .claimed id code verifier => id ∈ s.issued ∧
      (∀ row, s.requests id = some row →
        row.authorizationCodeHash = some code ∧ row.codeVerifierHash = some verifier) ∧
      ∀ code' verifier', .claimed id code' verifier' ∈ s.facts → code' = code ∧ verifier' = verifier
  | .completed id code verifier _ issuer trust => .claimed id code verifier ∈ s.facts ∧
      (∀ row, s.requests id = some row → row.completedAt.isSome) ∧
      (∀ code verifier exchangeId issuer trust,
        .completed id code verifier exchangeId issuer trust ∉ s.facts) ∧ issuer = trust.oidcIssuer
  | .consumed id => id ∈ s.issued ∧ (∀ row, s.exchanges id = some row → row.consumedAt.isSome) ∧
      .consumed id ∉ s.facts
  | .opened _ exchangeId generation current => .consumed exchangeId ∈ s.facts ∧
      (∀ id generation current, .opened id exchangeId generation current ∉ s.facts) ∧
      generation = current
  | .proved id jti now row current => id ∈ s.issued ∧ (id,jti) ∈ s.proofs ∧
      (∀ now row current, .proved id jti now row current ∉ s.facts) ∧ row.revokedAt = none ∧
      now < row.expiresAt ∧ row.generation = current

lemma nodup_record {β : Type} {view : Fact → Option β} {fact : Fact}
    (h : (s.facts.filterMap view).Nodup)
    (hnew : ∀ b, view fact = some b → ∀ fact' ∈ s.facts, view fact' ≠ some b) :
    ((s.record fact).facts.filterMap view).Nodup := by
  rw [Store.record,List.filterMap_append,List.nodup_append]
  refine ⟨h,?_,fun b hb b' hb' heq => ?_⟩
  · cases hview : view fact <;> simp [hview]
  · obtain ⟨fact',hmem,hview⟩ := List.mem_filterMap.mp hb
    have hview' : view fact = some b' := by simpa using hb'
    exact hnew b' hview' fact' hmem (hview.trans (congrArg some heq))

lemma generation_record {fact : Fact} (h : ∀ id, fact ≠ .changed id) (environmentId : String) :
    generation environmentId (s.record fact).facts = generation environmentId s.facts := by
  cases fact with
  | changed id => exact absurd rfl (h id)
  | _ => simp [Store.record,generation]

lemma Inv.record (h : Inv s) {fact : Fact} (hfact : Recordable s fact) : Inv (s.record fact) := by
  have hother : ∀ id, fact ≠ .changed id := by
    rintro id rfl
    exact hfact
  have hgeneration := generation_record (s := s) hother
  have hold {fact' : Fact} (hmem : fact' ∈ s.facts) : fact' ∈ (s.record fact).facts :=
    mem_record.mpr (.inl hmem)
  exact {
    exchangeRecorded := fun id row hrow => by
      obtain ⟨requestId,code,verifier,issuer,trust,hmem⟩ := h.exchangeRecorded id row hrow
      exact ⟨requestId,code,verifier,issuer,trust,hold hmem⟩
    completedOnce := nodup_record h.completedOnce fun b hb fact' hmem hview => by
      cases fact with
      | completed id code verifier exchangeId issuer trust =>
        cases hb
        cases fact' with
        | completed id' code verifier exchangeId issuer trust =>
          cases hview
          exact hfact.2.2.1 _ _ _ _ _ hmem
        | _ => cases hview
      | _ => cases hb
    consumedOnce := nodup_record h.consumedOnce fun b hb fact' hmem hview => by
      cases fact with
      | consumed id =>
        cases hb
        cases fact' with
        | consumed id' =>
          cases hview
          exact hfact.2.2 hmem
        | _ => cases hview
      | _ => cases hb
    sessionRecorded := fun id row hrow => by
      obtain ⟨exchangeId,generation,current,hmem⟩ := h.sessionRecorded id row hrow
      exact ⟨exchangeId,generation,current,hold hmem⟩
    openedOnce := nodup_record h.openedOnce fun b hb fact' hmem hview => by
      cases fact with
      | opened id exchangeId generation current =>
        cases hb
        cases fact' with
        | opened id' exchangeId' generation current =>
          cases hview
          exact hfact.2.1 _ _ _ hmem
        | _ => cases hview
      | _ => cases hb
    sameClaim := fun id code verifier exchangeId issuer trust code' verifier' hdone hclaimed => by
      obtain hbefore | heq := mem_record.mp hdone
      · obtain hbefore' | rfl := mem_record.mp hclaimed
        · exact h.sameClaim id code verifier exchangeId issuer trust code' verifier' hbefore
            hbefore'
        · have hsame := hfact.2.2 code verifier (h.completed _ _ _ _ _ _ hbefore).1
          exact ⟨hsame.1.symm,hsame.2.symm⟩
      · subst heq
        exact h.claims id code verifier code' verifier' hfact.1
          ((mem_record.mp hclaimed).resolve_right nofun)
    provedOnce := nodup_record h.provedOnce fun b hb fact' hmem hview => by
      cases fact with
      | proved id jti now row current =>
        cases hb
        cases fact' with
        | proved id' jti' now row current =>
          cases hview
          exact hfact.2.2.1 _ _ _ hmem
        | _ => cases hview
      | _ => cases hb
    provedOpen := fun id jti now row current hmem => by
      obtain hmem | rfl := mem_record.mp hmem
      · exact h.provedOpen id jti now row current hmem
      · exact ⟨hfact.2.2.2.1,hfact.2.2.2.2.1⟩
    verified := h.verified
    sessions := fun id row hrow hopen => (h.sessions id row hrow hopen).trans (hgeneration _).symm
    opened := fun id exchangeId generation current hmem => by
      obtain hmem | rfl := mem_record.mp hmem
      · exact h.opened id exchangeId generation current hmem
      · exact hfact.2.2
    proved := fun id jti now row current hmem => by
      obtain hmem | rfl := mem_record.mp hmem
      · exact h.proved id jti now row current hmem
      · exact hfact.2.2.2.2.2
    issuer := fun id code verifier exchangeId issuer trust hmem => by
      obtain hmem | rfl := mem_record.mp hmem
      · exact h.issuer id code verifier exchangeId issuer trust hmem
      · exact hfact.2.2.2
    subjectIssued := h.subjectIssued
    requestIssued := h.requestIssued
    exchangeIssued := h.exchangeIssued
    sessionIssued := h.sessionIssued
    claimed := fun id code verifier hmem => by
      obtain hmem | rfl := mem_record.mp hmem
      · exact h.claimed id code verifier hmem
      · exact ⟨hfact.1,hfact.2.1⟩
    claims := fun id code verifier code' verifier' hone hother => by
      obtain hbefore | rfl := mem_record.mp hone
      · obtain hbefore' | rfl := mem_record.mp hother
        · exact h.claims id code verifier code' verifier' hbefore hbefore'
        · have hsame := hfact.2.2 code verifier hbefore
          exact ⟨hsame.1.symm,hsame.2.symm⟩
      · obtain hbefore' | heq := mem_record.mp hother
        · exact hfact.2.2 code' verifier' hbefore'
        · cases heq
          exact ⟨rfl,rfl⟩
    completed := fun id code verifier exchangeId issuer trust hmem => by
      obtain hmem | rfl := mem_record.mp hmem
      · exact ⟨hold (h.completed id code verifier exchangeId issuer trust hmem).1,
          (h.completed id code verifier exchangeId issuer trust hmem).2⟩
      · exact ⟨hold hfact.1,hfact.2.1⟩
    consumed := fun id hmem => by
      obtain hmem | rfl := mem_record.mp hmem
      · exact h.consumed id hmem
      · exact ⟨hfact.1,hfact.2.1⟩
    openedConsumed := fun id exchangeId generation current hmem => by
      obtain hmem | rfl := mem_record.mp hmem
      · exact hold (h.openedConsumed id exchangeId generation current hmem)
      · exact hold hfact.1
    provedIssued := fun id jti now row current hmem => by
      obtain hmem | rfl := mem_record.mp hmem
      · exact h.provedIssued id jti now row current hmem
      · exact ⟨hfact.1,fun _ => hfact.2.1⟩
    requestGeneration := fun id row hrow henabled =>
      (h.requestGeneration id row hrow henabled).trans (hgeneration _).symm
    exchangeGeneration := fun id row hrow henabled =>
      (h.exchangeGeneration id row hrow henabled).trans (hgeneration _).symm
    sessionEnabled := h.sessionEnabled }

end Facts

/-- A claim, for the code and the verifier of the claims before it. -/
lemma Inv.claim (h : Inv s) {row row' : AuthorizationRequest} {code verifier : String}
    (hrow : s.requests id = some row)
    (hsame : ∀ code' verifier', .claimed id code' verifier' ∈ s.facts →
      code' = code ∧ verifier' = verifier)
    (hcode : row'.authorizationCodeHash = some code)
    (hverifier : row'.codeVerifierHash = some verifier)
    (hcompleted : row'.completedAt = row.completedAt)
    (henvironment : row'.environmentId = row.environmentId)
    (hgeneration : row'.generation = row.generation) :
    Inv ((s.setRequest id (some row')).record (.claimed id code verifier)) := by
  have hissued := h.requestIssued id row hrow
  have hset : Inv (s.setRequest id (some row')) := by
    refine h.setRequest hissued (fun code' verifier' hfact => ?_) ?_ fun henabled => ?_
    · obtain ⟨rfl,rfl⟩ := hsame code' verifier' hfact
      exact ⟨hcode,hverifier⟩
    · intro code' verifier' exchangeId issuer trust hfact
      rw [hcompleted]
      exact (h.completed id code' verifier' exchangeId issuer trust hfact).2 row hrow
    · rw [henvironment] at henabled ⊢
      rw [hgeneration]
      exact h.requestGeneration id row hrow henabled
  refine hset.record ⟨hissued,fun row₁ hrow₁ => ?_,hsame⟩
  rw [setRequest_self,Option.some.injEq] at hrow₁
  exact hrow₁ ▸ ⟨hcode,hverifier⟩

/-- A completion with a new exchange, of a claimed request that is not completed. -/
lemma Inv.complete (h : Inv s) {row row' : AuthorizationRequest} {exchange : IdentityExchange}
    {code verifier exchangeId issuer : String} {trust : Trust} (hrow : s.requests id = some row)
    (hclaimed : .claimed id code verifier ∈ s.facts) (hopen : row.completedAt = none)
    (hcompleted : row'.completedAt.isSome)
    (hcode : row'.authorizationCodeHash = row.authorizationCodeHash)
    (hverifier : row'.codeVerifierHash = row.codeVerifierHash)
    (henvironment : row'.environmentId = row.environmentId)
    (hgeneration : row'.generation = row.generation) (hnew : exchangeId ∉ s.issued)
    (hissuer : issuer = trust.oidcIssuer) (hplace : exchange.environmentId = row.environmentId)
    (hage : exchange.generation = row.generation) :
    Inv ((((s.setExchange exchangeId (some exchange)).issue exchangeId).setRequest id
      (some row')).record (.completed id code verifier exchangeId issuer trust)) := by
  have hset : Inv ((s.issue exchangeId).setRequest id (some row')) := by
    refine (h.issue exchangeId).setRequest (List.mem_append_left _ (h.requestIssued id row hrow))
      ?_ (fun _ _ _ _ _ _ => hcompleted) fun henabled => ?_
    · intro code' verifier' hfact
      rw [hcode,hverifier]
      exact (h.claimed id code' verifier' hfact).2 row hrow
    · rw [henvironment] at henabled ⊢
      rw [hgeneration]
      exact h.requestGeneration id row hrow henabled
  have hrecord : Inv (((s.issue exchangeId).setRequest id (some row')).record
      (.completed id code verifier exchangeId issuer trust)) := by
    refine hset.record ⟨hclaimed,fun row₁ hrow₁ => ?_,fun _ _ _ _ _ hfact => ?_,hissuer⟩
    · rw [setRequest_self,Option.some.injEq] at hrow₁
      exact hrow₁ ▸ hcompleted
    · have hdone := (h.completed _ _ _ _ _ _ hfact).2 row hrow
      rw [hopen] at hdone
      cases hdone
  refine hrecord.setExchange (List.mem_append_right _ (List.mem_singleton_self exchangeId))
    ⟨id,code,verifier,issuer,trust,mem_record.mpr (.inr rfl)⟩ (fun hfact => ?_) fun henabled => ?_
  · have hbefore : .consumed exchangeId ∈ s.facts := (mem_record.mp hfact).resolve_right nofun
    exact absurd (h.consumed exchangeId hbefore).1 hnew
  · rw [generation_record fun _ heq => by cases heq]
    rw [hplace] at henabled ⊢
    rw [hage]
    exact h.requestGeneration id row hrow henabled

lemma Inv.consume (h : Inv s) {row : IdentityExchange} (hrow : s.exchanges id = some row)
    (hopen : row.consumedAt = none) (now : ℤ) :
    Inv ((s.setExchange id (some { row with consumedAt := some now })).record (.consumed id)) := by
  have hissued := h.exchangeIssued id row hrow
  have hset : Inv (s.setExchange id (some { row with consumedAt := some now })) :=
    h.setExchange hissued (h.exchangeRecorded id row hrow) (fun _ => rfl)
      fun henabled => h.exchangeGeneration id row hrow henabled
  refine hset.record ⟨hissued,fun row' hrow' => ?_,fun hfact => ?_⟩
  · rw [setExchange_self,Option.some.injEq] at hrow'
    exact hrow' ▸ rfl
  · have hconsumed := (h.consumed id hfact).2 row hrow
    rw [hopen] at hconsumed
    cases hconsumed

/-- The first session of an exchange that has been consumed. -/
lemma Inv.opens (h : Inv s) {row : EndUserSession} {exchangeId : String} (hnew : id ∉ s.issued)
    (hconsumed : .consumed exchangeId ∈ s.facts)
    (hfirst : ∀ id generation current, .opened id exchangeId generation current ∉ s.facts)
    (henabled : Enabled s row.environmentId)
    (hgeneration : row.generation = generation row.environmentId s.facts)
    (hverified : ∃ subject, s.externalSubjects row.externalSubjectId = some subject ∧
      subject.status = .verified) :
    Inv (((s.setSession id (some row)).issue id).record (.opened id exchangeId row.generation
      (generation row.environmentId s.facts))) := by
  have hrecord : Inv ((s.issue id).record (.opened id exchangeId row.generation
      (generation row.environmentId s.facts))) :=
    (h.issue id).record ⟨hconsumed,hfirst,hgeneration⟩
  refine hrecord.setSession (List.mem_append_right _ (List.mem_singleton_self id))
    ⟨exchangeId,_,_,mem_record.mpr (.inr rfl)⟩ (fun jti now row' current hfact => ?_)
    fun _ => ⟨henabled,?_,hverified⟩
  · have hbefore : .proved id jti now row' current ∈ s.facts :=
      (mem_record.mp hfact).resolve_right nofun
    exact absurd (h.provedIssued id jti now row' current hbefore).1 hnew
  · rw [generation_record fun _ heq => by cases heq]
    exact hgeneration

/-- A proof that has not been used, of a session that is open. -/
lemma Inv.proves (h : Inv s) {row : EndUserSession} (row' : EndUserSession) {jti : String}
    {now : ℤ}
    (hrow : s.sessions id = some row) (hnew : (id,jti) ∉ s.proofs)
    (hopen : row.revokedAt = none) (hopen' : row'.revokedAt = none) (hlive : now < row'.expiresAt)
    (henvironment : row'.environmentId = row.environmentId)
    (hsubject : row'.externalSubjectId = row.externalSubjectId)
    (hgeneration : row'.generation = row.generation) :
    Inv ((({ s with proofs := s.proofs ++ [(id,jti)] }).setSession id (some row')).record
      (.proved id jti now row' (generation row'.environmentId s.facts))) := by
  have hproofs : Inv { s with proofs := s.proofs ++ [(id,jti)] } :=
    { h with
      provedIssued := fun x jti' now' row₁ current hfact =>
        ⟨(h.provedIssued x jti' now' row₁ current hfact).1,fun hsome =>
          List.mem_append_left _ ((h.provedIssued x jti' now' row₁ current hfact).2 hsome)⟩ }
  have hsome : (s.sessions id).isSome := Option.isSome_of_eq_some hrow
  have hage : row'.generation = generation row'.environmentId s.facts := by
    rw [hgeneration,henvironment]
    exact h.sessions id row hrow hopen
  have hset : Inv (({ s with proofs := s.proofs ++ [(id,jti)] }).setSession id (some row')) := by
    refine hproofs.setSession (h.sessionIssued id row hrow) (h.sessionRecorded id row hrow)
      (fun jti' now' row₁ current hfact => ?_) fun _ => ⟨?_,hage,?_⟩
    · exact List.mem_append_left _ ((h.provedIssued id jti' now' row₁ current hfact).2 hsome)
    · rw [henvironment]
      exact h.sessionEnabled id row hrow hopen
    · rw [hsubject]
      exact h.verified id row hrow hopen
  refine hset.record ⟨h.sessionIssued id row hrow,?_,fun now' row₁ current hfact => ?_,hopen',hlive,
    hage⟩
  · exact List.mem_append_right _ (List.mem_singleton_self (id,jti))
  · exact hnew ((h.provedIssued id jti now' row₁ current hfact).2 hsome)

/-- A table of which rows have been deleted. -/
lemma of_delete {α : Type} {table : String → Option α} {ids : List String} {x : String} {row : α}
    (h : (if x ∈ ids then none else table x) = some row) : x ∉ ids ∧ table x = some row := by
  split at h
  · cases h
  · exact ⟨‹_›,h⟩

lemma Inv.deleteRequests (h : Inv s) (ids : List String) : Inv (s.deleteRequests ids) :=
  { h with
    requestIssued := fun x row hrow => h.requestIssued x row (of_delete hrow).2
    claimed := fun x code verifier hfact => ⟨(h.claimed x code verifier hfact).1,
      fun row hrow => (h.claimed x code verifier hfact).2 row (of_delete hrow).2⟩
    completed := fun x code verifier exchangeId issuer trust hfact =>
      ⟨(h.completed x code verifier exchangeId issuer trust hfact).1,
        fun row hrow => (h.completed x code verifier exchangeId issuer trust hfact).2 row
          (of_delete hrow).2⟩
    requestGeneration := fun x row hrow => h.requestGeneration x row (of_delete hrow).2 }

lemma Inv.deleteExchanges (h : Inv s) (ids : List String) : Inv (s.deleteExchanges ids) :=
  { h with
    exchangeRecorded := fun x row hrow => h.exchangeRecorded x row (of_delete hrow).2
    exchangeIssued := fun x row hrow => h.exchangeIssued x row (of_delete hrow).2
    consumed := fun x hfact => ⟨(h.consumed x hfact).1,
      fun row hrow => (h.consumed x hfact).2 row (of_delete hrow).2⟩
    exchangeGeneration := fun x row hrow => h.exchangeGeneration x row (of_delete hrow).2 }

lemma Inv.deleteSessions (h : Inv s) (ids : List String) : Inv (s.deleteSessions ids) :=
  { h with
    sessionRecorded := fun x row hrow => h.sessionRecorded x row (of_delete hrow).2
    verified := fun x row hrow => h.verified x row (of_delete hrow).2
    sessions := fun x row hrow => h.sessions x row (of_delete hrow).2
    sessionIssued := fun x row hrow => h.sessionIssued x row (of_delete hrow).2
    provedIssued := fun x jti now row current hfact => by
      refine ⟨(h.provedIssued x jti now row current hfact).1,fun hsome => ?_⟩
      obtain ⟨row',hrow'⟩ := Option.isSome_iff_exists.mp hsome
      obtain ⟨hkept,hrow'⟩ := of_delete hrow'
      refine List.mem_filter.mpr
        ⟨(h.provedIssued x jti now row current hfact).2 ?_,by simpa using hkept⟩
      rw [hrow']
      rfl
    sessionEnabled := fun x row hrow => h.sessionEnabled x row (of_delete hrow).2 }

/-- A session that is not revoked after a revocation was not revoked before and is not among those
revoked. -/
lemma of_revoke {ids : List String} {now : ℤ} {x : String} {row : EndUserSession}
    (h : (s.revokeSessions ids now).sessions x = some row) :
    ∃ row₀, s.sessions x = some row₀ ∧ (row.revokedAt = none → x ∉ ids ∧ row₀ = row) ∧
      row.environmentId = row₀.environmentId ∧ row.externalSubjectId = row₀.externalSubjectId := by
  simp only [Store.revokeSessions] at h
  split at h
  · rename_i hx
    obtain ⟨row₀,hrow₀,hrow⟩ := Option.map_eq_some_iff.mp h
    refine ⟨row₀,hrow₀,?_⟩
    split at hrow
    · rename_i hrevoked
      subst hrow
      exact ⟨fun hopen => by simp [hopen] at hrevoked,rfl,rfl⟩
    · subst hrow
      exact ⟨nofun,rfl,rfl⟩
  · rename_i hx
    exact ⟨row,h,fun _ => ⟨hx,rfl⟩,rfl,rfl⟩

lemma Inv.revokeSessions (h : Inv s) (ids : List String) (now : ℤ) :
    Inv (s.revokeSessions ids now) :=
  { h with
    sessionRecorded := fun x row hrow => by
      obtain ⟨row₀,hrow₀,-⟩ := of_revoke hrow
      exact h.sessionRecorded x row₀ hrow₀
    verified := fun x row hrow hopen => by
      obtain ⟨row₀,hrow₀,hsame,-⟩ := of_revoke hrow
      obtain ⟨-,rfl⟩ := hsame hopen
      exact h.verified x row₀ hrow₀ hopen
    sessions := fun x row hrow hopen => by
      obtain ⟨row₀,hrow₀,hsame,-⟩ := of_revoke hrow
      obtain ⟨-,rfl⟩ := hsame hopen
      exact h.sessions x row₀ hrow₀ hopen
    sessionIssued := fun x row hrow => by
      obtain ⟨row₀,hrow₀,-⟩ := of_revoke hrow
      exact h.sessionIssued x row₀ hrow₀
    provedIssued := fun x jti at' row current hfact => by
      refine ⟨(h.provedIssued x jti at' row current hfact).1,fun hsome => ?_⟩
      obtain ⟨row',hrow'⟩ := Option.isSome_iff_exists.mp hsome
      obtain ⟨row₀,hrow₀,-⟩ := of_revoke hrow'
      refine (h.provedIssued x jti at' row current hfact).2 ?_
      rw [hrow₀]
      rfl
    sessionEnabled := fun x row hrow hopen => by
      obtain ⟨row₀,hrow₀,hsame,-⟩ := of_revoke hrow
      obtain ⟨-,rfl⟩ := hsame hopen
      exact h.sessionEnabled x row₀ hrow₀ hopen }

/-- A subject is verified, or has no session left. -/
lemma Inv.setSubject (h : Inv s) {row : ExternalSubject} (hid : id ∈ s.issued)
    (hsessions : row.status = .verified ∨ ∀ x session, s.sessions x = some session →
      session.externalSubjectId = id → session.revokedAt ≠ none) :
    Inv (s.setSubject id row) :=
  { h with
    verified := fun x session hsession hopen => by
      by_cases hx : session.externalSubjectId = id
      · refine ⟨row,?_,hsessions.resolve_right fun hnone => hnone x session hsession hx hopen⟩
        rw [hx]
        exact Function.update_self ..
      · obtain ⟨subject,hsubject,hstatus⟩ := h.verified x session hsession hopen
        exact ⟨subject,(Function.update_of_ne hx ..).trans hsubject,hstatus⟩
    subjectIssued := of_update (fun x _ => x ∈ s.issued) hid h.subjectIssued }

/-- The trust configuration changes: no session of the environment is left, and no request and no
exchange unless it is disabled. -/
lemma Inv.change (h : Inv s) {row : Environment}
    (hsessions : ∀ x session, s.sessions x = some session → session.environmentId = id →
      session.revokedAt ≠ none)
    (hrest : row.enabled = true →
      (∀ x request, s.requests x = some request → request.environmentId ≠ id) ∧
      ∀ x exchange, s.exchanges x = some exchange → exchange.environmentId ≠ id) :
    Inv ((s.setEnvironment id row).record (.changed id)) := by
  have hgeneration {environmentId : String} (hne : environmentId ≠ id) :
      generation environmentId (s.facts ++ [.changed id]) = generation environmentId s.facts := by
    simp [generation,hne.symm]
  have henabled {environmentId : String} (hne : environmentId ≠ id) :
      Enabled ((s.setEnvironment id row).record (.changed id)) environmentId ↔
        Enabled s environmentId := by
    unfold Enabled
    rw [show ((s.setEnvironment id row).record (.changed id)).environments environmentId =
      s.environments environmentId from Function.update_of_ne hne ..]
  have hrow : Enabled ((s.setEnvironment id row).record (.changed id)) id → row.enabled = true := by
    rintro ⟨row',hrow',henabled⟩
    change Function.update s.environments id (some row) id = some row' at hrow'
    rw [Function.update_self,Option.some.injEq] at hrow'
    exact hrow' ▸ henabled
  have hold {fact : Fact} (hmem : fact ∈ ((s.setEnvironment id row).record (.changed id)).facts)
      (hne : fact ≠ .changed id) : fact ∈ s.facts :=
    (mem_record.mp hmem).resolve_right hne
  have hnew {fact : Fact} (hmem : fact ∈ s.facts) :
      fact ∈ ((s.setEnvironment id row).record (.changed id)).facts :=
    mem_record.mpr (.inl hmem)
  have hview {β : Type} (view : Fact → Option β) (hnone : view (.changed id) = none) :
      (s.facts ++ [Fact.changed id]).filterMap view = s.facts.filterMap view := by simp [hnone]
  exact {
    exchangeRecorded := fun x exchange hexchange => by
      obtain ⟨requestId,code,verifier,issuer,trust,hmem⟩ := h.exchangeRecorded x exchange hexchange
      exact ⟨requestId,code,verifier,issuer,trust,hnew hmem⟩
    completedOnce := by
      rw [Store.record,Store.setEnvironment,hview _ rfl]
      exact h.completedOnce
    consumedOnce := by
      rw [Store.record,Store.setEnvironment,hview _ rfl]
      exact h.consumedOnce
    sessionRecorded := fun x session hsession => by
      obtain ⟨exchangeId,generation,current,hmem⟩ := h.sessionRecorded x session hsession
      exact ⟨exchangeId,generation,current,hnew hmem⟩
    openedOnce := by
      rw [Store.record,Store.setEnvironment,hview _ rfl]
      exact h.openedOnce
    sameClaim := fun x code verifier exchangeId issuer trust code' verifier' hmem hmem' =>
      h.sameClaim x code verifier exchangeId issuer trust code' verifier' (hold hmem nofun)
        (hold hmem' nofun)
    provedOnce := by
      rw [Store.record,Store.setEnvironment,hview _ rfl]
      exact h.provedOnce
    provedOpen := fun x jti now session current hmem =>
      h.provedOpen x jti now session current (hold hmem nofun)
    verified := h.verified
    sessions := fun x session hsession hopen => by
      have hne : session.environmentId ≠ id := fun heq => hsessions x session hsession heq hopen
      exact (h.sessions x session hsession hopen).trans (hgeneration hne).symm
    opened := fun x exchangeId generation current hmem =>
      h.opened x exchangeId generation current (hold hmem nofun)
    proved := fun x jti now session current hmem =>
      h.proved x jti now session current (hold hmem nofun)
    issuer := fun x code verifier exchangeId issuer trust hmem =>
      h.issuer x code verifier exchangeId issuer trust (hold hmem nofun)
    subjectIssued := h.subjectIssued
    requestIssued := h.requestIssued
    exchangeIssued := h.exchangeIssued
    sessionIssued := h.sessionIssued
    claimed := fun x code verifier hmem => h.claimed x code verifier (hold hmem nofun)
    claims := fun x code verifier code' verifier' hmem hmem' =>
      h.claims x code verifier code' verifier' (hold hmem nofun) (hold hmem' nofun)
    completed := fun x code verifier exchangeId issuer trust hmem => by
      have hbefore := h.completed x code verifier exchangeId issuer trust (hold hmem nofun)
      exact ⟨hnew hbefore.1,hbefore.2⟩
    consumed := fun x hmem => h.consumed x (hold hmem nofun)
    openedConsumed := fun x exchangeId generation current hmem =>
      hnew (h.openedConsumed x exchangeId generation current (hold hmem nofun))
    provedIssued := fun x jti now session current hmem =>
      h.provedIssued x jti now session current (hold hmem nofun)
    requestGeneration := fun x request hrequest hon => by
      by_cases hx : request.environmentId = id
      · exact absurd hx ((hrest (hrow (hx ▸ hon))).1 x request hrequest)
      · exact (h.requestGeneration x request hrequest ((henabled hx).mp hon)).trans
          (hgeneration hx).symm
    exchangeGeneration := fun x exchange hexchange hon => by
      by_cases hx : exchange.environmentId = id
      · exact absurd hx ((hrest (hrow (hx ▸ hon))).2 x exchange hexchange)
      · exact (h.exchangeGeneration x exchange hexchange ((henabled hx).mp hon)).trans
          (hgeneration hx).symm
    sessionEnabled := fun x session hsession hopen => by
      have hne : session.environmentId ≠ id := fun heq => hsessions x session hsession heq hopen
      exact (henabled hne).mpr (h.sessionEnabled x session hsession hopen) }

end Invariants

section Locks

variable {n c : ℕ} {held : Set (Slot Row)} {s : Store} {id : String}

/-- A table of which the rows `ids` have been written. -/
lemma kept_update {α : Type} {table : String → Option α} (row : String → Row) {new : Option α}
    (hlock : Excludes n held (row id) ∨ id ∉ s.issued) (x : String) :
    Kept n held s (row x) x (table x) (Function.update table id new x) := by
  by_cases hx : x = id
  · subst hx
    exact .inr hlock
  · exact .inl (Function.update_of_ne hx ..)

lemma kept_ids {α : Type} {table table' : String → Option α} (row : String → Row)
    {ids : List String} (hlock : ∀ x ∈ ids, Excludes n held (row x))
    (hrest : ∀ x ∉ ids, table' x = table x) (x : String) :
    Kept n held s (row x) x (table x) (table' x) := by
  by_cases hx : x ∈ ids
  · exact .inr (.inl (hlock x hx))
  · exact .inl (hrest x hx)

lemma guarded_issue (hlock : Excludes n held (.key id)) : Guarded n c held s (s.issue id) :=
  { Guarded.refl s with
    issued := fun x hx => List.mem_append_left _ hx
    keys := fun x hx => by
      obtain hx | hx := List.mem_append.mp hx
      · exact .inl hx
      · exact .inr (List.mem_singleton.mp hx ▸ hlock) }

/-- A commit is recorded, other than a change. -/
lemma guarded_record (fact : Fact) :
    Guarded n c held s (s.record fact) :=
  { Guarded.refl s with
    facts := List.prefix_append ..
    changed := fun _ _ => rfl }

lemma guarded_setRequest {row' : AuthorizationRequest}
    (h : (id ∉ s.issued ∧ Shares n c held (.environment row'.environmentId)) ∨
      Excludes n held (.request id) ∧ ∃ row, s.requests id = some row ∧
        row'.environmentId = row.environmentId ∧ row'.generation = row.generation) :
    Guarded n c held s (s.setRequest id (some row')) :=
  { Guarded.refl s with
    requests := kept_update .request (h.elim (fun hnew => .inr hnew.1) fun hold => .inl hold.1)
    requestOrigin := of_update
      (fun x (row' : AuthorizationRequest) =>
        (x ∉ s.issued ∧ Shares n c held (.environment row'.environmentId)) ∨
        ∃ row, s.requests x = some row ∧ row'.environmentId = row.environmentId ∧
          row'.generation = row.generation)
      (h.imp_right And.right) fun _ row hrow => .inr ⟨row,hrow,rfl,rfl⟩ }

lemma guarded_setExchange {row' : IdentityExchange}
    (h : (id ∉ s.issued ∧ Shares n c held (.environment row'.environmentId)) ∨
      Excludes n held (.exchange id) ∧ ∃ row, s.exchanges id = some row ∧
        row'.environmentId = row.environmentId) :
    Guarded n c held s (s.setExchange id (some row')) :=
  { Guarded.refl s with
    exchanges := kept_update .exchange (h.elim (fun hnew => .inr hnew.1) fun hold => .inl hold.1)
    exchangeOrigin := of_update
      (fun x (row' : IdentityExchange) =>
        (x ∉ s.issued ∧ Shares n c held (.environment row'.environmentId)) ∨
        ∃ row, s.exchanges x = some row ∧ row'.environmentId = row.environmentId)
      (h.imp_right And.right) fun _ row hrow => .inr ⟨row,hrow,rfl⟩ }

lemma guarded_setSession {row' : EndUserSession}
    (h : (id ∉ s.issued ∧ Shares n c held (.environment row'.environmentId) ∧
        Shares n c held (.subject row'.externalSubjectId)) ∨
      Excludes n held (.session id) ∧ ∃ row, s.sessions id = some row ∧
        row'.environmentId = row.environmentId ∧ row'.externalSubjectId = row.externalSubjectId ∧
        (row'.revokedAt = none → row.revokedAt = none)) :
    Guarded n c held s (s.setSession id (some row')) :=
  { Guarded.refl s with
    sessions := kept_update .session (h.elim (fun hnew => .inr hnew.1) fun hold => .inl hold.1)
    sessionOrigin := of_update
      (fun x (row' : EndUserSession) =>
        (x ∉ s.issued ∧ Shares n c held (.environment row'.environmentId) ∧
          Shares n c held (.subject row'.externalSubjectId)) ∨
        ∃ row, s.sessions x = some row ∧ row'.environmentId = row.environmentId ∧
          row'.externalSubjectId = row.externalSubjectId ∧
          (row'.revokedAt = none → row.revokedAt = none))
      (h.imp_right And.right) fun _ row hrow => .inr ⟨row,hrow,rfl,rfl,fun h => h⟩ }

lemma guarded_setSubject {row : ExternalSubject}
    (hlock : Excludes n held (.subject id) ∨ id ∉ s.issued) :
    Guarded n c held s (s.setSubject id row) :=
  { Guarded.refl s with subjects := kept_update .subject hlock }

lemma guarded_prove (jti : String) (hlock : Excludes n held (.session id)) :
    Guarded n c held s { s with proofs := s.proofs ++ [(id,jti)] } :=
  { Guarded.refl s with
    proofs := fun x jti' => by
      by_cases hx : x = id
      · exact .inr (hx ▸ hlock)
      · exact .inl (by simp [hx]) }

lemma guarded_deleteRequests {ids : List String} (hlock : ∀ x ∈ ids, Excludes n held (.request x)) :
    Guarded n c held s (s.deleteRequests ids) :=
  { Guarded.refl s with
    requests := kept_ids .request hlock fun _ hx => if_neg hx
    requestOrigin := fun _ row hrow => .inr ⟨row,(of_delete hrow).2,rfl,rfl⟩ }

lemma guarded_deleteExchanges {ids : List String}
    (hlock : ∀ x ∈ ids, Excludes n held (.exchange x)) :
    Guarded n c held s (s.deleteExchanges ids) :=
  { Guarded.refl s with
    exchanges := kept_ids .exchange hlock fun _ hx => if_neg hx
    exchangeOrigin := fun _ row hrow => .inr ⟨row,(of_delete hrow).2,rfl⟩ }

lemma guarded_deleteSessions {ids : List String} (hlock : ∀ x ∈ ids, Excludes n held (.session x)) :
    Guarded n c held s (s.deleteSessions ids) :=
  { Guarded.refl s with
    sessions := kept_ids .session hlock fun _ hx => if_neg hx
    sessionOrigin := fun _ row hrow => .inr ⟨row,(of_delete hrow).2,rfl,rfl,fun h => h⟩
    proofs := fun x jti => by
      by_cases hx : x ∈ ids
      · exact .inr (hlock x hx)
      · exact .inl (by simp [Store.deleteSessions,hx]) }

lemma guarded_revokeSessions {ids : List String} (now : ℤ)
    (hlock : ∀ x ∈ ids, Excludes n held (.session x)) :
    Guarded n c held s (s.revokeSessions ids now) :=
  { Guarded.refl s with
    sessions := kept_ids .session hlock fun _ hx => if_neg hx
    sessionOrigin := fun x row hrow => by
      obtain ⟨row₀,hrow₀,hsame,henv,hsubject⟩ := of_revoke hrow
      exact .inr ⟨row₀,hrow₀,henv,hsubject,fun hopen => (hsame hopen).2 ▸ hopen⟩ }

lemma guarded_change {row : Environment} (hlock : Excludes n held (.environment id)) :
    Guarded n c held s ((s.setEnvironment id row).record (.changed id)) :=
  { Guarded.refl s with
    facts := List.prefix_append ..
    environments := fun x => by
      by_cases hx : x = id
      · exact .inr (hx ▸ hlock)
      · exact .inl (Function.update_of_ne hx ..)
    changed := fun x heq => by
      have hx : x ≠ id := by
        rintro rfl
        simp [Store.record,Store.setEnvironment,generation] at heq
      exact congrArg (Option.bind · Environment.trust) (Function.update_of_ne hx ..) }

end Locks
end Linea.SignIn
