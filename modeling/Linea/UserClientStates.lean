import Linea.UserClient
import Linea.Runs

/-! What holds of a user client in every state that its operations can bring it to: which keys are kept,
whose session an operation touches, and what is left of a failure. -/
namespace Linea.UserClient
open UserStates Client

variable {s t : Client} {i : ℕ}

/-- The key of a session that is on its way into the storage. -/
def Operation.holds : Operation → Option String
  | ⟨.signing _ _ proofKeyId _,_⟩ => some proofKeyId
  | ⟨.storing _ session,none⟩ => some session.proofKeyId
  | ⟨.storing _ session,some false⟩ => some session.proofKeyId
  | _ => none

/-- A key that only this operation knows. -/
def Operation.own : Operation → Option String
  | ⟨.dropping proofKeyId,_⟩ => some proofKeyId
  | op => op.holds

/-- The operation is going to remove the key. -/
def Operation.Clears (op : Operation) (k : String) : Prop :=
  match op.job with
  | .clearing proofKeyId _ next => next = some k ∨ proofKeyId = k ∧ op.result = none
  | .await (.request r) => r.revokes = some k
  | .took (.request r) _ => r.revokes = some k
  | .sending r _ => r.revokes = some k
  | .noncing r _ _ => r.revokes = some k
  | _ => False

/-- What the operation has in the queue. -/
def Job.mutation : Job → Option Mutation
  | .authorizing authorization => some (.authorize authorization)
  | .storing _ session => some (.save session)
  | .noncing _ session reply => reply.dpopNonce.map (.updateNonce · session.proofKeyId)
  | .clearing proofKeyId _ _ => some (.clearSession proofKeyId)
  | _ => none

/-- The session an operation was begun for. -/
def Job.begun : Job → Option String
  | .await (.request r) => r.begun
  | .took (.request r) _ => r.begun
  | .sending r _ => r.begun
  | .noncing r _ _ => r.begun
  | .clearing _ begun _ => some begun
  | _ => none

/-- Some operation is going to remove the key. -/
def WillClear (s : Client) (k : String) : Prop := ∃ i op, s.ops i = some op ∧ op.Clears k

/-- No load fails; a further attempt of a request finds the session of its first one; and when a session
is stored, the pending authorization is the one it completes, and the key of the session before is
going to be removed. -/
def Regular (s : Client) : Act → Prop
  | .loadFails => False
  | .resume i _ => ∀ r state, s.ops i = some ⟨.took (.request r) state,none⟩ →
      ∀ session ∈ state.session, ∀ k ∈ r.begun, session.proofKeyId = k
  | .store => ∀ i authorization session, s.stateMutation.head? = some (i,.save session) →
      s.ops i = some ⟨.storing authorization session,none⟩ →
      (∀ pending ∈ s.stored.authorization, pending = authorization) ∧
        ∀ k, sessionKey s.stored = some k → WillClear s k
  | _ => True

/-! ## The invariant -/

def Request.Ok (published : List String) (r : Request) : Prop :=
  ∀ k, r.revokes = some k → k ∈ published ∧ r.begun = some k

/-- A session that is used has been stored, and it is the one the operation was begun for. -/
def Job.Ok (published : List String) : Job → Prop
  | .await (.request r) => r.Ok published
  | .took (.request r) state => r.Ok published ∧ ∀ k, sessionKey state = some k → k ∈ published
  | .took _ state => ∀ k, sessionKey state = some k → k ∈ published
  | .sending r session => r.Ok published ∧ session.proofKeyId ∈ published ∧
      r.begun = some session.proofKeyId
  | .noncing r session _ => r.Ok published ∧ session.proofKeyId ∈ published ∧
      r.begun = some session.proofKeyId
  | .clearing proofKeyId begun next => proofKeyId ∈ published ∧ begun = proofKeyId ∧
      ∀ k, next = some k → k = proofKeyId
  | _ => True

/-- What the first mutation does to the storage. -/
def StageOk (s : Client) : Prop :=
  match s.stage with
  | .waiting => True
  | .reading => True
  | .saving state => ∃ p, s.stateMutation.head? = some p ∧ change s.stored p.2 = some state
  | .saved state => s.stored = state ∧ ∃ p, s.stateMutation.head? = some p ∧
      (∀ k, p.2 = .clearSession k → sessionKey s.stored = none) ∧
      ∀ session, p.2 = .save session → sessionKey s.stored = some session.proofKeyId
  | .removing => ∃ i k, s.stateMutation.head? = some (i,.clearSession k) ∧ sessionKey s.stored ≠ some k

structure Inv (s : Client) : Prop where
  published : ∀ k ∈ s.published, k ∈ s.issued
  issued : ∀ k ∈ s.proofKeys, k ∈ s.issued
  stored : ∀ k, sessionKey s.stored = some k → k ∈ s.published ∧ k ∈ s.proofKeys
  usable : s.statePromise ≠ .failed
  promise : ∀ state, s.statePromise = .loaded state →
    (∀ k, sessionKey state = some k → k ∈ s.published) ∧
      (state = s.stored ∨ ∃ state', s.stage = .saved state')
  stage : StageOk s
  owners : ∀ p ∈ s.stateMutation, ∃ job, s.ops p.1 = some ⟨job,none⟩ ∧ job.mutation = some p.2
  queue : (s.stateMutation.map Prod.fst).Nodup
  jobs : ∀ i op, s.ops i = some op → i < s.nextOp ∧ op.job.Ok s.published
  holds : ∀ i op k, s.ops i = some op → op.holds = some k → k ∈ s.proofKeys
  own : ∀ i op k, s.ops i = some op → op.own = some k → k ∈ s.issued ∧ (k ∈ s.published →
    (∃ state, s.stage = .saved state) ∧ ∃ m, s.stateMutation.head? = some (i,m))
  distinct : ∀ i j op op' k, s.ops i = some op → s.ops j = some op' → op.own = some k →
    op'.own = some k → i = j
  kept : s.removalFailed = false → ∀ k ∈ s.proofKeys, sessionKey s.stored = some k ∨
    ∃ i op, s.ops i = some op ∧ (op.own = some k ∨ op.Clears k)

lemma own_of_holds {op : Operation} {k : String} (h : op.holds = some k) : op.own = some k := by
  obtain ⟨job,result⟩ := op
  cases job <;> first | exact h | cases h

lemma Job.Ok.mono {job : Job} {published published' : List String} (h : job.Ok published)
    (hsub : ∀ k ∈ published, k ∈ published') : job.Ok published' := by
  have hrequest : ∀ r : Request, r.Ok published → r.Ok published' := fun r hr k hk =>
    ⟨hsub k (hr k hk).1,(hr k hk).2⟩
  unfold Job.Ok at h ⊢
  split at h
  · exact hrequest _ h
  · exact ⟨hrequest _ h.1,fun k hk => hsub k (h.2 k hk)⟩
  · exact fun k hk => hsub k (h k hk)
  · exact ⟨hrequest _ h.1,hsub _ h.2.1,h.2.2⟩
  · exact ⟨hrequest _ h.1,hsub _ h.2.1,h.2.2⟩
  · exact ⟨hsub _ h.1,h.2⟩
  · trivial

/-- An operation is idle when it has nothing in the queue. -/
def Idle (s : Client) (i : ℕ) : Prop := i ∉ s.stateMutation.map Prod.fst

lemma Inv.idle (h : Inv s) {op : Operation} (hop : s.ops i = some op)
    (hidle : op.result ≠ none ∨ op.job.mutation = none) : Idle s i := by
  intro hi
  obtain ⟨p,hp,rfl⟩ := List.mem_map.mp hi
  obtain ⟨job,hjob,hm⟩ := h.owners p hp
  obtain rfl := Option.some.inj (hop.symm.trans hjob)
  rcases hidle with hr | hr
  · exact hr rfl
  · rw [hr] at hm
    cases hm

/-- The key is gone, in use, or left over after a failed removal. -/
def Loose (s : Client) (k : String) : Prop :=
  s.removalFailed = false → k ∈ s.proofKeys → sessionKey s.stored = some k

lemma Inv.setOp (h : Inv s) {op : Operation} (hop : s.ops i = some op) (hidle : Idle s i)
    {op' : Option Operation} (hok : ∀ o ∈ op', o.job.Ok s.published)
    (hown : ∀ o ∈ op', ∀ k, o.own = some k → op.own = some k ∧ (o.holds = some k → op.holds = some k))
    (hkept : ∀ k, op.own = some k ∨ op.Clears k →
      Loose s k ∨ ∃ o ∈ op', o.own = some k ∨ o.Clears k) : Inv (s.setOp i op') := by
  have hops : ∀ j o, (s.setOp i op').ops j = some o → (j = i ∧ o ∈ op') ∨ (j ≠ i ∧ s.ops j = some o) := by
    intro j o ho
    dsimp only [Client.setOp] at ho
    split_ifs at ho with hj
    · exact .inl ⟨hj,ho⟩
    · exact .inr ⟨hj,ho⟩
  -- An operation with an own key had it before.
  have hback : ∀ j o k, (s.setOp i op').ops j = some o → o.own = some k →
      ∃ o', s.ops j = some o' ∧ o'.own = some k := by
    intro j o k ho hk
    rcases hops j o ho with ⟨rfl,hmem⟩ | ⟨-,hmem⟩
    · exact ⟨op,hop,(hown o hmem k hk).1⟩
    · exact ⟨o,hmem,hk⟩
  refine ⟨h.published,h.issued,h.stored,h.usable,h.promise,h.stage,fun p hp => ?_,h.queue,
    fun j o ho => ?_,fun j o k ho hk => ?_,fun j o k ho hk => ?_,fun j j' o o' k ho ho' hk hk' => ?_,
    fun hfailed k hk => ?_⟩
  · obtain ⟨job,hjob,hm⟩ := h.owners p hp
    have hne : p.1 ≠ i := fun heq => hidle (heq ▸ List.mem_map_of_mem hp)
    exact ⟨job,(if_neg hne).trans hjob,hm⟩
  · rcases hops j o ho with ⟨rfl,hmem⟩ | ⟨-,hmem⟩
    · exact ⟨(h.jobs _ op hop).1,hok o hmem⟩
    · exact h.jobs j o hmem
  · rcases hops j o ho with ⟨rfl,hmem⟩ | ⟨-,hmem⟩
    · exact h.holds _ op k hop ((hown o hmem k (own_of_holds hk)).2 hk)
    · exact h.holds j o k hmem hk
  · obtain ⟨o',ho',hk'⟩ := hback j o k ho hk
    exact h.own j o' k ho' hk'
  · obtain ⟨p,hp,hpk⟩ := hback j o k ho hk
    obtain ⟨p',hp',hpk'⟩ := hback j' o' k ho' hk'
    exact h.distinct j j' p p' k hp hp' hpk hpk'
  · rcases h.kept hfailed k hk with hstored | ⟨j,o,ho,hcovers⟩
    · exact .inl hstored
    · by_cases hj : j = i
      · rw [hj,hop] at ho
        rcases hkept k (Option.some.inj ho ▸ hcovers) with hloose | ⟨o',ho',hcovers'⟩
        · exact .inl (hloose hfailed hk)
        · exact .inr ⟨i,o',(if_pos rfl).trans ho',hcovers'⟩
      · exact .inr ⟨j,o,(if_neg hj).trans ho,hcovers⟩

lemma Inv.demand (h : Inv s) : Inv s.demand := by
  refine ⟨h.published,h.issued,h.stored,?_,fun state hstate => ?_,h.stage,h.owners,h.queue,h.jobs,h.holds,
    h.own,h.distinct,h.kept⟩
  · dsimp only [Client.demand]
    split
    · exact fun hfailed => nomatch hfailed
    · exact h.usable
  · dsimp only [Client.demand] at hstate
    split at hstate
    · cases hstate
    · exact h.promise state hstate

/-- A mutation is put behind the others. -/
lemma Inv.enqueue (h : Inv s) {job : Job} (hop : s.ops i = some ⟨job,none⟩) (hidle : Idle s i)
    {m : Mutation} (hm : job.mutation = some m) :
    Inv { s with stateMutation := s.stateMutation ++ [(i,m)] } := by
  have hhead : ∀ p, s.stateMutation.head? = some p →
      (s.stateMutation ++ [(i,m)]).head? = some p := by
    intro p hp
    rw [List.head?_append,hp,Option.some_or]
  refine ⟨h.published,h.issued,h.stored,h.usable,h.promise,?_,fun p hp => ?_,?_,h.jobs,h.holds,
    fun j o k ho hk => ⟨(h.own j o k ho hk).1,fun hpub => ?_⟩,h.distinct,h.kept⟩
  · have hstage := h.stage
    unfold StageOk at hstage ⊢
    cases hs : s.stage with
    | waiting => trivial
    | reading => trivial
    | saving state =>
      rw [hs] at hstage
      obtain ⟨p,hp,hchange⟩ := hstage
      exact ⟨p,hhead p hp,hchange⟩
    | saved state =>
      rw [hs] at hstage
      obtain ⟨heq,p,hp,hcases⟩ := hstage
      exact ⟨heq,p,hhead p hp,hcases⟩
    | removing =>
      rw [hs] at hstage
      obtain ⟨j,k,hp,hne⟩ := hstage
      exact ⟨j,k,hhead _ hp,hne⟩
  · rcases List.mem_append.mp hp with hp | hp
    · exact h.owners p hp
    · rw [List.mem_singleton.mp hp]
      exact ⟨job,hop,hm⟩
  · rw [List.map_append,List.nodup_append]
    refine ⟨h.queue,List.nodup_singleton _,fun j hj j' hj' heq => ?_⟩
    rw [heq,List.mem_singleton.mp hj'] at hj
    exact hidle hj
  · obtain ⟨hsaved,m',hm'⟩ := (h.own j o k ho hk).2 hpub
    exact ⟨hsaved,m',hhead _ hm'⟩

/-- An operation goes on without a key of its own. -/
lemma Inv.goOn (h : Inv s) {op : Operation} (hop : s.ops i = some op) (hidle : Idle s i) {job : Job}
    (hok : job.Ok s.published) (hown : (⟨job,none⟩ : Operation).own = none)
    (hkept : ∀ k, op.own = some k ∨ op.Clears k → Loose s k ∨ (⟨job,none⟩ : Operation).Clears k) :
    Inv (s.goOn i job) := by
  refine h.setOp hop hidle (fun o ho => ?_) (fun o ho k hk => ?_) fun k hk => ?_
  · obtain rfl := Option.mem_some_iff.mp ho
    exact hok
  · obtain rfl := Option.mem_some_iff.mp ho
    rw [hown] at hk
    cases hk
  · exact (hkept k hk).imp_right fun hclears => ⟨_,rfl,.inr hclears⟩

lemma Inv.endOp (h : Inv s) {op : Operation} (hop : s.ops i = some op) (hidle : Idle s i)
    (hkept : ∀ k, op.own = some k ∨ op.Clears k → Loose s k) : Inv (s.endOp i) :=
  h.setOp hop hidle (fun _ ho => nomatch ho) (fun _ ho => nomatch ho) fun k hk => .inl (hkept k hk)

lemma Inv.mutateState (h : Inv s) {op : Operation} (hop : s.ops i = some op) (hidle : Idle s i)
    {job : Job} (hok : job.Ok s.published) (hown : (⟨job,none⟩ : Operation).own = none)
    (hkept : ∀ k, op.own = some k ∨ op.Clears k → Loose s k ∨ (⟨job,none⟩ : Operation).Clears k)
    {m : Mutation} (hm : job.mutation = some m) : Inv (s.mutateState i job m) :=
  (h.goOn hop hidle hok hown hkept).enqueue (if_pos rfl) hidle hm

/-! ### Requests -/

/-- Of what has no key of its own only what it clears counts. -/
lemma Inv.clearSession (h : Inv s) {op : Operation} (hop : s.ops i = some op) (hidle : Idle s i)
    {k : String} {next : Option String} (hk : k ∈ s.published) (hnext : ∀ k', next = some k' → k' = k)
    (hkept : ∀ k', op.own = some k' ∨ op.Clears k' → Loose s k' ∨ k' = k ∨ next = some k') :
    Inv (s.clearSession i k k next) := by
  have hok : (Job.clearing k k next).Ok s.published := ⟨hk,rfl,hnext⟩
  refine h.mutateState hop hidle hok rfl (fun k' hk' => ?_) rfl
  rcases hkept k' hk' with hloose | rfl | hnext'
  · exact .inl hloose
  · exact .inr (.inr ⟨rfl,rfl⟩)
  · exact .inr (.inl hnext')

lemma Inv.endRequest (h : Inv s) {op : Operation} (hop : s.ops i = some op) (hidle : Idle s i)
    {r : Request} (hr : r.Ok s.published)
    (hkept : ∀ k, op.own = some k ∨ op.Clears k → Loose s k ∨ r.revokes = some k) :
    Inv (s.endRequest i r) := by
  unfold Client.endRequest
  split
  · rename_i k hrevokes
    refine h.clearSession hop hidle (hr k hrevokes).1 (fun _ hnext => nomatch hnext) fun k' hk' => ?_
    refine (hkept k' hk').imp_right fun hr' => .inl ?_
    exact Option.some.inj (hr'.symm.trans hrevokes)
  · rename_i hrevokes
    refine h.endOp hop hidle fun k hk => (hkept k hk).resolve_right fun hr' => ?_
    rw [hrevokes] at hr'
    cases hr'

lemma Inv.tryAgain (h : Inv s) {op : Operation} (hop : s.ops i = some op) (hidle : Idle s i)
    {r : Request} (hr : r.Ok s.published)
    (hkept : ∀ k, op.own = some k ∨ op.Clears k → Loose s k ∨ r.revokes = some k) :
    Inv (s.tryAgain i r) := by
  have hok : (Job.await (.request r)).Ok s.published := hr
  exact (h.goOn hop hidle hok rfl hkept).demand

lemma Inv.afterNonce (h : Inv s) {op : Operation} (hop : s.ops i = some op) (hidle : Idle s i)
    {r : Request} {session : StoredUserSession} {reply : Reply} (hr : r.Ok s.published)
    (hsession : session.proofKeyId ∈ s.published) (hbegun : r.begun = some session.proofKeyId)
    (hkept : ∀ k, op.own = some k ∨ op.Clears k → Loose s k ∨ r.revokes = some k) :
    Inv (s.afterNonce i r session reply) := by
  unfold Client.afterNonce
  split_ifs
  · exact h.tryAgain hop hidle hr hkept
  · exact h.endRequest hop hidle hr hkept
  · split
    · split_ifs
      · rw [hbegun]
        refine h.clearSession hop hidle hsession (fun k hk => ?_) fun k hk =>
          (hkept k hk).imp_right .inr
        exact (Option.some.inj (hbegun.symm.trans (hr k hk).2)).symm
      · exact h.endRequest hop hidle hr hkept
    · exact h.endRequest hop hidle hr hkept

lemma Inv.reply (h : Inv s) {r : Request} {session : StoredUserSession} {reply : Reply}
    (hop : s.ops i = some ⟨.sending r session,none⟩) : Inv (s.reply i r session reply) := by
  have hidle := h.idle hop (.inr rfl)
  obtain ⟨-,hr,hsession,hbegun⟩ := h.jobs i _ hop
  have hkept : ∀ k, (⟨.sending r session,none⟩ : Operation).own = some k ∨
      (⟨.sending r session,none⟩ : Operation).Clears k → Loose s k ∨ r.revokes = some k := by
    rintro k (hk | hk)
    · cases hk
    · exact .inr hk
  unfold Client.reply
  split
  · rename_i dpopNonce hnonce
    split_ifs
    · have hok : (Job.noncing r session reply).Ok s.published := ⟨hr,hsession,hbegun⟩
      refine h.mutateState hop hidle hok rfl hkept ?_
      rw [Job.mutation,hnonce]
      rfl
    · exact h.afterNonce hop hidle hr hsession hbegun hkept
  · exact h.afterNonce hop hidle hr hsession hbegun hkept

lemma Inv.attempt (h : Inv s) {r : Request} {state : StoredUserState}
    (hop : s.ops i = some ⟨.took (.request r) state,none⟩) (expired : StoredUserSession → Bool)
    (hsame : ∀ session ∈ state.session, ∀ k ∈ r.begun, session.proofKeyId = k) :
    Inv (s.attempt i r expired state) := by
  have hidle := h.idle hop (.inr rfl)
  obtain ⟨-,hr,hstate⟩ := h.jobs i _ hop
  have hkept : ∀ k, (⟨.took (.request r) state,none⟩ : Operation).own = some k ∨
      (⟨.took (.request r) state,none⟩ : Operation).Clears k → Loose s k ∨ r.revokes = some k := by
    rintro k (hk | hk)
    · cases hk
    · exact .inr hk
  unfold Client.attempt
  split
  · exact h.endRequest hop hidle hr hkept
  · rename_i session hsession
    have hpub : session.proofKeyId ∈ s.published := hstate _ (by rw [sessionKey,hsession]; rfl)
    have hbegun : r.begun.getD session.proofKeyId = session.proofKeyId := by
      cases hb : r.begun with
      | none => rfl
      | some k => exact (hsame session hsession k hb).symm
    simp only [hbegun]
    split_ifs
    · refine h.clearSession hop hidle hpub (fun k hk => ?_) fun k hk => (hkept k hk).imp_right .inr
      exact (hsame session hsession k (hr k hk).2).symm
    · have hok : (Job.sending { r with begun := some session.proofKeyId } session).Ok s.published := by
        refine ⟨fun k hk => ⟨(hr k hk).1,?_⟩,hpub,rfl⟩
        rw [hsame session hsession k (hr k hk).2]
      exact h.goOn hop hidle hok rfl hkept

lemma Inv.resume (h : Inv s) {reader : Reader} {state : StoredUserState}
    (hop : s.ops i = some ⟨.took reader state,none⟩) (expired : StoredUserSession → Bool)
    (hsame : ∀ r, reader = .request r →
      ∀ session ∈ state.session, ∀ k ∈ r.begun, session.proofKeyId = k) :
    Inv (s.resume i reader expired state) := by
  have hidle := h.idle hop (.inr rfl)
  have hjob := (h.jobs i _ hop).2
  cases reader with
  | complete input =>
    have hkept : ∀ k, (⟨.took (.complete input) state,none⟩ : Operation).own = some k ∨
        (⟨.took (.complete input) state,none⟩ : Operation).Clears k → Loose s k := by
      rintro k (hk | hk) <;> cases hk
    dsimp only [Client.resume]
    split
    · rename_i authorization _
      split_ifs
      · have hok : (Job.exchanging authorization).Ok s.published := trivial
        exact h.goOn hop hidle hok rfl fun k hk => .inl (hkept k hk)
      · exact h.endOp hop hidle hkept
    · exact h.endOp hop hidle hkept
  | session =>
    have hkept : ∀ k, (⟨.took .session state,none⟩ : Operation).own = some k ∨
        (⟨.took .session state,none⟩ : Operation).Clears k → Loose s k := by
      rintro k (hk | hk) <;> cases hk
    dsimp only [Client.resume]
    split
    · rename_i session hsession
      split_ifs
      · exact h.clearSession hop hidle (hjob _ (by rw [sessionKey,hsession]; rfl))
          (fun _ hnext => nomatch hnext) fun k hk => .inl (hkept k hk)
      · exact h.endOp hop hidle hkept
    · exact h.endOp hop hidle hkept
  | revoke =>
    have hkept : ∀ k, (⟨.took .revoke state,none⟩ : Operation).own = some k ∨
        (⟨.took .revoke state,none⟩ : Operation).Clears k → Loose s k := by
      rintro k (hk | hk) <;> cases hk
    dsimp only [Client.resume]
    split
    · rename_i session hsession
      have hpub : session.proofKeyId ∈ s.published := hjob _ (by rw [sessionKey,hsession]; rfl)
      split_ifs
      · exact h.clearSession hop hidle hpub (fun _ hnext => nomatch hnext) fun k hk =>
          .inl (hkept k hk)
      · refine h.tryAgain hop hidle (fun k hk => ?_) fun k hk => .inl (hkept k hk)
        obtain rfl := Option.some.inj hk
        exact ⟨hpub,rfl⟩
    · exact h.endOp hop hidle hkept
  | request r => exact h.attempt hop expired (hsame r rfl)

/-- What an operation takes is a state that has been stored. -/
lemma Inv.take (h : Inv s) {reader : Reader} {state : StoredUserState}
    (hop : s.ops i = some ⟨.await reader,none⟩) (hstate : s.statePromise = .loaded state) :
    Inv (s.goOn i (.took reader state)) := by
  have hidle := h.idle hop (.inr rfl)
  have hpub := (h.promise state hstate).1
  have hjob := (h.jobs i _ hop).2
  cases reader with
  | request r =>
    have hok : (Job.took (.request r) state).Ok s.published := ⟨hjob,hpub⟩
    refine h.goOn hop hidle hok rfl fun k hk => ?_
    rcases hk with hk | hk
    · cases hk
    · exact .inr hk
  | complete input =>
    have hok : (Job.took (.complete input) state).Ok s.published := hpub
    refine h.goOn hop hidle hok rfl fun k hk => ?_
    rcases hk with hk | hk <;> cases hk
  | session =>
    have hok : (Job.took .session state).Ok s.published := hpub
    refine h.goOn hop hidle hok rfl fun k hk => ?_
    rcases hk with hk | hk <;> cases hk
  | revoke =>
    have hok : (Job.took .revoke state).Ok s.published := hpub
    refine h.goOn hop hidle hok rfl fun k hk => ?_
    rcases hk with hk | hk <;> cases hk

/-- A new operation knows no key. -/
lemma Inv.start (h : Inv s) {job : Job} (hok : job.Ok s.published)
    (hown : (⟨job,none⟩ : Operation).own = none) : Inv (s.start job) := by
  have hfresh : s.ops s.nextOp = none := by
    by_contra hne
    obtain ⟨op,hop⟩ := Option.ne_none_iff_exists'.mp hne
    exact lt_irrefl _ (h.jobs _ op hop).1
  have hops : ∀ j o, (s.start job).ops j = some o →
      (j = s.nextOp ∧ o = ⟨job,none⟩) ∨ (j ≠ s.nextOp ∧ s.ops j = some o) := by
    intro j o ho
    dsimp only [Client.start,Client.goOn,Client.setOp] at ho
    split_ifs at ho with hj
    · exact .inl ⟨hj,(Option.some.inj ho).symm⟩
    · exact .inr ⟨hj,ho⟩
  have hback : ∀ j o k, (s.start job).ops j = some o → o.own = some k → s.ops j = some o := by
    intro j o k ho hk
    rcases hops j o ho with ⟨-,rfl⟩ | ⟨-,hold⟩
    · rw [hown] at hk
      cases hk
    · exact hold
  have hkeep : ∀ j o, s.ops j = some o → (s.start job).ops j = some o := by
    intro j o ho
    have hne : j ≠ s.nextOp := by
      rintro rfl
      cases hfresh.symm.trans ho
    exact (if_neg hne).trans ho
  refine ⟨h.published,h.issued,h.stored,h.usable,h.promise,h.stage,fun p hp => ?_,h.queue,
    fun j o ho => ?_,fun j o k ho hk => h.holds j o k (hback j o k ho (own_of_holds hk)) hk,
    fun j o k ho hk => h.own j o k (hback j o k ho hk) hk,fun j j' o o' k ho ho' hk hk' =>
      h.distinct j j' o o' k (hback j o k ho hk) (hback j' o' k ho' hk') hk hk',
    fun hfailed k hk => (h.kept hfailed k hk).imp_right fun ⟨j,o,ho,hcovers⟩ =>
      ⟨j,o,hkeep j o ho,hcovers⟩⟩
  · obtain ⟨job',hjob,hm⟩ := h.owners p hp
    exact ⟨job',hkeep _ _ hjob,hm⟩
  · rcases hops j o ho with ⟨rfl,rfl⟩ | ⟨-,hold⟩
    · exact ⟨Nat.lt_succ_self _,hok⟩
    · exact ⟨(h.jobs j o hold).1.trans (Nat.lt_succ_self _),(h.jobs j o hold).2⟩

/-! ### Completions -/

lemma Inv.created (h : Inv s) {authorization : AuthorizationState} {externalSubjectId k : String}
    {publicJwk : List (String × JwkMember)}
    (hop : s.ops i = some ⟨.creating authorization externalSubjectId,none⟩) (hfresh : k ∉ s.issued) :
    Inv (s.created i authorization externalSubjectId k publicJwk) := by
  have hidle := h.idle hop (.inr rfl)
  have hops : ∀ j o, (s.created i authorization externalSubjectId k publicJwk).ops j = some o →
      (j = i ∧ o = ⟨.signing authorization externalSubjectId k publicJwk,none⟩) ∨
        (j ≠ i ∧ s.ops j = some o) := by
    intro j o ho
    dsimp only [Client.created,Client.goOn,Client.setOp] at ho
    split_ifs at ho with hj
    · exact .inl ⟨hj,(Option.some.inj ho).symm⟩
    · exact .inr ⟨hj,ho⟩
  have hother : ∀ j o, s.ops j = some o → o.own ≠ some k := fun j o ho hk =>
    hfresh (h.own j o k ho hk).1
  refine ⟨fun k' hk' => List.mem_append_left _ (h.published k' hk'),fun k' hk' => ?_,
    fun k' hk' => ⟨(h.stored k' hk').1,List.mem_append_left _ (h.stored k' hk').2⟩,h.usable,h.promise,
    h.stage,fun p hp => ?_,h.queue,fun j o ho => ?_,fun j o k' ho hk' => ?_,fun j o k' ho hk' => ?_,
    fun j j' o o' k' ho ho' hk' hk'' => ?_,fun hfailed k' hk' => ?_⟩
  · rcases List.mem_append.mp hk' with hk' | hk'
    · exact List.mem_append_left _ (h.issued k' hk')
    · exact List.mem_append_right _ hk'
  · obtain ⟨job,hjob,hm⟩ := h.owners p hp
    have hne : p.1 ≠ i := fun heq => hidle (heq ▸ List.mem_map_of_mem hp)
    exact ⟨job,(if_neg hne).trans hjob,hm⟩
  · rcases hops j o ho with ⟨rfl,rfl⟩ | ⟨-,hold⟩
    · exact ⟨(h.jobs _ _ hop).1,trivial⟩
    · exact h.jobs j o hold
  · rcases hops j o ho with ⟨rfl,rfl⟩ | ⟨-,hold⟩
    · obtain rfl := Option.some.inj hk'
      exact List.mem_append_right _ (List.mem_singleton_self _)
    · exact List.mem_append_left _ (h.holds j o k' hold hk')
  · rcases hops j o ho with ⟨rfl,rfl⟩ | ⟨-,hold⟩
    · obtain rfl := Option.some.inj hk'
      exact ⟨List.mem_append_right _ (List.mem_singleton_self _),fun hpub =>
        absurd (h.published _ hpub) hfresh⟩
    · exact ⟨List.mem_append_left _ (h.own j o k' hold hk').1,(h.own j o k' hold hk').2⟩
  · rcases hops j o ho with ⟨rfl,rfl⟩ | ⟨-,hold⟩ <;> rcases hops j' o' ho' with ⟨rfl,rfl⟩ | ⟨-,hold'⟩
    · rfl
    · exact absurd (hk''.trans hk'.symm) (hother j' o' hold')
    · exact absurd (hk'.trans hk''.symm) (hother j o hold)
    · exact h.distinct j j' o o' k' hold hold' hk' hk''
  · rcases List.mem_append.mp hk' with hk' | hk'
    · rcases h.kept hfailed k' hk' with hstored | ⟨j,o,ho,hcovers⟩
      · exact .inl hstored
      · have hne : j ≠ i := by
          rintro rfl
          obtain rfl := Option.some.inj (hop.symm.trans ho)
          rcases hcovers with hcovers | hcovers <;> cases hcovers
        exact .inr ⟨j,o,(if_neg hne).trans ho,hcovers⟩
    · rw [List.mem_singleton.mp hk']
      exact .inr ⟨i,_,if_pos rfl,.inl rfl⟩

/-- The one operation that owns a key hands it on. -/
lemma Inv.handOn (h : Inv s) {op : Operation} {k : String} (hop : s.ops i = some op)
    (hidle : Idle s i) (hk : op.own = some k) (hheld : op.holds = some k)
    (hclears : ∀ k', ¬op.Clears k') {job : Job} (hok : job.Ok s.published)
    (hown : (⟨job,none⟩ : Operation).own = some k) : Inv (s.goOn i job) := by
  refine h.setOp hop hidle (fun o ho => ?_) (fun o ho k' hk' => ?_) fun k' hk' => ?_
  · obtain rfl := Option.mem_some_iff.mp ho
    exact hok
  · obtain rfl := Option.mem_some_iff.mp ho
    obtain rfl := Option.some.inj (hown.symm.trans hk')
    exact ⟨hk,fun _ => hheld⟩
  · rcases hk' with hk' | hk'
    · obtain rfl := Option.some.inj (hk.symm.trans hk')
      exact .inr ⟨_,rfl,.inl hown⟩
    · exact absurd hk' (hclears k')

/-- A key that no stored session has and that no completion holds may go. -/
lemma Inv.removeKey (h : Inv s) {k : String} (hstored : sessionKey s.stored ≠ some k)
    (hholds : ∀ j o, s.ops j = some o → o.holds ≠ some k) : Inv (s.removeKey k) := by
  have hmem : ∀ k' ∈ (s.removeKey k).proofKeys, k' ∈ s.proofKeys := fun k' hk' =>
    (List.mem_filter.mp hk').1
  have hkeep : ∀ k', k' ∈ s.proofKeys → k' ≠ k → k' ∈ (s.removeKey k).proofKeys := fun k' hk' hne =>
    List.mem_filter.mpr ⟨hk',decide_eq_true hne⟩
  refine ⟨h.published,fun k' hk' => h.issued k' (hmem k' hk'),fun k' hk' => ?_,h.usable,h.promise,
    h.stage,h.owners,h.queue,h.jobs,fun j o k' ho hk' => ?_,h.own,h.distinct,
    fun hfailed k' hk' => h.kept hfailed k' (hmem k' hk')⟩
  · exact ⟨(h.stored k' hk').1,hkeep k' (h.stored k' hk').2 fun heq => hstored (heq ▸ hk')⟩
  · exact hkeep k' (h.holds j o k' ho hk') fun heq => hholds j o ho (heq ▸ hk')

lemma Inv.failRemoval (h : Inv s) : Inv { s with removalFailed := true } :=
  ⟨h.published,h.issued,h.stored,h.usable,h.promise,h.stage,h.owners,h.queue,h.jobs,h.holds,h.own,
    h.distinct,fun hfailed => nomatch hfailed⟩

/-- A key that an operation drops is in no session. -/
lemma Inv.own_unpublished (h : Inv s) {op : Operation} {k : String} (hop : s.ops i = some op)
    (hk : op.own = some k) (hidle : Idle s i) : k ∉ s.published := by
  intro hpub
  obtain ⟨-,m,hm⟩ := (h.own i op k hop hk).2 hpub
  exact hidle (List.mem_map_of_mem (List.mem_of_head? hm))

lemma Inv.drop (h : Inv s) {k : String} (hop : s.ops i = some ⟨.dropping k,none⟩) :
    Inv ((s.removeKey k).endOp i) := by
  have hidle := h.idle hop (.inr rfl)
  have hpub := h.own_unpublished hop rfl hidle
  have hremoved : Inv (s.removeKey k) := by
    refine h.removeKey (fun hstored => hpub (h.stored k hstored).1) fun j o ho hk => ?_
    obtain rfl := h.distinct i j _ o k hop ho rfl (own_of_holds hk)
    obtain rfl := Option.some.inj (hop.symm.trans ho)
    cases hk
  refine hremoved.endOp hop hidle fun k' hk' _ hmem => ?_
  rcases hk' with hk' | hk'
  · obtain rfl := Option.some.inj hk'
    exact absurd rfl (of_decide_eq_true (List.mem_filter.mp hmem).2)
  · cases hk'

/-! ### The queue -/

lemma mutation_save {job : Job} {session : StoredUserSession}
    (h : job.mutation = some (.save session)) : ∃ authorization, job = .storing authorization session := by
  cases job with
  | storing authorization session' =>
    obtain rfl : session' = session := by injection Option.some.inj h
    exact ⟨authorization,rfl⟩
  | noncing r session' reply =>
    obtain ⟨dpopNonce,-,h⟩ := Option.map_eq_some_iff.mp h
    cases h
  | _ => cases h

lemma mutation_clearSession {job : Job} {k : String} (h : job.mutation = some (.clearSession k)) :
    ∃ begun next, job = .clearing k begun next := by
  cases job with
  | clearing key begun next =>
    obtain rfl : key = k := by injection Option.some.inj h
    exact ⟨begun,next,rfl⟩
  | noncing r session' reply =>
    obtain ⟨dpopNonce,-,h⟩ := Option.map_eq_some_iff.mp h
    cases h
  | _ => cases h

lemma change_clearSession {state state' : StoredUserState} {k : String}
    (h : change state (.clearSession k) = some state') :
    sessionKey state = some k ∧ sessionKey state' = none := by
  rw [change,Option.ite_none_right_eq_some] at h
  obtain ⟨hk,h⟩ := h
  cases h
  exact ⟨hk,rfl⟩

lemma change_key {state state' : StoredUserState} {m : Mutation} (h : change state m = some state') :
    sessionKey state' = sessionKey state ∨ (∃ k, m = .clearSession k) ∨
      ∃ session, m = .save session ∧ sessionKey state' = some session.proofKeyId := by
  unfold change at h
  split at h
  · cases h
    exact .inl rfl
  · rename_i session
    cases h
    exact .inr (.inr ⟨session,rfl,rfl⟩)
  · split at h
    · rename_i session hsession
      split_ifs at h
      cases h
      left
      simp only [sessionKey,hsession,Option.map_some]
    · cases h
  · rename_i k
    exact .inr (.inl ⟨k,rfl⟩)

lemma own_result {job : Job} {ok : Bool} {k : String} (h : (⟨job,some ok⟩ : Operation).own = some k) :
    (⟨job,none⟩ : Operation).own = some k ∧
      ((⟨job,some ok⟩ : Operation).holds = some k → (⟨job,none⟩ : Operation).holds = some k) := by
  cases job with
  | storing authorization session =>
    cases ok with
    | false => exact ⟨h,id⟩
    | true => cases h
  | _ => exact ⟨h,id⟩

/-- The first mutation ends, and what its operation has stored or was to remove is settled. -/
lemma Inv.finish (h : Inv s) {m : Mutation} {rest : List (ℕ × Mutation)} {ok : Bool}
    (hqueue : s.stateMutation = (i,m) :: rest)
    (hpromise : ∀ state, s.statePromise = .loaded state → state = s.stored)
    (hunpublished : ok = false → ∀ session, m = .save session → session.proofKeyId ∉ s.published)
    (hsaved : ok = true → ∀ session, m = .save session →
      sessionKey s.stored = some session.proofKeyId)
    (hcleared : ∀ k, m = .clearSession k → Loose s k) : Inv (s.finish i ok) := by
  have hhead : s.stateMutation.head? = some (i,m) := by rw [hqueue]; rfl
  obtain ⟨job,hjob,hm⟩ := h.owners (i,m) (hqueue ▸ List.mem_cons_self)
  dsimp only at hjob
  have hops : ∀ j o, (s.finish i ok).ops j = some o →
      (j = i ∧ o = ⟨job,some ok⟩) ∨ (j ≠ i ∧ s.ops j = some o) := by
    intro j o ho
    dsimp only [Client.finish] at ho
    split_ifs at ho with hj
    · rw [hjob] at ho
      exact .inl ⟨hj,(Option.some.inj ho).symm⟩
    · exact .inr ⟨hj,ho⟩
  have hback : ∀ j o k, (s.finish i ok).ops j = some o → o.own = some k →
      ∃ o', s.ops j = some o' ∧ o'.own = some k ∧ (o.holds = some k → o'.holds = some k) := by
    intro j o k ho hk
    rcases hops j o ho with ⟨rfl,rfl⟩ | ⟨-,hold⟩
    · exact ⟨_,hjob,own_result hk⟩
    · exact ⟨o,hold,hk,id⟩
  -- The key of a completion whose save has ended is in no session unless the save is done.
  have hfree : ∀ j o k, (s.finish i ok).ops j = some o → o.own = some k → k ∉ s.published := by
    intro j o k ho hk hpub
    obtain ⟨o',ho',hk',-⟩ := hback j o k ho hk
    obtain ⟨-,m',hm'⟩ := (h.own j o' k ho' hk').2 hpub
    obtain rfl : j = i := congrArg Prod.fst (Option.some.inj (hm'.symm.trans hhead))
    rcases hops j o ho with ⟨-,rfl⟩ | ⟨hne,-⟩
    · cases job with
      | storing authorization session =>
        cases ok with
        | false =>
          obtain rfl := Option.some.inj hk
          exact hunpublished rfl session (Option.some.inj hm).symm hpub
        | true => cases hk
      | dropping key => cases hm
      | signing _ _ _ _ => cases hm
      | _ => cases hk
    · exact hne rfl
  refine ⟨h.published,h.issued,h.stored,h.usable,fun state hstate => ?_,trivial,fun p hp => ?_,?_,
    fun j o ho => ?_,fun j o k ho hk => ?_,fun j o k ho hk => ?_,fun j j' o o' k ho ho' hk hk' => ?_,
    fun hfailed k hk => ?_⟩
  · exact ⟨(h.promise state hstate).1,.inl (hpromise state hstate)⟩
  · have hnodup := h.queue
    rw [hqueue,List.map_cons,List.nodup_cons] at hnodup
    dsimp only [Client.finish] at hp ⊢
    rw [hqueue,List.tail_cons] at hp
    obtain ⟨job',hjob',hm'⟩ := h.owners p (hqueue ▸ List.mem_cons_of_mem _ hp)
    have hne : p.1 ≠ i := fun heq => hnodup.1 (heq ▸ List.mem_map.mpr ⟨p,hp,rfl⟩)
    exact ⟨job',(if_neg hne).trans hjob',hm'⟩
  · have hnodup := h.queue
    rw [hqueue,List.map_cons,List.nodup_cons] at hnodup
    dsimp only [Client.finish]
    rw [hqueue,List.tail_cons]
    exact hnodup.2
  · rcases hops j o ho with ⟨rfl,rfl⟩ | ⟨-,hold⟩
    · exact ⟨(h.jobs _ _ hjob).1,(h.jobs _ _ hjob).2⟩
    · exact h.jobs j o hold
  · obtain ⟨o',ho',hk',hheld⟩ := hback j o k ho (own_of_holds hk)
    exact h.holds j o' k ho' (hheld hk)
  · obtain ⟨o',ho',hk',-⟩ := hback j o k ho hk
    exact ⟨(h.own j o' k ho' hk').1,fun hpub => absurd hpub (hfree j o k ho hk)⟩
  · obtain ⟨p,hp,hpk,-⟩ := hback j o k ho hk
    obtain ⟨p',hp',hpk',-⟩ := hback j' o' k ho' hk'
    exact h.distinct j j' p p' k hp hp' hpk hpk'
  · rcases h.kept hfailed k hk with hstored | ⟨j,o,ho,hcovers⟩
    · exact .inl hstored
    · by_cases hj : j = i
      · subst hj
        obtain rfl := Option.some.inj (hjob.symm.trans ho)
        have hnew : (s.finish j ok).ops j = some ⟨job,some ok⟩ := by
          dsimp only [Client.finish]
          rw [if_pos rfl,hjob]
          rfl
        cases job with
        | storing authorization session =>
          obtain rfl := Option.some.inj hm
          rcases hcovers with hown | hclears
          · obtain rfl := Option.some.inj hown
            cases ok with
            | false => exact .inr ⟨_,_,hnew,.inl rfl⟩
            | true => exact .inl (hsaved rfl session rfl)
          · cases hclears
        | clearing key begun next =>
          obtain rfl := Option.some.inj hm
          rcases hcovers with hown | hclears | ⟨rfl,-⟩
          · cases hown
          · exact .inr ⟨_,_,hnew,.inr (.inl hclears)⟩
          · exact .inl (hcleared _ rfl hfailed hk)
        | noncing r session reply => exact .inr ⟨_,_,hnew,hcovers⟩
        | authorizing authorization => rcases hcovers with hcovers | hcovers <;> cases hcovers
        | _ => cases hm
      · exact .inr ⟨j,o,(if_neg hj).trans ho,hcovers⟩

lemma Inv.promise_stored (h : Inv s) (hnot : ∀ state, s.stage ≠ .saved state)
    {state : StoredUserState} (hstate : s.statePromise = .loaded state) : state = s.stored :=
  (h.promise state hstate).2.resolve_right fun ⟨state',hsaved⟩ => hnot state' hsaved

lemma Inv.free (h : Inv s) (hnot : ∀ state, s.stage ≠ .saved state) {j : ℕ} {o : Operation}
    {k : String} (ho : s.ops j = some o) (hk : o.own = some k) : k ∉ s.published := by
  intro hpub
  obtain ⟨⟨state,hsaved⟩,-⟩ := (h.own j o k ho hk).2 hpub
  exact hnot state hsaved

lemma Inv.setStage (h : Inv s) {stage : Stage} (hstage : StageOk { s with stage := stage })
    (hpromise : ∀ state, s.statePromise = .loaded state → state = s.stored)
    (hfree : ∀ j o k, s.ops j = some o → o.own = some k → k ∉ s.published) :
    Inv { s with stage := stage } :=
  ⟨h.published,h.issued,h.stored,h.usable,fun state hstate =>
    ⟨(h.promise state hstate).1,.inl (hpromise state hstate)⟩,hstage,h.owners,h.queue,h.jobs,h.holds,
    fun j o k ho hk => ⟨(h.own j o k ho hk).1,fun hpub => absurd hpub (hfree j o k ho hk)⟩,h.distinct,
    h.kept⟩

lemma Inv.advance (h : Inv s) {stage : Stage} (hstage : StageOk { s with stage := stage })
    (hnot : ∀ state, s.stage ≠ .saved state) : Inv { s with stage := stage } :=
  h.setStage hstage (fun _ hstate => h.promise_stored hnot hstate) fun _ _ _ ho hk => h.free hnot ho hk

/-- The key of a save that is not done is in no session. -/
lemma Inv.unsaved (h : Inv s) {rest : List (ℕ × Mutation)} {session : StoredUserSession}
    (hqueue : s.stateMutation = (i,.save session) :: rest) (hnot : ∀ state, s.stage ≠ .saved state) :
    session.proofKeyId ∉ s.published := by
  obtain ⟨job,hjob,hm⟩ := h.owners (i,.save session) (hqueue ▸ List.mem_cons_self)
  obtain ⟨authorization,rfl⟩ := mutation_save hm
  exact h.free hnot hjob rfl

/-- A save: what is stored has the key of the session before, or none, or that of a completion. -/
lemma Inv.store (h : Inv s) {state : StoredUserState} (hstage : s.stage = .saving state)
    (hok : ∀ i authorization session, s.stateMutation.head? = some (i,.save session) →
      s.ops i = some ⟨.storing authorization session,none⟩ →
      (∀ pending ∈ s.stored.authorization, pending = authorization) ∧
        ∀ k, sessionKey s.stored = some k → WillClear s k) : Inv (s.store state) := by
  have hstageOk := h.stage
  unfold StageOk at hstageOk
  rw [hstage] at hstageOk
  obtain ⟨⟨i,m⟩,hhead,hchange⟩ := hstageOk
  have hnot : ∀ state, s.stage ≠ .saved state := fun _ hsaved => nomatch hstage.symm.trans hsaved
  obtain ⟨rest,hqueue⟩ : ∃ rest, s.stateMutation = (i,m) :: rest :=
    ⟨_,List.eq_cons_of_mem_head? hhead⟩
  obtain ⟨job,hjob,hm⟩ := h.owners (i,m) (hqueue ▸ List.mem_cons_self)
  dsimp only at hjob hm hchange
  have hfree : ∀ j o k, s.ops j = some o → o.own = some k → k ∉ s.published :=
    fun j o k ho hk => h.free hnot ho hk
  -- The key that is stored: in the key store, and owned by the first operation if it is new.
  have hkey : ∀ k, sessionKey state = some k → k ∈ s.proofKeys ∧ (k ∈ s.published ∨
      ∃ authorization session, m = .save session ∧ job = .storing authorization session ∧
        session.proofKeyId = k) := by
    intro k hk
    rcases change_key hchange with heq | ⟨k',rfl⟩ | ⟨session,rfl,heq⟩
    · obtain ⟨hpub,hmem⟩ := h.stored k (heq.symm.trans hk)
      exact ⟨hmem,.inl hpub⟩
    · rw [(change_clearSession hchange).2] at hk
      cases hk
    · obtain rfl : session.proofKeyId = k := Option.some.inj (heq.symm.trans hk)
      obtain ⟨authorization,rfl⟩ := mutation_save hm
      exact ⟨h.holds i _ _ hjob rfl,.inr ⟨authorization,session,rfl,rfl,rfl⟩⟩
  have hsub : ∀ k ∈ s.published, k ∈ (s.store state).published := fun k hk =>
    List.mem_append_left _ hk
  refine ⟨fun k hk => ?_,h.issued,fun k hk => ?_,h.usable,fun state' hstate' => ?_,?_,h.owners,h.queue,
    fun j o ho => ⟨(h.jobs j o ho).1,(h.jobs j o ho).2.mono hsub⟩,h.holds,
    fun j o k ho hk => ⟨(h.own j o k ho hk).1,fun hpub => ⟨⟨state,rfl⟩,?_⟩⟩,h.distinct,
    fun hfailed k hk => ?_⟩
  · rcases List.mem_append.mp hk with hk | hk
    · exact h.published k hk
    · exact h.issued k (hkey k (Option.mem_toList.mp hk)).1
  · exact ⟨List.mem_append_right _ (Option.mem_toList.mpr hk),(hkey k hk).1⟩
  · exact ⟨fun k hk => hsub k ((h.promise state' hstate').1 k hk),.inr ⟨state,rfl⟩⟩
  · refine ⟨rfl,(i,m),hhead,fun k hk => ?_,fun session hsession => ?_⟩
    · dsimp only at hk
      subst hk
      exact (change_clearSession hchange).2
    · dsimp only at hsession
      subst hsession
      obtain rfl := Option.some.inj hchange
      rfl
  · rcases List.mem_append.mp hpub with hpub | hpub
    · exact absurd hpub (hfree j o k ho hk)
    · rcases (hkey k (Option.mem_toList.mp hpub)).2 with hpub | ⟨authorization,session,hm',rfl,rfl⟩
      · exact absurd hpub (hfree j o k ho hk)
      · obtain rfl := h.distinct i j _ o _ hjob ho rfl hk
        exact ⟨m,hhead⟩
  · rcases h.kept hfailed k hk with hstored | hcovers
    · rcases change_key hchange with heq | ⟨k',rfl⟩ | ⟨session,rfl,-⟩
      · exact .inl (heq.trans hstored)
      · obtain rfl := Option.some.inj ((change_clearSession hchange).1.symm.trans hstored)
        obtain ⟨begun,next,rfl⟩ := mutation_clearSession hm
        exact .inr ⟨i,_,hjob,.inr (.inr ⟨rfl,rfl⟩)⟩
      · obtain ⟨authorization,rfl⟩ := mutation_save hm
        obtain ⟨j,o,ho,hclears⟩ := (hok i authorization session hhead hjob).2 k hstored
        exact .inr ⟨j,o,ho,.inr hclears⟩
    · exact .inr hcovers

lemma Inv.enter (h : Inv s) {m : Mutation} {rest : List (ℕ × Mutation)}
    (hqueue : s.stateMutation = (i,m) :: rest) (hstage : s.stage = .waiting) : Inv (s.enter m) := by
  have hnot : ∀ state, s.stage ≠ .saved state := fun _ hsaved => nomatch hstage.symm.trans hsaved
  unfold Client.enter
  split
  · rename_i session
    refine h.advance ⟨(i,.save session),?_,rfl⟩ hnot
    rw [hqueue]
    rfl
  · exact h.demand.advance trivial hnot

/-- A mutation that saves nothing and removes nothing has nothing to do. -/
lemma Inv.proceed (h : Inv s) {m : Mutation} {rest : List (ℕ × Mutation)}
    (hqueue : s.stateMutation = (i,m) :: rest) (hnot : ∀ state, s.stage ≠ .saved state) :
    Inv (s.proceed i m s.stored) := by
  have hhead : s.stateMutation.head? = some (i,m) := by rw [hqueue]; rfl
  cases hchange : change s.stored m with
  | some next =>
    simp only [Client.proceed,hchange]
    exact h.advance ⟨(i,m),hhead,hchange⟩ hnot
  | none =>
    cases m with
    | clearSession k =>
      simp only [Client.proceed,hchange]
      refine h.advance ⟨i,k,hhead,fun hk => ?_⟩ hnot
      rw [change,if_pos hk] at hchange
      cases hchange
    | save session => cases hchange
    | _ =>
      simp only [Client.proceed,hchange]
      exact h.finish hqueue (fun state => h.promise_stored hnot) (fun hok => nomatch hok)
        (fun _ _ hsession => nomatch hsession) fun _ hk => nomatch hk

lemma Inv.read (h : Inv s) {m : Mutation} {rest : List (ℕ × Mutation)}
    (hqueue : s.stateMutation = (i,m) :: rest) (hstage : s.stage = .reading)
    (hstep : s.read i m = some t) : Inv t := by
  have hnot : ∀ state, s.stage ≠ .saved state := fun _ hsaved => nomatch hstage.symm.trans hsaved
  unfold Client.read at hstep
  split at hstep
  · rename_i state hstate
    cases hstep
    rw [h.promise_stored hnot hstate]
    exact h.proceed hqueue hnot
  · rename_i hfailed
    exact absurd hfailed h.usable
  · cases hstep

lemma Inv.acknowledge (h : Inv s) {m : Mutation} {rest : List (ℕ × Mutation)}
    {state : StoredUserState} (hqueue : s.stateMutation = (i,m) :: rest)
    (hstage : s.stage = .saved state) : Inv (s.acknowledge i m state) := by
  have hhead : s.stateMutation.head? = some (i,m) := by rw [hqueue]; rfl
  have hstageOk := h.stage
  unfold StageOk at hstageOk
  rw [hstage] at hstageOk
  obtain ⟨hstored,p,hp,hclear,hsave⟩ := hstageOk
  obtain rfl := Option.some.inj (hp.symm.trans hhead)
  have hloaded : Inv { s with statePromise := .loaded state } := by
    refine ⟨h.published,h.issued,h.stored,(fun hfailed => nomatch hfailed),fun state' hstate' => ?_,
      h.stage,h.owners,h.queue,h.jobs,h.holds,h.own,h.distinct,h.kept⟩
    obtain rfl : state = state' := by injection hstate'
    exact ⟨fun k hk => (h.stored k (hstored ▸ hk)).1,.inl hstored.symm⟩
  have hpromise : ∀ state', StatePromise.loaded state = .loaded state' → state' = s.stored := by
    intro state' heq
    obtain rfl : state = state' := by injection heq
    exact hstored.symm
  obtain ⟨job,hjob,hm⟩ := h.owners (i,m) (hqueue ▸ List.mem_cons_self)
  cases m with
  | clearSession k =>
    obtain ⟨begun,next,rfl⟩ := mutation_clearSession hm
    refine hloaded.setStage ⟨i,k,hhead,?_⟩ hpromise fun j o k' ho hk hpub => ?_
    · rw [hclear k rfl]
      exact fun hk => nomatch hk
    · obtain ⟨-,m',hm'⟩ := (h.own j o k' ho hk).2 hpub
      obtain rfl : j = i := congrArg Prod.fst (Option.some.inj (hm'.symm.trans hhead))
      obtain rfl := Option.some.inj (hjob.symm.trans ho)
      cases hk
  | _ =>
    exact hloaded.finish hqueue hpromise (fun hok => nomatch hok) (fun _ => hsave)
      fun _ hk => nomatch hk

/-- What is removed is in no session and is held by no completion. -/
lemma Inv.remove (h : Inv s) {k : String} {rest : List (ℕ × Mutation)}
    (hqueue : s.stateMutation = (i,.clearSession k) :: rest) (hstage : s.stage = .removing) :
    Inv ((s.removeKey k).finish i true) := by
  have hhead : s.stateMutation.head? = some (i,.clearSession k) := by rw [hqueue]; rfl
  have hnot : ∀ state, s.stage ≠ .saved state := fun _ hsaved => nomatch hstage.symm.trans hsaved
  have hstageOk := h.stage
  unfold StageOk at hstageOk
  rw [hstage] at hstageOk
  obtain ⟨j,k',hhead',hne⟩ := hstageOk
  obtain ⟨-,rfl⟩ : i = j ∧ k = k' := by
    have heq := Option.some.inj (hhead.symm.trans hhead')
    injection heq with hi hm
    injection hm with hk
    exact ⟨hi,hk⟩
  obtain ⟨job,hjob,hm⟩ := h.owners (i,.clearSession k) (hqueue ▸ List.mem_cons_self)
  obtain ⟨begun,next,rfl⟩ := mutation_clearSession hm
  have hpub : k ∈ s.published := (h.jobs i _ hjob).2.1
  have hremoved : Inv (s.removeKey k) :=
    h.removeKey hne fun j o ho hk => h.free hnot ho (own_of_holds hk) hpub
  refine hremoved.finish hqueue (fun _ hstate => hremoved.promise_stored hnot hstate)
    (fun hok => nomatch hok) (fun _ _ hsession => nomatch hsession) fun k' hk' _ hmem => ?_
  obtain rfl : k = k' := by injection hk'
  exact absurd rfl (of_decide_eq_true (List.mem_filter.mp hmem).2)

lemma Inv.storeFails (h : Inv s) {m : Mutation} {rest : List (ℕ × Mutation)}
    {state : StoredUserState} (hqueue : s.stateMutation = (i,m) :: rest)
    (hstage : s.stage = .saving state) : Inv (s.finish i false) := by
  have hnot : ∀ state, s.stage ≠ .saved state := fun _ hsaved => nomatch hstage.symm.trans hsaved
  have hstageOk := h.stage
  unfold StageOk at hstageOk
  rw [hstage,hqueue] at hstageOk
  obtain ⟨p,hp,hchange⟩ := hstageOk
  obtain rfl := Option.some.inj hp
  refine h.finish hqueue (fun _ hstate => h.promise_stored hnot hstate) (fun _ session hm => ?_)
    (fun hok => nomatch hok) fun k hk _ _ => ?_
  · subst hm
    exact h.unsaved hqueue hnot
  · subst hk
    exact (change_clearSession hchange).1

/-! ### Steps -/

lemma Inv.settled (h : Inv s) {job : Job} {ok : Bool} (hop : s.ops i = some ⟨job,some ok⟩)
    (hstep : s.settled i job ok = some t) : Inv t := by
  have hidle := h.idle hop (.inl (Option.some_ne_none ok))
  have hjob := (h.jobs i _ hop).2
  cases job with
  | authorizing authorization =>
    cases hstep
    refine h.endOp hop hidle fun k hk => ?_
    rcases hk with hk | hk <;> cases hk
  | storing authorization session =>
    cases ok with
    | true =>
      cases hstep
      refine h.endOp hop hidle fun k hk => ?_
      rcases hk with hk | hk <;> cases hk
    | false =>
      cases hstep
      exact h.setOp hop hidle (fun o ho => Option.mem_some_iff.mp ho ▸ trivial)
        (fun o ho k hk => by
          obtain rfl := Option.mem_some_iff.mp ho
          exact ⟨hk,fun hholds => nomatch hholds⟩)
        fun k hk => .inr ⟨_,rfl,hk.imp id fun hclears => nomatch hclears⟩
  | noncing r session reply =>
    obtain ⟨hr,hsession,hbegun⟩ := hjob
    have hkept : ∀ k, (⟨.noncing r session reply,some ok⟩ : Operation).own = some k ∨
        (⟨.noncing r session reply,some ok⟩ : Operation).Clears k → Loose s k ∨ r.revokes = some k := by
      rintro k (hk | hk)
      · cases hk
      · exact .inr hk
    cases ok with
    | true =>
      cases hstep
      exact h.afterNonce hop hidle hr hsession hbegun hkept
    | false =>
      cases hstep
      exact h.endRequest hop hidle hr hkept
  | clearing key begun next =>
    obtain ⟨hpub,-,hnext⟩ := hjob
    have hkept : ∀ k, (⟨.clearing key begun next,some ok⟩ : Operation).own = some k ∨
        (⟨.clearing key begun next,some ok⟩ : Operation).Clears k → next = some k := by
      rintro k (hk | hk | ⟨-,hk⟩)
      · cases hk
      · exact hk
      · cases hk
    cases next with
    | none =>
      cases hstep
      exact h.endOp hop hidle fun k hk => nomatch hkept k hk
    | some k =>
      cases hstep
      obtain rfl := hnext k rfl
      exact h.clearSession hop hidle hpub (fun _ hnone => nomatch hnone) fun k' hk' =>
        .inr (.inl (Option.some.inj (hkept k' hk')).symm)
  | _ => cases hstep

lemma Inv.fails (h : Inv s) {job : Job} {network : Bool} (hop : s.ops i = some ⟨job,none⟩)
    (hstep : s.fails i job network = some t) : Inv t := by
  have hjob := (h.jobs i _ hop).2
  cases job with
  | exchanging authorization =>
    cases hstep
    refine h.endOp hop (h.idle hop (.inr rfl)) fun k hk => ?_
    rcases hk with hk | hk <;> cases hk
  | creating authorization externalSubjectId =>
    cases hstep
    refine h.endOp hop (h.idle hop (.inr rfl)) fun k hk => ?_
    rcases hk with hk | hk <;> cases hk
  | signing authorization externalSubjectId k publicJwk =>
    cases hstep
    have hok : (Job.dropping k).Ok s.published := trivial
    exact h.handOn hop (h.idle hop (.inr rfl)) rfl rfl (fun _ hclears => nomatch hclears) hok rfl
  | sending r session =>
    cases hstep
    obtain ⟨hr,-,-⟩ := hjob
    have hkept : ∀ k, (⟨.sending r session,none⟩ : Operation).own = some k ∨
        (⟨.sending r session,none⟩ : Operation).Clears k → Loose s k ∨ r.revokes = some k := by
      rintro k (hk | hk)
      · cases hk
      · exact .inr hk
    split_ifs
    · exact h.tryAgain hop (h.idle hop (.inr rfl)) hr hkept
    · exact h.endRequest hop (h.idle hop (.inr rfl)) hr hkept
  | _ => cases hstep

lemma Inv.begin (h : Inv s) {reader : Reader} (hok : (Job.await reader).Ok s.published) :
    Inv (s.start (.await reader)).demand := (h.start hok rfl).demand

variable {dateParse : String → ℤ}

lemma Inv.step (h : Inv s) {act : Act} (hok : Regular s act) (hstep : step dateParse s act = some t) :
    Inv t := by
  cases act with
  | startAuthorization authorization =>
    cases hstep
    have hjob : (Job.authorizing authorization).Ok s.published := trivial
    have hstart := h.start hjob rfl
    have hop : (s.start (.authorizing authorization)).ops s.nextOp =
        some ⟨.authorizing authorization,none⟩ := if_pos rfl
    have hidle : Idle s s.nextOp := by
      intro hmem
      obtain ⟨p,hp,heq⟩ := List.mem_map.mp hmem
      obtain ⟨job,hop,-⟩ := h.owners p hp
      exact lt_irrefl _ (heq ▸ (h.jobs _ _ hop).1)
    refine hstart.mutateState hop hidle hjob rfl (fun k hk => ?_) rfl
    rcases hk with hk | hk <;> cases hk
  | completeAuthorization state =>
    cases hstep
    have hjob : (Job.await (.complete state)).Ok s.published := trivial
    exact h.begin hjob
  | session =>
    cases hstep
    have hjob : (Job.await .session).Ok s.published := trivial
    exact h.begin hjob
  | revoke =>
    cases hstep
    have hjob : (Job.await .revoke).Ok s.published := trivial
    exact h.begin hjob
  | request retryNetwork =>
    cases hstep
    have hr : (⟨none,none,retryNetwork,false,false⟩ : Request).Ok s.published := fun _ hk => nomatch hk
    have hjob : (Job.await (.request ⟨none,none,retryNetwork,false,false⟩)).Ok s.published := hr
    exact h.begin hjob
  | load =>
    dsimp only [UserClient.step] at hstep
    split at hstep
    · cases hstep
      refine ⟨h.published,h.issued,h.stored,(fun hfailed => nomatch hfailed),fun state hstate => ?_,
        h.stage,h.owners,h.queue,h.jobs,h.holds,h.own,h.distinct,h.kept⟩
      obtain rfl : s.stored = state := by injection hstate
      exact ⟨fun k hk => (h.stored k hk).1,.inl rfl⟩
    · cases hstep
  | loadFails => exact hok.elim
  | take i =>
    dsimp only [UserClient.step] at hstep
    split at hstep
    · rename_i hop hstate
      cases hstep
      exact h.take hop hstate
    · rename_i hfailed
      exact absurd hfailed h.usable
    · cases hstep
  | resume i now =>
    dsimp only [UserClient.step] at hstep
    split at hstep
    · rename_i reader state hop
      cases hstep
      refine h.resume hop _ fun r hr => ?_
      subst hr
      exact hok r state hop
    · cases hstep
  | exchanged i externalSubjectId =>
    dsimp only [UserClient.step] at hstep
    split at hstep
    · rename_i authorization hop
      cases hstep
      have hjob : (Job.creating authorization externalSubjectId).Ok s.published := trivial
      refine h.goOn hop (h.idle hop (.inr rfl)) hjob rfl fun k hk => ?_
      rcases hk with hk | hk <;> cases hk
    · cases hstep
  | created i k publicJwk =>
    dsimp only [UserClient.step] at hstep
    split at hstep
    · rename_i hop
      split_ifs at hstep with hfresh
      cases hstep
      exact h.created hop hfresh
    · cases hstep
  | credential i accessToken dpopNonce expiresAt =>
    dsimp only [UserClient.step] at hstep
    split at hstep
    · rename_i authorization externalSubjectId k publicJwk hop
      cases hstep
      have hidle := h.idle hop (.inr rfl)
      have hjob : (Job.storing authorization
          ⟨accessToken,dpopNonce,expiresAt,externalSubjectId,k,publicJwk⟩).Ok s.published := trivial
      exact (h.handOn hop hidle rfl rfl (fun _ hclears => nomatch hclears) hjob rfl).enqueue
        (if_pos rfl) hidle rfl
    · cases hstep
  | fails i network =>
    dsimp only [UserClient.step] at hstep
    split at hstep
    · rename_i hop
      exact h.fails hop hstep
    · cases hstep
  | dropped i ok =>
    dsimp only [UserClient.step] at hstep
    split at hstep
    · rename_i k hop
      cases hstep
      cases ok with
      | true => exact h.drop hop
      | false =>
        exact h.failRemoval.endOp hop (h.idle hop (.inr rfl)) fun _ _ hfailed => nomatch hfailed
    · cases hstep
  | replied i reply =>
    dsimp only [UserClient.step] at hstep
    split at hstep
    · rename_i hop
      cases hstep
      exact h.reply hop
    · cases hstep
  | settled i =>
    dsimp only [UserClient.step] at hstep
    split at hstep
    · rename_i hop
      exact h.settled hop hstep
    · cases hstep
  | enter =>
    dsimp only [UserClient.step] at hstep
    split at hstep
    · rename_i hqueue hstage
      cases hstep
      exact h.enter hqueue hstage
    · cases hstep
  | read =>
    dsimp only [UserClient.step] at hstep
    split at hstep
    · rename_i hqueue hstage
      exact h.read hqueue hstage hstep
    · cases hstep
  | store =>
    dsimp only [UserClient.step] at hstep
    split at hstep
    · rename_i hstage
      cases hstep
      exact h.store hstage hok
    · cases hstep
  | storeFails =>
    dsimp only [UserClient.step] at hstep
    split at hstep
    · rename_i hqueue hstage
      cases hstep
      exact h.storeFails hqueue hstage
    · cases hstep
  | acknowledge =>
    dsimp only [UserClient.step] at hstep
    split at hstep
    · rename_i hqueue hstage
      cases hstep
      exact h.acknowledge hqueue hstage
    · cases hstep
  | remove =>
    dsimp only [UserClient.step] at hstep
    split at hstep
    · rename_i hqueue hstage
      cases hstep
      exact h.remove hqueue hstage
    · cases hstep
  | removeFails =>
    dsimp only [UserClient.step] at hstep
    split at hstep
    · rename_i hqueue hstage
      cases hstep
      have hnot : ∀ state, s.stage ≠ .saved state := fun _ hsaved =>
        nomatch hstage.symm.trans hsaved
      exact h.failRemoval.finish hqueue (fun _ hstate => h.promise_stored hnot hstate)
        (fun _ _ hm => nomatch hm) (fun hok => nomatch hok) fun _ _ hfailed => nomatch hfailed
    · cases hstep

/-! ## Whose session is touched -/

/-- The key goes, or the stored session with this key is cleared or changed. -/
def Touches (s t : Client) (k : String) : Prop :=
  (k ∈ s.proofKeys ∧ k ∉ t.proofKeys) ∨
    ∃ session, s.stored.session = some session ∧ session.proofKeyId = k ∧
      t.stored.session ≠ some session

/-- The operation whose step it is, where the step may touch a session. -/
def acting (s : Client) : Act → Option ℕ
  | .dropped i _ => some i
  | .store | .remove => s.stateMutation.head?.map Prod.fst
  | _ => none

/-- Neither the storage nor the key store is touched. -/
def Same (s t : Client) : Prop := t.stored = s.stored ∧ t.proofKeys = s.proofKeys

lemma same_endRequest (s : Client) (i : ℕ) (r : Request) : Same s (s.endRequest i r) := by
  unfold Client.endRequest
  split <;> exact ⟨rfl,rfl⟩

lemma same_afterNonce (s : Client) (i : ℕ) (r : Request) (session : StoredUserSession) (reply : Reply) :
    Same s (s.afterNonce i r session reply) := by
  unfold Client.afterNonce
  split_ifs
  · exact ⟨rfl,rfl⟩
  · exact same_endRequest s i r
  · split
    · split_ifs
      · exact ⟨rfl,rfl⟩
      · exact same_endRequest s i r
    · exact same_endRequest s i r

lemma same_reply (s : Client) (i : ℕ) (r : Request) (session : StoredUserSession) (reply : Reply) :
    Same s (s.reply i r session reply) := by
  unfold Client.reply
  split
  · split_ifs
    · exact ⟨rfl,rfl⟩
    · exact same_afterNonce s i r session reply
  · exact same_afterNonce s i r session reply

lemma same_resume (s : Client) (i : ℕ) (reader : Reader) (expired : StoredUserSession → Bool)
    (state : StoredUserState) : Same s (s.resume i reader expired state) := by
  cases reader with
  | request r =>
    dsimp only [Client.resume]
    unfold Client.attempt
    split
    · exact same_endRequest s i r
    · dsimp only
      split_ifs <;> exact ⟨rfl,rfl⟩
  | _ =>
    dsimp only [Client.resume]
    split
    · split_ifs <;> exact ⟨rfl,rfl⟩
    · exact ⟨rfl,rfl⟩

lemma same_throw (s : Client) (i : ℕ) (reader : Reader) : Same s (s.throw i reader) := by
  cases reader with
  | request r => exact same_endRequest s i r
  | _ => exact ⟨rfl,rfl⟩

lemma same_settled {job : Job} {ok : Bool} (h : s.settled i job ok = some t) : Same s t := by
  unfold Client.settled at h
  split at h
  · cases h
    exact ⟨rfl,rfl⟩
  · cases h
    split_ifs <;> exact ⟨rfl,rfl⟩
  · rename_i r session reply
    cases h
    split_ifs
    · exact same_afterNonce s i r session reply
    · exact same_endRequest s i r
  · cases h
    split <;> exact ⟨rfl,rfl⟩
  · cases h

lemma same_fails {job : Job} {network : Bool} (h : s.fails i job network = some t) : Same s t := by
  unfold Client.fails at h
  split at h
  · cases h
    exact ⟨rfl,rfl⟩
  · cases h
    exact ⟨rfl,rfl⟩
  · cases h
    exact ⟨rfl,rfl⟩
  · rename_i r _
    cases h
    split_ifs
    · exact ⟨rfl,rfl⟩
    · exact same_endRequest s i r
  · cases h

lemma same_read {m : Mutation} (h : s.read i m = some t) : Same s t := by
  unfold Client.read at h
  split at h
  · cases h
    unfold Client.proceed
    split <;> exact ⟨rfl,rfl⟩
  · cases h
    exact ⟨rfl,rfl⟩
  · cases h

lemma same_enter (s : Client) (m : Mutation) : Same s (s.enter m) := by
  unfold Client.enter
  split <;> exact ⟨rfl,rfl⟩

lemma same_acknowledge (s : Client) (i : ℕ) (m : Mutation) (state : StoredUserState) :
    Same s (s.acknowledge i m state) := by
  unfold Client.acknowledge
  split <;> exact ⟨rfl,rfl⟩

/-- What is stored changes only where a save arrives, and a key goes only where it is removed. -/
lemma step_cases {act : Act} (hstep : step dateParse s act = some t) :
    (t.stored = s.stored ∧ ∀ k ∈ s.proofKeys, k ∈ t.proofKeys) ∨
    (∃ state, act = .store ∧ s.stage = .saving state ∧ t = s.store state) ∨
    (∃ i k, act = .dropped i true ∧ s.ops i = some ⟨.dropping k,none⟩ ∧
      t = (s.removeKey k).endOp i) ∨
    ∃ i k rest, act = .remove ∧ s.stateMutation = (i,.clearSession k) :: rest ∧
      t = (s.removeKey k).finish i true := by
  have hsame : ∀ {t' : Client}, Same s t' → t'.stored = s.stored ∧ ∀ k ∈ s.proofKeys, k ∈ t'.proofKeys :=
    fun h => ⟨h.1,fun k hk => by rw [h.2]; exact hk⟩
  cases act with
  | startAuthorization authorization =>
    cases hstep
    exact .inl (hsame ⟨rfl,rfl⟩)
  | completeAuthorization state =>
    cases hstep
    exact .inl (hsame ⟨rfl,rfl⟩)
  | session =>
    cases hstep
    exact .inl (hsame ⟨rfl,rfl⟩)
  | revoke =>
    cases hstep
    exact .inl (hsame ⟨rfl,rfl⟩)
  | request retryNetwork =>
    cases hstep
    exact .inl (hsame ⟨rfl,rfl⟩)
  | store =>
    dsimp only [UserClient.step] at hstep
    split at hstep
    · rename_i state hstage
      cases hstep
      exact .inr (.inl ⟨state,rfl,hstage,rfl⟩)
    · cases hstep
  | created i k publicJwk =>
    dsimp only [UserClient.step] at hstep
    split at hstep
    · split_ifs at hstep
      cases hstep
      exact .inl ⟨rfl,fun k hk => List.mem_append_left _ hk⟩
    · cases hstep
  | dropped i ok =>
    dsimp only [UserClient.step] at hstep
    split at hstep
    · rename_i k hop
      cases hstep
      cases ok with
      | true => exact .inr (.inr (.inl ⟨i,k,rfl,hop,rfl⟩))
      | false => exact .inl (hsame ⟨rfl,rfl⟩)
    · cases hstep
  | remove =>
    dsimp only [UserClient.step] at hstep
    split at hstep
    · rename_i i k rest hqueue hstage
      cases hstep
      exact .inr (.inr (.inr ⟨i,k,rest,rfl,hqueue,rfl⟩))
    · cases hstep
  | _ =>
    left
    dsimp only [UserClient.step] at hstep
    split at hstep <;> first
      | exact hsame (same_fails hstep)
      | exact hsame (same_settled hstep)
      | exact hsame (same_read hstep)
      | cases hstep
    all_goals first
      | exact hsame ⟨rfl,rfl⟩
      | exact hsame (same_throw s _ _)
      | exact hsame (same_resume s _ _ _ _)
      | exact hsame (same_reply s _ _ _ _)
      | exact hsame (same_enter s _)
      | exact hsame (same_acknowledge s _ _ _)

/-- What a mutation writes clears or changes the stored session only if it was begun for it. -/
lemma change_session {state state' : StoredUserState} {m : Mutation} {session : StoredUserSession}
    (h : change state m = some state') (hsession : state.session = some session)
    (hne : state'.session ≠ some session) :
    (∃ session', m = .save session') ∨ m = .clearSession session.proofKeyId ∨
      ∃ dpopNonce, m = .updateNonce dpopNonce session.proofKeyId := by
  cases m with
  | authorize authorization =>
    cases h
    exact absurd hsession hne
  | save session' => exact .inl ⟨session',rfl⟩
  | updateNonce dpopNonce k =>
    simp only [change,hsession] at h
    split_ifs at h with hk
    exact .inr (.inr ⟨dpopNonce,by rw [hk]⟩)
  | clearSession k =>
    obtain ⟨hk,-⟩ := change_clearSession h
    rw [sessionKey,hsession] at hk
    obtain rfl : session.proofKeyId = k := Option.some.inj hk
    exact .inr (.inl rfl)

/-- The operation of a mutation was begun for the session that the mutation names. -/
lemma Inv.begun (h : Inv s) {job : Job} {m : Mutation} {k : String}
    (hjob : s.ops i = some ⟨job,none⟩) (hm : job.mutation = some m)
    (hnames : (∃ session, m = .save session) ∨ m = .clearSession k ∨
      ∃ dpopNonce, m = .updateNonce dpopNonce k) {b : String} (hb : job.begun = some b) : b = k := by
  have hok := (h.jobs i _ hjob).2
  cases job with
  | noncing r session reply =>
    obtain ⟨hr,-,hbegun⟩ := hok
    obtain ⟨dpopNonce,-,rfl⟩ := Option.map_eq_some_iff.mp hm
    obtain ⟨session',hm⟩ | hm | ⟨dpopNonce',hm⟩ := hnames
    · cases hm
    · cases hm
    · obtain rfl : session.proofKeyId = k := by injection hm
      exact Option.some.inj (hb.symm.trans hbegun)
  | clearing key begun next =>
    obtain rfl := Option.some.inj hm
    obtain ⟨session',hm⟩ | hm | ⟨dpopNonce',hm⟩ := hnames
    · cases hm
    · obtain rfl : key = k := by injection hm
      exact (Option.some.inj hb).symm.trans hok.2.1
    · cases hm
  | authorizing authorization => cases hb
  | storing authorization session => cases hb
  | _ => cases hm

lemma Inv.touches (h : Inv s) {act : Act} {k : String} (hstep : UserClient.step dateParse s act = some t)
    (htouches : Touches s t k) : ∃ i op, acting s act = some i ∧ s.ops i = some op ∧
      ∀ b, op.job.begun = some b → b = k := by
  rcases step_cases hstep with ⟨hstored,hkeys⟩ | ⟨state,rfl,hstage,rfl⟩ | ⟨i,_,rfl,hop,rfl⟩ |
    ⟨i,k',rest,rfl,hqueue,rfl⟩
  · obtain ⟨hmem,hgone⟩ | ⟨session,hsession,-,hne⟩ := htouches
    · exact absurd (hkeys k hmem) hgone
    · rw [hstored] at hne
      exact absurd hsession hne
  · obtain ⟨hmem,hgone⟩ | ⟨session,hsession,rfl,hne⟩ := htouches
    · exact absurd hmem hgone
    · have hstageOk := h.stage
      unfold StageOk at hstageOk
      rw [hstage] at hstageOk
      obtain ⟨⟨i,m⟩,hhead,hchange⟩ := hstageOk
      obtain ⟨job,hjob,hm⟩ := h.owners (i,m) (List.mem_of_head? hhead)
      have hacting : acting s .store = some i := by
        dsimp only [acting]
        rw [hhead]
        rfl
      exact ⟨i,_,hacting,hjob,fun b hb =>
        h.begun hjob hm (change_session hchange hsession hne) hb⟩
  · exact ⟨i,_,rfl,hop,fun b hb => nomatch hb⟩
  · have hacting : acting s .remove = some i := by
      dsimp only [acting]
      rw [hqueue]
      rfl
    obtain ⟨job,hjob,hm⟩ := h.owners (i,.clearSession k') (hqueue ▸ List.mem_cons_self)
    obtain ⟨hmem,hgone⟩ | ⟨session,hsession,-,hne⟩ := htouches
    · obtain rfl : k = k' := by
        by_contra hne
        exact hgone (List.mem_filter.mpr ⟨hmem,decide_eq_true hne⟩)
      exact ⟨i,_,hacting,hjob,fun b hb => h.begun hjob hm (.inr (.inl rfl)) hb⟩
    · exact absurd hsession hne

/-- A pending authorization gives way to a newer one or to its own completion only. -/
lemma Inv.pending (h : Inv s) {act : Act} (hok : Regular s act)
    (hstep : UserClient.step dateParse s act = some t) {a : AuthorizationState}
    (hpending : s.stored.authorization = some a) (hne : t.stored.authorization ≠ some a) :
    ∃ i m, acting s act = some i ∧ s.stateMutation.head? = some (i,m) ∧
      ((∃ a', m = .authorize a') ∨ ∃ session, s.ops i = some ⟨.storing a session,none⟩) := by
  rcases step_cases hstep with ⟨hstored,-⟩ | ⟨state,rfl,hstage,rfl⟩ | ⟨i,_,rfl,hop,rfl⟩ |
    ⟨i,k',rest,rfl,hqueue,rfl⟩
  · rw [hstored] at hne
    exact absurd hpending hne
  · have hstageOk := h.stage
    unfold StageOk at hstageOk
    rw [hstage] at hstageOk
    obtain ⟨⟨i,m⟩,hhead,hchange⟩ := hstageOk
    obtain ⟨job,hjob,hm⟩ := h.owners (i,m) (List.mem_of_head? hhead)
    dsimp only at hjob hm hchange
    have hacting : acting s .store = some i := by
      dsimp only [acting]
      rw [hhead]
      rfl
    refine ⟨i,m,hacting,hhead,?_⟩
    cases m with
    | authorize a' => exact .inl ⟨a',rfl⟩
    | save session =>
      obtain ⟨authorization,rfl⟩ := mutation_save hm
      obtain rfl := (hok i authorization session hhead hjob).1 a hpending
      exact .inr ⟨session,hjob⟩
    | updateNonce dpopNonce k =>
      unfold change at hchange
      dsimp only at hchange
      split at hchange
      · split_ifs at hchange
        cases hchange
        exact absurd hpending hne
      · cases hchange
    | clearSession k =>
      unfold change at hchange
      dsimp only at hchange
      split_ifs at hchange
      cases hchange
      exact absurd hpending hne
  · exact absurd hpending hne
  · exact absurd hpending hne

/-! ## Runs -/

lemma inv_create (stored : StoredUserState) : Inv (create stored) where
  published _ hk := hk
  issued _ hk := hk
  stored _ hk := ⟨Option.mem_toList.mpr hk,Option.mem_toList.mpr hk⟩
  usable hfailed := nomatch hfailed
  promise _ hstate := nomatch hstate
  stage := trivial
  owners _ hp := nomatch hp
  queue := .nil
  jobs _ _ hop := nomatch hop
  holds _ _ _ hop := nomatch hop
  own _ _ _ hop := nomatch hop
  distinct _ _ _ _ _ hop := nomatch hop
  kept _ _ hk := .inl (Option.mem_toList.mp hk)

/-- What holds of a client in every state: the key of a stored session is there, no other key is left
once all is done, the state can be read and is the stored one, a failed save changes nothing, an
operation begun for a session touches no other, and a pending authorization stays. -/
structure Consistent (dateParse : String → ℤ) (s : Client) : Prop where
  keyed : ∀ k, sessionKey s.stored = some k → k ∈ s.proofKeys
  quiet : (∀ i, s.ops i = none) → s.removalFailed = false →
    ∀ k ∈ s.proofKeys, sessionKey s.stored = some k
  usable : s.statePromise ≠ .failed
  current : (∀ state, s.stage ≠ .saved state) →
    ∀ state, s.statePromise = .loaded state → state = s.stored
  unfailed : ∀ t, step dateParse s .storeFails = some t → t.stored = s.stored ∧
    t.statePromise = s.statePromise ∧ t.proofKeys = s.proofKeys ∧
    t.stateMutation = s.stateMutation.tail ∧ t.stage = .waiting
  touches : ∀ act t k, step dateParse s act = some t → Touches s t k →
    ∃ i op, acting s act = some i ∧ s.ops i = some op ∧ ∀ b, op.job.begun = some b → b = k
  pending : ∀ act t a, Regular s act → step dateParse s act = some t →
    s.stored.authorization = some a → t.stored.authorization ≠ some a →
    ∃ i m, acting s act = some i ∧ s.stateMutation.head? = some (i,m) ∧
      ((∃ a', m = .authorize a') ∨ ∃ session, s.ops i = some ⟨.storing a session,none⟩)

lemma Inv.consistent (h : Inv s) : Consistent dateParse s where
  keyed k hk := (h.stored k hk).2
  quiet hquiet hfailed k hk := by
    refine (h.kept hfailed k hk).resolve_right ?_
    rintro ⟨i,op,hop,-⟩
    cases (hquiet i).symm.trans hop
  usable := h.usable
  current hnot _ hstate := h.promise_stored hnot hstate
  unfailed t hstep := by
    dsimp only [UserClient.step] at hstep
    split at hstep
    · cases hstep
      exact ⟨rfl,rfl,rfl,rfl,rfl⟩
    · cases hstep
  touches _ _ _ hstep htouches := h.touches hstep htouches
  pending _ _ _ hok hstep hpending hne := h.pending hok hstep hpending hne

/-- In a run without failed loads, whose requests find the session of their first attempt when they are
tried again, and whose completions store their session over their own authorization and over no key
that nothing is going to remove, every state is consistent. -/
theorem client_consistent {stored : StoredUserState} {acts : List Act} {s : Client}
    (h : Run (step dateParse) Regular (create stored) acts s) : Consistent dateParse s :=
  (h.invariant (fun hs hok hstep => hs.step hok hstep) (inv_create stored)).consistent

section Instances

/-- All sessions are good until the moment 1. -/
def untilOne (_ : String) : ℤ := 1

def firstSession : StoredUserSession := ⟨"token 0","nonce 0","","user","key 0",[]⟩

/-- An authorization is started and completed. -/
theorem client_consistent_completed : ∃ s, Run (step untilOne) Regular (create ⟨none,none⟩)
    [.startAuthorization ⟨"state 1","",""⟩,.enter,.load,.read,.store,.acknowledge,.settled 0,
      .completeAuthorization "state 1",.take 1,.resume 1 0,.exchanged 1 "user",.created 1 "key 1" [],
      .credential 1 "token" "nonce" "",.enter,.store,.acknowledge,.settled 1] s ∧
    sessionKey s.stored = some "key 1" ∧ Consistent untilOne s := by
  have hrun : ∃ s, Run (step untilOne) Regular (create ⟨none,none⟩)
      [.startAuthorization ⟨"state 1","",""⟩,.enter,.load,.read,.store,.acknowledge,.settled 0,
        .completeAuthorization "state 1",.take 1,.resume 1 0,.exchanged 1 "user",.created 1 "key 1" [],
        .credential 1 "token" "nonce" "",.enter,.store,.acknowledge,.settled 1] s ∧
      sessionKey s.stored = some "key 1" := by
    refine ⟨_,.cons trivial rfl <| .cons trivial rfl <| .cons trivial rfl <| .cons trivial rfl <|
      .cons (fun i authorization session hhead => nomatch hhead) rfl <| .cons trivial rfl <|
      .cons trivial rfl <| .cons trivial rfl <| .cons trivial rfl <|
      .cons (fun r state hop => nomatch hop) rfl <| .cons trivial rfl <| .cons trivial rfl <|
      .cons trivial rfl <| .cons trivial rfl <|
      .cons (fun i authorization session hhead hop => ⟨fun pending hpending => ?_,fun k hk => nomatch hk⟩)
        rfl <| .cons trivial rfl <| .cons trivial rfl <| .nil _,rfl⟩
    cases hhead
    cases hop
    cases hpending
    rfl
  obtain ⟨s,hrun,hkey⟩ := hrun
  exact ⟨s,hrun,hkey,client_consistent hrun⟩

/-- An authorization started while another is completed is no longer pending; the key of a session that
was replaced is left; a request begun for a session sets the nonce of the one after; and after a failed
load every operation fails, though the storage is there. -/
theorem client_overlaps :
    (∃ s t, Run (step untilOne) (fun _ _ => True) (create ⟨none,none⟩)
        [.startAuthorization ⟨"state 1","",""⟩,.enter,.load,.read,.store,.acknowledge,.settled 0,
          .completeAuthorization "state 1",.take 1,.resume 1 0,.exchanged 1 "user",
          .startAuthorization ⟨"state 2","",""⟩,.enter,.read,.store,.acknowledge,.settled 2] s ∧
      Run (step untilOne) (fun _ _ => True) s
        [.created 1 "key 1" [],.credential 1 "token" "nonce" "",.enter,.store,.acknowledge,.settled 1] t ∧
      s.stored.authorization.map (·.state) = some "state 2" ∧ t.stored.authorization = none) ∧
    (∃ s, Run (step untilOne) (fun _ _ => True) (create ⟨none,some firstSession⟩)
        [.startAuthorization ⟨"state 1","",""⟩,.enter,.load,.read,.store,.acknowledge,.settled 0,
          .completeAuthorization "state 1",.take 1,.resume 1 0,.exchanged 1 "user",.created 1 "key 1" [],
          .credential 1 "token" "nonce" "",.enter,.store,.acknowledge,.settled 1] s ∧
      s.ops 0 = none ∧ s.ops 1 = none ∧ s.nextOp = 2 ∧ s.removalFailed = false ∧
      "key 0" ∈ s.proofKeys ∧ sessionKey s.stored = some "key 1") ∧
    (∃ s t, Run (step untilOne) (fun _ _ => True) (create ⟨none,some firstSession⟩)
        [.request true,.load,.take 0,.resume 0 0,
          .startAuthorization ⟨"state 1","",""⟩,.enter,.read,.store,.acknowledge,.settled 1,
          .completeAuthorization "state 1",.take 2,.resume 2 0,.exchanged 2 "user",.created 2 "key 1" [],
          .credential 2 "token" "nonce" "",.enter,.store,.acknowledge,.settled 2,
          .fails 0 true,.take 0,.resume 0 0,.replied 0 ⟨some "nonce 1",200,none⟩,.enter,.read] s ∧
      step untilOne s .store = some t ∧ Touches s t "key 1" ∧ acting s .store = some 0 ∧
      (s.ops 0).bind (·.job.begun) = some "key 0") ∧
    ∃ s, Run (step untilOne) (fun _ _ => True) (create ⟨none,some firstSession⟩)
        [.session,.loadFails,.take 0,.session,.take 1] s ∧
      s.statePromise = .failed ∧ s.ops 1 = none ∧ step untilOne s .load = none :=
  ⟨⟨_,_,.of_foldlM rfl,.of_foldlM rfl,rfl,rfl⟩,
    ⟨_,.of_foldlM rfl,rfl,rfl,rfl,rfl,List.mem_cons_self,rfl⟩,
    ⟨_,_,.of_foldlM rfl,rfl,.inr ⟨_,rfl,rfl,fun heq => absurd
      (congrArg StoredUserSession.dpopNonce (Option.some.inj heq)) (by decide)⟩,rfl,rfl⟩,
    _,.of_foldlM rfl,rfl,rfl,rfl⟩

end Instances
end Linea.UserClient
