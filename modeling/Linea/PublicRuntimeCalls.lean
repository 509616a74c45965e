import Linea.PublicRuntimeKeys

/-! The calls of the public API keep the agreement: each either leaves its key free, or answers from
the record under it, or puts its own record there together with the resource it names. -/
namespace Linea.PublicRuntime
open Linea.Consent (IdempotencyRecord Reply)
variable {setting : Setting} {calls : Set Call} {c : Client} {call : Call}
  {held held' : Set Lock} {pending : Store → Store} {known known' : Store → Prop}
  {record : Option IdempotencyRecord} {started : Option String} {s s' t : Store}
  {outcome : Outcome} {resourceId : String}

/-! ## The end of a call -/

section Finish

/-- The record under the key of a call as it is reserved. -/
def Call.reservation (setting : Setting) (call : Call) : IdempotencyRecord :=
  ⟨setting.hashPublicRequest call.request, none⟩

/-- The writes `s'` of a transaction whose call is answered. -/
inductive Finished (setting : Setting) (call : Call) (held : Set Lock) (s s' : Store) :
    Outcome → Prop
  | answered {outcome : Outcome} (hsame : s' = s)
    (hnotRejected : ∀ reason, outcome ≠ .rejected reason)
    (hanswered : Answered setting s ⟨call, outcome, s.records call.slot⟩) :
    Finished setting call held s s' outcome
  | released (reason : Rejection) (hfree : s.records call.slot = none)
    (hdraft : Draft held call.slot none none s s') :
    Finished setting call held s s' (.rejected reason)
  | finalized {outcome : Outcome} {resourceId : String} {started : Option String}
    (houtcome : outcome.resource = some resourceId) (hlock : Lock.slot call.slot ∈ held)
    (hfree : s.records call.slot = none) (hstarted : ∀ id, started = some id → id = resourceId)
    (hdraft : Draft held call.slot
      (some ⟨setting.hashPublicRequest call.request, some resourceId⟩) started s s')
    (hfound : Found setting s' call resourceId) : Finished setting call held s s' outcome

lemma Kept.answered : Kept s (s.answered call outcome) := Kept.of_eq rfl rfl rfl

lemma Inserts.answered : Inserts held s (s.answered call outcome) := Inserts.of_eq rfl rfl rfl

lemma records_released {slot : Slot} (hfree : s.records slot = none)
    (hdraft : Draft held slot none none s s') : s'.records = s.records := by
  rw [hdraft.records, ← hfree, Function.update_eq_self]

/-- A transaction that has answered its call may commit. -/
lemma Finished.move (hcall : call ∈ calls) (hinv : Inv setting calls s)
    (h : Finished setting call held s s' outcome) :
    Move setting calls held s (s'.answered call outcome) := by
  cases h with
  | answered hsame hnotRejected hanswered =>
    subst hsame
    refine ⟨Kept.answered, Inserts.answered, fun _ => .inl rfl, ?_⟩
    refine hinv.commit call outcome Kept.answered (fun h => h) (fun h => .inl h) (fun h => .inl h)
      (.inl rfl) rfl ?_
    exact ⟨hanswered.resource, hanswered.conflict, fun reason h => absurd h (hnotRejected reason)⟩
  | released reason hfree hdraft =>
    have hrecords : s'.records = s.records := records_released hfree hdraft
    have hkept : Kept s (s'.answered call (.rejected reason)) := hdraft.kept.trans Kept.answered
    refine ⟨hkept, hdraft.inserts.trans Inserts.answered, fun slot => .inl (congrFun hrecords slot),
      ?_⟩
    refine hinv.commit call (.rejected reason) hkept (fun h => ?_) (fun h => .inl ?_)
      (fun h => .inl ?_) (.inl ?_) ?_ ?_
    · exact (congrFun hrecords _).trans h
    · exact (congrFun hrecords _).symm.trans h
    · exact (hdraft.starts h).resolve_right fun hnew => by cases hnew.2
    · refine hdraft.queue.resolve_right ?_
      rintro ⟨message, -, -, hstarted⟩
      cases hstarted
    · change s'.answers ++ [⟨call, .rejected reason, s'.records call.slot⟩] = _
      rw [hdraft.answers]
      rfl
    · refine ⟨fun resourceId h => (by cases h), fun h => (by cases h), fun _ _ => ?_⟩
      exact (congrFun hrecords call.slot).trans hfree
  | @finalized outcome resourceId started houtcome hlock hfree hstarted hdraft hfound =>
    have hkept : Kept s (s'.answered call outcome) := hdraft.kept.trans Kept.answered
    have hown : s'.records call.slot =
        some ⟨setting.hashPublicRequest call.request, some resourceId⟩ := by
      rw [hdraft.records, Function.update_self]
    have hother : ∀ slot, slot ≠ call.slot → s'.records slot = s.records slot := by
      intro slot hne
      rw [hdraft.records, Function.update_of_ne hne]
    have hkeeps : ∀ {slot record}, s.records slot = some record →
        s'.records slot = some record := by
      intro slot record hrecord
      have hne : slot ≠ call.slot := by
        rintro rfl
        rw [hfree] at hrecord
        cases hrecord
      exact (hother slot hne).trans hrecord
    refine ⟨hkept, hdraft.inserts.trans Inserts.answered, fun slot => ?_, ?_⟩
    · by_cases heq : slot = call.slot
      · subst heq
        exact .inr ⟨hfree, hlock⟩
      · exact .inl (hother slot heq)
    refine hinv.commit call outcome hkept hkeeps (fun {slot record} h => ?_) (fun {id start} h => ?_)
      ?_ ?_ ?_
    · by_cases heq : slot = call.slot
      · subst heq
        have hvalue : some record = some _ := h.symm.trans hown
        exact .inr ⟨call, hcall, resourceId, rfl, Option.some.inj hvalue, hfound.kept Kept.answered⟩
      · exact .inl ((hother slot heq).symm.trans h)
    · rcases hdraft.starts h with hold | ⟨hslot, hnew⟩
      · exact .inl hold
      · refine .inr ⟨setting.hashPublicRequest call.request, ?_⟩
        rw [hslot, hstarted id hnew]
        exact hown
    · rcases hdraft.queue with hsame | ⟨message, hqueue, hslot, hnew⟩
      · exact .inl hsame
      · refine .inr ⟨message, hqueue, hslot ▸ hfree, setting.hashPublicRequest call.request, ?_⟩
        rw [hslot, hstarted _ hnew]
        exact hown
    · change s'.answers ++ [⟨call, outcome, s'.records call.slot⟩] = _
      rw [hdraft.answers]
      rfl
    · refine ⟨fun resourceId' h => ?_, fun h => ?_, fun reason h => ?_⟩
      · rw [houtcome, Option.some.injEq] at h
        exact h ▸ hown
      · cases (congrArg Outcome.resource h).symm.trans houtcome
      · cases (congrArg Outcome.resource h).symm.trans houtcome

end Finish

/-! ## Between the reservation and the end -/

section Drafting

/-- A transaction that holds the key of its call, with its writes so far. -/
structure Drafting (setting : Setting) (calls : Set Call) (call : Call)
    (record : Option IdempotencyRecord) (started : Option String) (held : Set Lock)
    (pending : Store → Store) (known : Store → Prop) : Prop where
  lock : Lock.slot call.slot ∈ held
  free : ∀ t, known t → t.records call.slot = none
  draft : ∀ t, Inv setting calls t → known t → Draft held call.slot record started t (pending t)

/-- The postcondition of a call's program. -/
def Ends (setting : Setting) (calls : Set Call) (call : Call) (held : Set Lock)
    (pending : Store → Store) (known : Store → Prop) (outcome : Outcome) : Prop :=
  ∀ t, Inv setting calls t → known t → Finished setting call held t (pending t) outcome

abbrev wpCall (setting : Setting) (calls : Set Call) (c : Client) {α : Type} (program : Program α) :=
  (discipline setting calls).wp c program

lemma permitted {message : String} (h : message ∉ impossible) :
    (discipline setting calls).permits message := h

lemma Draft.mono (h : Draft held call.slot record started s s') (hsub : held ⊆ held') :
    Draft held' call.slot record started s s' :=
  { h with inserts := h.inserts.mono hsub }

lemma Drafting.mono (h : Drafting setting calls call record started held pending known)
    (hsub : held ⊆ held') (hknown : ∀ t, known' t → known t) :
    Drafting setting calls call record started held' pending known' :=
  ⟨hsub h.lock, fun t ht => h.free t (hknown t ht), fun t hinv ht =>
    (h.draft t hinv (hknown t ht)).mono hsub⟩

/-- After a statement of the transaction. -/
lemma Drafting.later {locks : Set Lock}
    (h : Drafting setting calls call record started held pending known) (hsub : held ⊆ held')
    (hknown : ∀ t, known' t → known t ∧ Rely setting calls c locks s t) :
    Drafting setting calls call record started held' pending known' :=
  h.mono hsub fun t ht => (hknown t ht).1

lemma Drafting.own (h : Drafting setting calls call record started held pending known)
    (hinv : Inv setting calls t) (ht : known t) : (pending t).records call.slot = record := by
  rw [(h.draft t hinv ht).records, Function.update_self]

/-- Further writes to the rows of the other tables. -/
lemma Drafting.write (h : Drafting setting calls call record started held pending known)
    (change : Store → Store)
    (hkept : ∀ t, known t → Kept (pending t) (change (pending t)))
    (hinserts : ∀ t, known t → Inserts held (pending t) (change (pending t)))
    (hrecords : ∀ s, (change s).records = s.records) (hanswers : ∀ s, (change s).answers = s.answers)
    (hstarts : ∀ s, (change s).starts = s.starts) (hqueue : ∀ s, (change s).queue = s.queue) :
    Drafting setting calls call record started held (fun t => change (pending t)) known :=
  ⟨h.lock, h.free, fun t hinv ht => (h.draft t hinv ht).write subset_rfl (hkept t ht)
    (hinserts t ht) (hrecords _) (hanswers _) (hstarts _) (hqueue _)⟩

/-- The reservation, before anything else is written. -/
lemma drafting_reserved (setting : Setting) (calls : Set Call) (hlock : Lock.slot call.slot ∈ held)
    (hfree : ∀ t, known t → t.records call.slot = none) :
    Drafting setting calls call (some (call.reservation setting)) none held
      (Store.setRecord call.slot (some (call.reservation setting))) known := by
  refine ⟨hlock, hfree, fun t _ _ => ?_⟩
  exact ⟨Kept.of_eq rfl rfl rfl, Inserts.of_eq rfl rfl rfl, rfl, rfl, fun h => .inl h, .inl rfl⟩

lemma Store.releaseRecord_reserved (h : s.records call.slot = some (call.reservation setting)) :
    s.releaseRecord call.slot = s.setRecord call.slot none := by
  simp [Store.releaseRecord, h, Call.reservation]

/-- A rejected call gives its key back. -/
lemma Drafting.reject {reason : Rejection}
    (h : Drafting setting calls call (some (call.reservation setting)) none held pending known) :
    wpCall setting calls c (PublicRuntime.reject call.slot reason) held pending known
      (Ends setting calls call) := by
  refine Discipline.wp_update_bind (Discipline.wp_pure.mpr fun t hinv ht => ?_)
  rw [Store.releaseRecord_reserved (h.own hinv ht)]
  have hdraft := h.draft t hinv ht
  refine .released reason (h.free t ht) ⟨hdraft.kept.trans (Kept.of_eq rfl rfl rfl),
    hdraft.inserts.trans (Inserts.of_eq rfl rfl rfl), ?_, hdraft.answers, hdraft.starts,
    hdraft.queue⟩
  change Function.update (pending t).records call.slot none = _
  rw [hdraft.records, Function.update_idem]

/-- The record of a call is given its resource, which a replay finds. -/
lemma Drafting.finalize
    (h : Drafting setting calls call (some (call.reservation setting)) started held pending known)
    (hstarted : ∀ id, started = some id → id = resourceId)
    (hfound : ∀ t, Inv setting calls t → known t → Found setting (pending t) call resourceId)
    (houtcome : outcome.resource = some resourceId) :
    wpCall setting calls c (do
      finalizePublicRequest call.slot resourceId
      pure outcome) held pending known (Ends setting calls call) := by
  refine Discipline.wp_bind.mpr (Discipline.wp_lockRow_bind ?_)
  intro s held' known' hinv hs hsub _ hknown
  have hview : ((pending s).records call.slot).filter (fun r => r.resourceId = none) =
      some (call.reservation setting) := by
    rw [h.own hinv hs]
    rfl
  simp only [hview]
  refine Discipline.wp_update.mpr (Discipline.wp_pure.mpr fun t hinv ht => ?_)
  have ht' := (hknown t ht).1
  have hdraft := (h.draft t hinv ht').mono hsub
  refine .finalized houtcome (hsub h.lock) (h.free t ht') hstarted
    ⟨hdraft.kept.trans (Kept.of_eq rfl rfl rfl),
      hdraft.inserts.trans (Inserts.of_eq rfl rfl rfl), ?_, hdraft.answers, hdraft.starts,
      hdraft.queue⟩ ?_
  · change Function.update (pending t).records call.slot _ = _
    rw [hdraft.records, Function.update_idem]
    rfl
  · exact (hfound t hinv ht').kept (Kept.of_eq rfl rfl rfl)

end Drafting

/-! ## The reservation -/

section Reserve
/-- No two requests that are made have one hash. -/
def CollisionFree (setting : Setting) (calls : Set Call) : Prop :=
  ∀ call ∈ calls, ∀ call' ∈ calls, setting.hashPublicRequest call.request =
    setting.hashPublicRequest call'.request → call.request = call'.request

lemma Found.congr {call' : Call} (h : Found setting s call' resourceId)
    (hactor : call'.actor = call.actor) (hrequest : call'.request = call.request) :
    Found setting s call resourceId := by
  simpa only [Found, hactor, hrequest] using h

/-- A replay answers from the record. -/
lemma ends_replay (houtcome : outcome.resource = some resourceId)
    (hrecord : ∀ t, known t → t.records call.slot =
      some ⟨setting.hashPublicRequest call.request, some resourceId⟩) :
    Ends setting calls call held id known outcome := by
  intro t _ ht
  have hreason : ∀ reason, outcome ≠ .rejected reason := by
    rintro reason rfl
    cases houtcome
  refine .answered rfl hreason ⟨fun resourceId' h => ?_, fun h => ?_,
    fun reason h => absurd h (hreason reason)⟩
  · rw [houtcome, Option.some.injEq] at h
    exact h ▸ hrecord t ht
  · cases (congrArg Outcome.resource h).symm.trans houtcome

lemma ends_conflict {record : IdempotencyRecord}
    (hrecord : ∀ t, known t → t.records call.slot = some record)
    (hne : record.requestHash ≠ setting.hashPublicRequest call.request) :
    Ends setting calls call held id known .idempotencyConflict := by
  intro t _ ht
  exact .answered rfl (fun _ h => by cases h) ⟨fun _ h => (by cases h),
    fun _ => ⟨record, hrecord t ht, hne⟩, fun _ h => (by cases h)⟩

/-- A replay finds its resource. -/
lemma wp_replay {β : Type} {view : Store → Option β} {next : Option β → Program Outcome}
    (hfound : ∀ s, Found setting s call resourceId → (view s).isSome)
    (hnext : ∀ row, next (some row) = pure outcome) (houtcome : outcome.resource = some resourceId)
    (hrecord : ∀ t, known t → t.records call.slot =
      some ⟨setting.hashPublicRequest call.request, some resourceId⟩)
    (hreplay : ∀ t, known t → Found setting t call resourceId) :
    wpCall setting calls c (Tx.select view >>= next) held id known (Ends setting calls call) := by
  refine Discipline.wp_select_bind fun s known' _ hs hknown => ?_
  obtain ⟨row, hrow⟩ := Option.isSome_iff_exists.mp (hfound s (hreplay s hs))
  simp only [id_eq, hrow, hnext]
  exact Discipline.wp_pure.mpr (ends_replay houtcome fun t ht => hrecord t (hknown t ht).1)

/-- What a call meets under its key. -/
lemma wp_reserve {next : Reservation → Program Outcome} (hdistinct : CollisionFree setting calls)
    (hcall : call ∈ calls) (hconflict : next .conflict = pure .idempotencyConflict)
    (hreserved : ∀ held known, Lock.slot call.slot ∈ held →
      (∀ t, known t → t.records call.slot = none) →
      wpCall setting calls c (next .reserved) held
        (Store.setRecord call.slot (some (call.reservation setting))) known (Ends setting calls call))
    (hreplay : ∀ held known resourceId,
      (∀ t, known t → t.records call.slot =
        some ⟨setting.hashPublicRequest call.request, some resourceId⟩) →
      (∀ t, known t → Found setting t call resourceId) →
      wpCall setting calls c (next (.replay resourceId)) held id known (Ends setting calls call)) :
    wpCall setting calls c
      (reservePublicRequest call.slot (setting.hashPublicRequest call.request) >>= next) ∅ id
      (fun _ => True) (Ends setting calls call) := by
  refine Discipline.wp_bind.mpr (Discipline.wp_lockSlot_bind ?_)
  intro s held known hinv _ _ hlock hknown
  cases hslot : s.records call.slot with
  | none =>
    simp only [id_eq, hslot]
    refine Discipline.wp_update_bind (Discipline.wp_pure.mpr ?_)
    refine hreserved held known (hlock hslot) fun t ht => ?_
    exact Rely.noRecord (hknown t ht).2 (hlock hslot) hslot
  | some record =>
    simp only [id_eq, hslot]
    refine Discipline.wp_select_bind fun u known' hinvU hu hknown' => ?_
    have hrecord : u.records call.slot = some record := Rely.record (hknown u hu).2 hslot
    have hstays : ∀ t, known' t → t.records call.slot = some record :=
      fun t ht => Rely.record (hknown' t ht).2 hrecord
    simp only [id_eq, hrecord]
    by_cases hhash : record.requestHash = setting.hashPublicRequest call.request
    · obtain ⟨call', hcall', resourceId, hkey, hvalue, hfound⟩ := hinvU.record hrecord
      subst hvalue
      have hrequest := hdistinct call' hcall' call hcall hhash
      rw [if_neg (not_not.mpr hhash)]
      refine Discipline.wp_pure.mpr (hreplay held known' resourceId (fun t ht => ?_) fun t ht => ?_)
      · rw [hstays t ht, hrequest]
      · refine (hfound.congr ?_ hrequest).kept (Rely.keeps (hknown' t ht).2)
        exact congrArg Slot.actor hkey
    · rw [if_pos hhash]
      refine Discipline.wp_pure.mpr ?_
      rw [hconflict]
      exact Discipline.wp_pure.mpr (ends_conflict hstays hhash)

end Reserve

/-! ## Rows -/

section Rows
variable {id : String}

lemma Kept.insertConversation {row : Conversation} (hnone : s.conversations.get? id = none) :
    Kept s (s.insertConversation id row) := by
  refine ⟨fun h => ⟨_, h, rfl, rfl, rfl⟩, fun {id' row'} h => ?_, fun h => ⟨_, h, rfl, rfl⟩⟩
  have hne : id' ≠ id := by
    rintro rfl
    rw [hnone] at h
    cases h
  exact ⟨row', (s.conversations.get?_set_of_ne hne row).trans h, rfl⟩

lemma Inserts.insertConversation {row : Conversation} (hlock : Lock.conversation id ∈ held) :
    Inserts held s (s.insertConversation id row) := by
  refine ⟨fun hnone hsome => absurd hnone hsome, fun {id'} hnone hsome => ?_,
    fun hnone hsome => absurd hnone hsome⟩
  by_cases heq : id' = id
  · exact heq ▸ hlock
  · exact absurd ((s.conversations.get?_set_of_ne heq row).trans hnone) hsome

lemma Kept.insertMessage {row : ChatMessage} (hnone : s.messages.get? id = none) :
    Kept s (s.insertMessage id row) := by
  refine ⟨fun h => ⟨_, h, rfl, rfl, rfl⟩, fun h => ⟨_, h, rfl⟩, fun {id' row'} h => ?_⟩
  have hne : id' ≠ id := by
    rintro rfl
    rw [hnone] at h
    cases h
  exact ⟨row', (s.messages.get?_set_of_ne hne row).trans h, rfl, rfl⟩

lemma Inserts.insertMessage {row : ChatMessage} (hlock : Lock.message id ∈ held) :
    Inserts held s (s.insertMessage id row) := by
  refine ⟨fun hnone hsome => absurd hnone hsome, fun hnone hsome => absurd hnone hsome,
    fun {id'} hnone hsome => ?_⟩
  by_cases heq : id' = id
  · exact heq ▸ hlock
  · exact absurd ((s.messages.get?_set_of_ne heq row).trans hnone) hsome

lemma execution_insertExecution {row : Execution} {start : Start} (id' : String) :
    (s.insertExecution id row start).consent.execution id' =
      if id' = id then some row else s.consent.execution id' := by
  simp only [Consent.Store.execution, Store.insertExecution, Function.update_apply]
  split <;> rfl

lemma Kept.insertExecution {row : Execution} {start : Start}
    (hnone : s.consent.execution id = none) : Kept s (s.insertExecution id row start) := by
  refine ⟨fun {id' row'} h => ?_, fun h => ⟨_, h, rfl⟩, fun h => ⟨_, h, rfl, rfl⟩⟩
  have hne : id' ≠ id := by
    rintro rfl
    rw [hnone] at h
    cases h
  refine ⟨row', ?_, rfl, rfl, rfl⟩
  rw [execution_insertExecution, if_neg hne]
  exact h

lemma Inserts.insertExecution {row : Execution} {start : Start}
    (hlock : Lock.consent (.execution id) ∈ held) :
    Inserts held s (s.insertExecution id row start) := by
  refine ⟨fun {id'} hnone hsome => ?_, fun hnone hsome => absurd hnone hsome,
    fun hnone hsome => absurd hnone hsome⟩
  by_cases heq : id' = id
  · exact heq ▸ hlock
  · rw [execution_insertExecution, if_neg heq] at hsome
    exact absurd hnone hsome

/-- The activity of a conversation is not part of its identity. -/
lemma touched_row {message : ChatMessage} {updatedAt : ℕ} {id : String} :
    (s.touchConversation message updatedAt).conversations.get? id =
      (s.conversations.get? id).map fun row =>
        if id = message.conversationId ∧ row.workspaceId = message.workspaceId then
          { row with lastActivityAt := max row.lastActivityAt message.createdAt, updatedAt }
        else row :=
  OrderedMap.get?_mapValues _ _ _

lemma Kept.touchConversation {message : ChatMessage} {updatedAt : ℕ} :
    Kept s (s.touchConversation message updatedAt) := by
  refine ⟨fun h => ⟨_, h, rfl, rfl, rfl⟩, fun {id row} h => ?_, fun h => ⟨_, h, rfl, rfl⟩⟩
  refine ⟨_, touched_row.trans (congrArg _ h), ?_⟩
  dsimp only
  split <;> rfl

lemma Inserts.touchConversation {message : ChatMessage} {updatedAt : ℕ} :
    Inserts held s (s.touchConversation message updatedAt) := by
  refine ⟨fun hnone hsome => absurd hnone hsome, fun {id} hnone hsome => absurd ?_ hsome,
    fun hnone hsome => absurd hnone hsome⟩
  rw [touched_row, hnone]
  rfl

end Rows

/-! ## Conversations -/

section Conversations
variable {input : NewConversation}

lemma conversationOfThread_get? {environmentId key : String} {p : String × Conversation}
    (h : s.conversationOfThread environmentId key = some p) :
    s.conversations.get? p.1 = some p.2 :=
  OrderedMap.get?_iff_mem.mpr (List.mem_of_find?_eq_some h)

/-- A conversation of this identity is there. -/
def Present (identity : ConversationIdentity) (id : String) (s : Store) : Prop :=
  ∃ row, s.conversations.get? id = some row ∧ row.toConversationIdentity = identity

lemma Present.kept {identity : ConversationIdentity} {id : String} (h : Present identity id s)
    (hkept : Kept s t) : Present identity id t := by
  obtain ⟨row, hrow, hidentity⟩ := h
  obtain ⟨row', hrow', hsame⟩ := hkept.conversation hrow
  exact ⟨row', hrow', hsame.trans hidentity⟩

/-- A conversation that a thread's lookup has found stays. -/
lemma wp_thread {α : Type} {environmentId key : String} {record : Option IdempotencyRecord}
    {next : Option (String × Conversation) → Program α}
    {post : Set Lock → (Store → Store) → (Store → Prop) → α → Prop}
    (h : ∀ found known', (∀ t, known' t → known t) →
      (∀ p, found = some p → ∀ t, known' t → Present p.2.toConversationIdentity p.1 t) →
      wpCall setting calls c (next found) held (Store.setRecord call.slot record) known' post) :
    wpCall setting calls c (Tx.select (Store.conversationOfThread environmentId key) >>= next)
      held (Store.setRecord call.slot record) known post := by
  refine Discipline.wp_select_bind fun s known' hinv hs hknown => ?_
  refine h _ known' (fun t ht => (hknown t ht).1) fun p hp t ht => ?_
  have hpresent : Present p.2.toConversationIdentity p.1 s :=
    ⟨p.2, conversationOfThread_get? hp, rfl⟩
  exact hpresent.kept (Rely.keeps (hknown t ht).2)

/-- What the creation of a conversation has written, and which one it has found or made. -/
def Created (setting : Setting) (calls : Set Call) (call : Call) (input : NewConversation)
    (held : Set Lock) (pending : Store → Store) (known : Store → Prop)
    (result : CreateConversationResult) : Prop :=
  Drafting setting calls call (some (call.reservation setting)) none held pending known ∧
    ∀ id, result = .created id ∨ result = .existing id →
      ∀ t, known t → Present input.toConversationIdentity id (pending t)

lemma created_found {p : String × Conversation}
    (h : Drafting setting calls call (some (call.reservation setting)) none held
      (Store.setRecord call.slot (some (call.reservation setting))) known)
    (hpresent : ∀ t, known t → Present p.2.toConversationIdentity p.1 t) :
    Created setting calls call input held
      (Store.setRecord call.slot (some (call.reservation setting))) known
      (if hasIdentity p.2 input.toConversationIdentity then .existing p.1
        else .conversationIdentityConflict) := by
  refine ⟨h, fun id hresult t ht => ?_⟩
  split at hresult
  · rename_i hidentity
    have hsame : p.2.toConversationIdentity = input.toConversationIdentity := by
      simpa [hasIdentity] using hidentity
    have hid : p.1 = id := by simpa using hresult
    exact hid ▸ hsame ▸ hpresent t ht
  · simp at hresult

lemma created_none
    (h : Drafting setting calls call (some (call.reservation setting)) none held pending known)
    {result : CreateConversationResult}
    (hresult : ∀ id, result ≠ .created id ∧ result ≠ .existing id) :
    Created setting calls call input held pending known result :=
  ⟨h, fun id hid => absurd hid (by simp [hresult id])⟩

/-- The insert of a conversation: nothing, or a row under the lock of its id. -/
lemma wp_insertConversation {α : Type} {next : Option String → Program α}
    {post : Set Lock → (Store → Store) → (Store → Prop) → α → Prop}
    (h : Drafting setting calls call (some (call.reservation setting)) none held
      (Store.setRecord call.slot (some (call.reservation setting))) known)
    (hnone : ∀ held' known', Drafting setting calls call (some (call.reservation setting)) none held'
        (Store.setRecord call.slot (some (call.reservation setting))) known' →
      wpCall setting calls c (next none) held'
        (Store.setRecord call.slot (some (call.reservation setting))) known' post)
    (hsome : ∀ id held' pending' known',
      Drafting setting calls call (some (call.reservation setting)) none held' pending' known' →
      (∀ t, known' t → Present input.toConversationIdentity id (pending' t)) →
      wpCall setting calls c (next (some id)) held' pending' known' post) :
    wpCall setting calls c (insertConversation input >>= next) held
      (Store.setRecord call.slot (some (call.reservation setting))) known post := by
  refine Discipline.wp_bind.mpr (Discipline.wp_receiving_bind fun reply =>
    Discipline.wp_receiving_bind fun reply' => ?_)
  have hinsert : ∀ held' known' (taken : Option (String × Conversation)),
      Drafting setting calls call (some (call.reservation setting)) none held'
        (Store.setRecord call.slot (some (call.reservation setting))) known' →
      wpCall setting calls c (if taken.isSome then pure none else do
        let used ← Tx.lockSlot (.conversation reply.id) fun s => s.conversations.get? reply.id
        if used.isSome then pure none
        else do
          Tx.update (Store.insertConversation reply.id
            { input with status := .active, lastActivityAt := reply'.now, updatedAt := reply'.now })
          pure (some reply.id)) held'
        (Store.setRecord call.slot (some (call.reservation setting))) known'
        fun held pending known a => wpCall setting calls c (next a) held pending known post := by
    intro held' known' taken hdrafting
    split
    · exact Discipline.wp_pure.mpr (hnone held' known' hdrafting)
    · refine Discipline.wp_lockSlot_bind fun s held'' known'' hinv hs hsub hlock hknown => ?_
      have hlater := hdrafting.later hsub hknown
      split
      · exact Discipline.wp_pure.mpr (hnone held'' known'' hlater)
      · rename_i hfree
        have hfree : s.conversations.get? reply.id = none := Option.not_isSome_iff_eq_none.mp hfree
        have hlock := hlock hfree
        refine Discipline.wp_update_bind (Discipline.wp_pure.mpr (hsome _ _ _ _ ?_ fun t _ => ?_))
        · refine ⟨hlater.lock, hlater.free, fun t hinv ht => ?_⟩
          have habsent : t.conversations.get? reply.id = none :=
            Rely.noConversation (hknown t ht).2 hlock hfree
          exact (hlater.draft t hinv ht).write subset_rfl (Kept.insertConversation habsent)
            (Inserts.insertConversation hlock) rfl rfl rfl rfl
        · exact ⟨_, OrderedMap.get?_set_self _ _ _, rfl⟩
  simp only [threadTaken]
  cases input.externalThreadKey with
  | some key =>
    refine Discipline.wp_lockSlot_bind fun s held' known' _ _ hsub _ hknown => ?_
    exact hinsert held' known' _ (h.later hsub hknown)
  | none => exact hinsert held known none h

lemma wp_existingConversation {α : Type} {next : Option (String × Conversation) → Program α}
    {post : Set Lock → (Store → Store) → (Store → Prop) → α → Prop}
    (h : Drafting setting calls call (some (call.reservation setting)) none held
      (Store.setRecord call.slot (some (call.reservation setting))) known)
    (hnext : ∀ found known', Drafting setting calls call (some (call.reservation setting)) none held
        (Store.setRecord call.slot (some (call.reservation setting))) known' →
      (∀ p, found = some p → ∀ t, known' t → Present p.2.toConversationIdentity p.1 t) →
      wpCall setting calls c (next found) held
        (Store.setRecord call.slot (some (call.reservation setting))) known' post) :
    wpCall setting calls c (existingConversation input >>= next) held
      (Store.setRecord call.slot (some (call.reservation setting))) known post := by
  simp only [existingConversation]
  split
  · exact wp_thread fun found known' hknown hfound =>
      hnext found known' (h.mono subset_rfl hknown) hfound
  · exact hnext none known h fun p hp => by cases hp

lemma wp_createConversation
    (h : Drafting setting calls call (some (call.reservation setting)) none held
      (Store.setRecord call.slot (some (call.reservation setting))) known) :
    wpCall setting calls c (createConversation input) held
      (Store.setRecord call.slot (some (call.reservation setting))) known
      (Created setting calls call input) := by
  simp only [createConversation]
  refine wp_existingConversation h fun existing known' hdrafting hexisting => ?_
  cases existing with
  | some p => exact Discipline.wp_pure.mpr (created_found hdrafting (hexisting p rfl))
  | none =>
    refine Discipline.wp_select_bind fun s known'' _ _ hknown => ?_
    have hdrafting := hdrafting.later subset_rfl hknown
    split
    · exact Discipline.wp_pure.mpr (created_none hdrafting (by simp))
    · refine wp_insertConversation hdrafting (fun held' known' hdrafting => ?_)
        fun id held' pending' known' hdrafting hpresent => ?_
      · simp only [racedConversation]
        split
        · refine wp_thread fun raced known'' hknown hraced => ?_
          have hdrafting := hdrafting.mono subset_rfl hknown
          cases raced with
          | none => exact Discipline.wp_pure.mpr (created_none hdrafting (by simp))
          | some p => exact Discipline.wp_pure.mpr (created_found hdrafting (hraced p rfl))
        · exact Discipline.wp_halt_bind (permitted (by decide))
      · refine Discipline.wp_pure.mpr ⟨hdrafting, fun id' hid t ht => ?_⟩
        have heq : id = id' := by simpa using hid
        exact heq ▸ hpresent t ht

end Conversations

/-! ## Cancellation of an execution -/

section Cancel
variable {executionId : String} {e : Execution}

/-- Whose an execution is. -/
def owner (e : Execution) : String × Option String × Option String :=
  (e.workspaceId, e.environmentId, e.externalSubjectRecordId)

/-- A change of the consent store in which every execution has the owner it had, provided that
execution `executionId` has the owner of `e`. -/
def KeepsOwners (executionId : String) (e : Execution) (change : Consent.Store → Consent.Store) :
    Prop :=
  ∀ s, (s.execution executionId).map owner = some (owner e) →
    ∀ id, ((change s).execution id).map owner = (s.execution id).map owner

lemma KeepsOwners.comp {f g : Consent.Store → Consent.Store} (hf : KeepsOwners executionId e f)
    (hg : KeepsOwners executionId e g) : KeepsOwners executionId e fun s => g (f s) := by
  intro s hs id
  rw [hg (f s) ((hf s hs executionId).trans hs) id, hf s hs id]

lemma keepsOwners_of_eq {change : Consent.Store → Consent.Store}
    (h : ∀ s, (change s).executions = s.executions) : KeepsOwners executionId e change := by
  intro s _ id
  simp only [Consent.Store.execution, h]

lemma keepsOwners_setExecution {execution : Execution} (h : owner execution = owner e) :
    KeepsOwners executionId e
      (Consent.Store.setExecution executionId (.withRow fun _ => execution)) := by
  intro s hs id
  simp only [Consent.Store.execution, Consent.Store.setExecution]
  by_cases heq : id = executionId
  · subst heq
    simp only [if_true]
    simp only [Consent.Store.execution, Option.map_map] at hs
    cases hrow : s.executions id with
    | none => rfl
    | some record =>
      rw [hrow, Option.map_some, Option.some.injEq] at hs
      simp [Consent.ExecutionRecord.withRow, h, ← hs]
  · simp only [if_neg heq]

/-- Programs on the consent store whose changes keep the owners. -/
abbrev OwnersKept {α : Type} (executionId : String) (e : Execution)
    (program : Consent.Program α) : Prop :=
  program.Confined (KeepsOwners executionId e) fun message => message ∉ impossible

lemma ownersKept_lockAudience {workspaceId environmentId externalSubjectId : String} :
    OwnersKept executionId e
      (Consent.lockAudience workspaceId environmentId externalSubjectId) := by
  refine Tx.Confined.bind Tx.Confined.selectForUpdate fun audience => ?_
  cases audience with
  | some _ => exact Tx.Confined.pure
  | none => exact Tx.Confined.halt (by decide)

lemma ownersKept_recordCancellations {now : ℕ} {intents : List (String × Consent.ActionIntent)} :
    OwnersKept executionId e (Consent.recordCancellations now intents) := by
  induction intents with
  | nil => exact Tx.Confined.pure
  | cons intent rest ih =>
    refine Tx.Confined.bind (Tx.Confined.bind Tx.Confined.select fun context => ?_) fun _ => ih
    split
    · exact Tx.Confined.update (keepsOwners_of_eq fun _ => rfl)
    · exact Tx.Confined.halt (by decide)

lemma ownersKept_recordApprovalCancellations {requests : List Consent.ApprovalRequest} :
    OwnersKept executionId e (Consent.recordApprovalCancellations requests) := by
  induction requests with
  | nil => exact Tx.Confined.pure
  | cons request rest ih =>
    refine Tx.Confined.bind ?_ fun _ => ih
    simp only [Consent.recordApprovalCancellation]
    split
    · exact ownersKept_lockAudience
    · exact Tx.Confined.pure

lemma ownersKept_cancelIntents {workspaceId : String} {scope : CancellationScope}
    {now : ℕ} :
    OwnersKept executionId e (Consent.cancelNonExecutingActionIntents workspaceId scope now) := by
  refine Tx.Confined.bind Tx.Confined.select fun snapshots => ?_
  split
  · exact Tx.Confined.pure
  refine Tx.Confined.bind Tx.Confined.selectForUpdate fun _ => ?_
  refine Tx.Confined.bind (Tx.Confined.bind Tx.Confined.select fun _ =>
    Tx.Confined.selectForUpdate) fun locked => ?_
  dsimp only
  split
  · exact Tx.Confined.pure
  split
  · exact Tx.Confined.pure
  refine Tx.Confined.bind (Tx.Confined.update (keepsOwners_of_eq fun _ => rfl)) fun _ => ?_
  refine Tx.Confined.bind ownersKept_recordCancellations fun _ => ?_
  refine Tx.Confined.bind Tx.Confined.selectForUpdate fun requests => ?_
  refine Tx.Confined.bind (Tx.Confined.update (keepsOwners_of_eq fun _ => rfl)) fun _ => ?_
  exact Tx.Confined.bind ownersKept_recordApprovalCancellations fun _ => Tx.Confined.pure

lemma ownersKept_publishRequestEvent {question : Consent.Question} :
    OwnersKept executionId e (Consent.publishRequestEvent question) := by
  simp only [Consent.publishRequestEvent]
  split
  · exact Tx.Confined.pure
  · exact ownersKept_lockAudience
  · exact Tx.Confined.halt (by decide)

lemma getPublicExecution_owner {workspaceId environmentId : String} :
    (getPublicExecution workspaceId environmentId none executionId s).isSome ↔
      ∃ subject, (s.consent.execution executionId).map owner =
        some (workspaceId, some environmentId, subject) := by
  rw [getPublicExecution_isSome]
  constructor
  · rintro ⟨row, hrow, rfl, henvironment, -⟩
    exact ⟨row.externalSubjectRecordId, by simp [hrow, owner, henvironment]⟩
  · rintro ⟨subject, howner⟩
    obtain ⟨row, hrow, heq⟩ := Option.map_eq_some_iff.mp howner
    simp only [owner, Prod.mk.injEq] at heq
    exact ⟨row, hrow, heq.1, heq.2.1, rfl⟩

lemma Kept.map_owner (h : Kept s t) {id : String} {o : String × Option String × Option String}
    (ho : (s.consent.execution id).map owner = some o) :
    (t.consent.execution id).map owner = some o := by
  obtain ⟨row, hrow, rfl⟩ := Option.map_eq_some_iff.mp ho
  obtain ⟨row', hrow', hworkspace, henvironment, hsubject⟩ := h.execution hrow
  simp [hrow', owner, hworkspace, henvironment, hsubject]

/-- Such changes keep every execution, whoever else writes. -/
lemma Kept.lift {change : Consent.Store → Consent.Store}
    (hchange : KeepsOwners executionId e change)
    (hs : (s.consent.execution executionId).map owner = some (owner e)) :
    Kept s (consentPart.lift change s) := by
  refine ⟨fun {id row} h => ?_, fun h => ⟨_, h, rfl⟩, fun h => ⟨_, h, rfl, rfl⟩⟩
  have howner := hchange s.consent hs id
  rw [h, Option.map_some, Option.map_eq_some_iff] at howner
  obtain ⟨row', hrow', heq⟩ := howner
  simp only [owner, Prod.mk.injEq] at heq
  exact ⟨row', hrow', heq⟩

lemma Inserts.lift {change : Consent.Store → Consent.Store}
    (hchange : KeepsOwners executionId e change)
    (hs : (s.consent.execution executionId).map owner = some (owner e)) :
    Inserts held s (consentPart.lift change s) := by
  refine ⟨fun {id} hnone hsome => absurd ?_ hsome, fun hnone hsome => absurd hnone hsome,
    fun hnone hsome => absurd hnone hsome⟩
  have howner := hchange s.consent hs id
  rw [hnone, Option.map_none, Option.map_eq_none_iff] at howner
  exact howner

/-- The cancellation within a call: `some` is answered only for an execution of the workspace and
the environment. -/
lemma wp_cancelExecution {α : Type} {workspaceId environmentId : String} {cancelledAt : ℕ}
    {next : Option Execution → Program α}
    {post : Set Lock → (Store → Store) → (Store → Prop) → α → Prop}
    (h : Drafting setting calls call (some (call.reservation setting)) none held
      (Store.setRecord call.slot (some (call.reservation setting))) known)
    (hnone : ∀ held' pending' known',
      Drafting setting calls call (some (call.reservation setting)) none held' pending' known' →
      (∀ t id, known' t → ((pending' t).consent.execution id).map owner =
        (t.consent.execution id).map owner) →
      wpCall setting calls c (next none) held' pending' known' post)
    (hsome : ∀ execution held' pending' known',
      Drafting setting calls call (some (call.reservation setting)) none held' pending' known' →
      (∀ t, known' t →
        (getPublicExecution workspaceId environmentId none executionId (pending' t)).isSome) →
      wpCall setting calls c (next (some execution)) held' pending' known' post) :
    wpCall setting calls c (Tx.within consentPart (Consent.cancelExecutionWithPendingApproval
      workspaceId environmentId executionId cancelledAt) >>= next) held
      (Store.setRecord call.slot (some (call.reservation setting))) known post := by
  refine Discipline.wp_bind.mpr ?_
  simp only [Consent.cancelExecutionWithPendingApproval]
  rw [Tx.within_bind]
  refine Discipline.wp_lock_bind fun s₁ held₁ known₁ _ _ hsub₁ _ hknown₁ => ?_
  rw [Tx.within_bind]
  refine Discipline.wp_select_bind fun s₂ known₂ _ _ hknown₂ => ?_
  rw [Tx.within_bind]
  refine Discipline.wp_lock_bind fun s₃ held₃ known₃ _ _ hsub₃ _ hknown₃ => ?_
  split
  · exact Discipline.wp_halt.mpr (permitted (by decide))
  rw [Tx.within_bind]
  refine Discipline.wp_lock_bind fun s₄ held₄ known₄ _ _ hsub₄ _ hknown₄ => ?_
  have hdrafting := (h.mono (hsub₁.trans (hsub₃.trans hsub₄)) fun t ht =>
    (hknown₁ t (hknown₂ t (hknown₃ t (hknown₄ t ht).1).1).1).1)
  split
  · exact Discipline.wp_pure.mpr (hnone _ _ _ hdrafting fun _ _ _ => rfl)
  · rename_i execution hfound
    obtain ⟨e, he, hcancelled⟩ := Option.bind_eq_some_iff.mp hfound
    have he : s₄.consent.execution executionId = some e := he
    split at hcancelled
    · rename_i hworkspace
      obtain ⟨⟨henvironment, -⟩, rfl⟩ := Execution.cancelExecution_some hcancelled
      have howner : ∀ t, known₄ t →
          (t.consent.execution executionId).map owner = some (owner e) := fun t ht =>
        (Rely.keeps (hknown₄ t ht).2).map_owner (by rw [he]; rfl)
      have hbase : Store.setRecord call.slot (some (call.reservation setting)) = fun s =>
          consentPart.lift id (Store.setRecord call.slot (some (call.reservation setting)) s) := rfl
      have hunchanged : KeepsOwners executionId e id := fun _ _ _ => rfl
      refine Discipline.wp_bind.mp (Discipline.wp_within_bind (?_ : OwnersKept executionId e _)
        (fun hf hg => hf.comp hg) (fun _ _ => rfl) (fun _ _ _ => rfl) hunchanged hbase ?_)
      · refine Tx.Confined.bind ownersKept_cancelIntents fun intents => ?_
        split
        · exact Tx.Confined.pure
        refine Tx.Confined.bind (Tx.Confined.update (keepsOwners_setExecution rfl)) fun _ => ?_
        split
        · refine Tx.Confined.bind Tx.Confined.selectForUpdate fun cancelled => ?_
          cases cancelled with
          | none => exact Tx.Confined.halt (by decide)
          | some request =>
            refine Tx.Confined.bind (Tx.Confined.update (keepsOwners_of_eq fun _ => rfl)) fun _ => ?_
            exact Tx.Confined.bind ownersKept_publishRequestEvent fun _ => Tx.Confined.pure
        · exact Tx.Confined.pure
      · intro answer held' known' change hchange hsub hknown'
        have hlater : Drafting setting calls call (some (call.reservation setting)) none held'
            (fun s => consentPart.lift change
              (Store.setRecord call.slot (some (call.reservation setting)) s)) known' := by
          refine ⟨hsub hdrafting.lock, fun t ht => hdrafting.free t (hknown' t ht), ?_⟩
          intro t hinv ht
          have hown := howner t (hknown' t ht)
          exact ((hdrafting.draft t hinv (hknown' t ht)).mono hsub).write subset_rfl
            (Kept.lift hchange hown) (Inserts.lift hchange hown) rfl rfl rfl rfl
        have hsame : ∀ t id, known' t →
            ((change t.consent).execution id).map owner = (t.consent.execution id).map owner :=
          fun t id ht => hchange t.consent (howner t (hknown' t ht)) id
        cases answer with
        | none => exact hnone _ _ _ hlater hsame
        | some answer =>
          refine hsome answer _ _ _ hlater fun t ht => getPublicExecution_owner.mpr ?_
          refine ⟨e.externalSubjectRecordId, (hsame t executionId ht).trans ?_⟩
          rw [howner t (hknown' t ht), owner, hworkspace, henvironment]
    · cases hcancelled

end Cancel

/-! ## The operations -/

section Operations

lemma wp_resolveSubject {α : Type} {workspaceId environmentId externalSubjectId : String}
    {next : Option (EnvironmentName × String) → Program α}
    {post : Set Lock → (Store → Store) → (Store → Prop) → α → Prop}
    (h : ∀ identity known', (∀ t, known' t → known t) →
      wpCall setting calls c (next identity) held pending known' post) :
    wpCall setting calls c (resolveSubject workspaceId environmentId externalSubjectId >>= next)
      held pending known post := by
  refine Discipline.wp_bind.mpr (Discipline.wp_select_bind fun s known' _ _ hknown => ?_)
  have hnext := fun identity => h identity known' fun t ht => (hknown t ht).1
  split
  · exact hnext none
  · split
    · exact hnext none
    · split
      · exact hnext none
      · exact hnext _

/-- The writes of a start, before its record has the execution. -/
lemma Drafting.insertExecution {id : String} {row : Execution} {start : Start}
    {message : QueuedExecution}
    (h : Drafting setting calls call record none held pending known)
    (hlock : Lock.consent (.execution id) ∈ held)
    (hfree : ∀ t, known t → (pending t).consent.execution id = none)
    (hstart : start.slot = call.slot) (hmessage : message.slot = call.slot)
    (hid : message.executionId = id) :
    Drafting setting calls call record (some id) held
      (fun t => ((pending t).insertExecution id row start).queueExecution message) known := by
  refine ⟨h.lock, h.free, fun t hinv ht => ?_⟩
  have hdraft := h.draft t hinv ht
  have hkept : Kept (pending t) ((pending t).insertExecution id row start) :=
    Kept.insertExecution (hfree t ht)
  have hinserts : Inserts held (pending t) ((pending t).insertExecution id row start) :=
    Inserts.insertExecution hlock
  refine ⟨hdraft.kept.trans (hkept.trans (Kept.of_eq rfl rfl rfl)),
    hdraft.inserts.trans (hinserts.trans (Inserts.of_eq rfl rfl rfl)), hdraft.records,
    hdraft.answers,
    fun {id' start'} h' => ?_, .inr ⟨message, ?_, hmessage, congrArg some hid.symm⟩⟩
  · change Function.update (pending t).starts id (some start) id' = some start' at h'
    by_cases heq : id' = id
    · subst heq
      rw [Function.update_self, Option.some.injEq] at h'
      exact .inr ⟨h' ▸ hstart, rfl⟩
    · rw [Function.update_of_ne heq] at h'
      exact (hdraft.starts h').imp_right fun hnew => by cases hnew.2
  · change (pending t).queue ++ [message] = _
    refine congrArg (· ++ [message]) (hdraft.queue.resolve_right ?_)
    rintro ⟨_, -, -, hstarted⟩
    cases hstarted

/-- The writes of a message. -/
lemma Drafting.insertMessage {id : String} {row : ChatMessage} {updatedAt : ℕ}
    (h : Drafting setting calls call record started held pending known)
    (hlock : Lock.message id ∈ held) (hfree : ∀ t, known t → (pending t).messages.get? id = none) :
    Drafting setting calls call record started held
      (fun t => ((pending t).insertMessage id row).touchConversation row updatedAt) known := by
  have hinserted : Drafting setting calls call record started held
      (fun t => (pending t).insertMessage id row) known :=
    h.write (Store.insertMessage id row) (fun t ht => Kept.insertMessage (hfree t ht))
      (fun _ _ => Inserts.insertMessage hlock) (fun _ => rfl) (fun _ => rfl) (fun _ => rfl)
      fun _ => rfl
  exact hinserted.write (Store.touchConversation row updatedAt) (fun _ _ => Kept.touchConversation)
    (fun _ _ => Inserts.touchConversation) (fun _ => rfl) (fun _ => rfl) (fun _ => rfl) fun _ => rfl

variable (hdistinct : CollisionFree setting calls)
include hdistinct

lemma createPublicConversation_ends (hcall : call ∈ calls) {input : CreateConversationInput}
    (hslot : input.slot = call.slot)
    (hhash : input.requestHash = setting.hashPublicRequest call.request)
    (hfound : ∀ s resourceId, Found setting s call resourceId ↔
      (getPublicConversation input.workspaceId input.environmentId (some input.externalSubjectId)
        resourceId s).isSome) :
    wpCall setting calls c (createPublicConversation input) ∅ id (fun _ => True)
      (Ends setting calls call) := by
  simp only [createPublicConversation, hslot, hhash]
  refine wp_reserve hdistinct hcall (by rfl) (fun held known hlock hfree => ?_)
    fun held known resourceId hrecord hreplay => ?_
  · have hdrafting := drafting_reserved setting calls hlock hfree
    refine wp_resolveSubject fun identity known' hknown => ?_
    have hdrafting := hdrafting.mono subset_rfl hknown
    split
    · exact hdrafting.reject
    · rename_i environment _
      refine Discipline.wp_select_bind fun s known'' _ _ hknown => ?_
      have hdrafting := hdrafting.later subset_rfl hknown
      split
      · exact hdrafting.reject
      · refine Discipline.wp_bind.mpr (Discipline.wp_mono (wp_createConversation hdrafting)
          (fun _ ht => ht) ?_)
        rintro held' pending' known₁ known₂ result hknown ⟨hdrafting, hpresent⟩
        have hdrafting := hdrafting.mono subset_rfl hknown
        have hresource : ∀ id, result = .created id ∨ result = .existing id →
            ∀ t, Inv setting calls t → known₂ t → Found setting (pending' t) call id := by
          intro id hid t _ ht
          obtain ⟨row, hrow, hidentity⟩ := hpresent id hid t (hknown t ht)
          refine (hfound _ _).mpr (getPublicConversation_isSome.mpr ⟨row, hrow, ?_⟩)
          rw [hidentity]
          simp
        cases result with
        | created id =>
          exact hdrafting.finalize (fun _ h => by cases h) (hresource id (.inl rfl)) rfl
        | existing id => exact hdrafting.finalize (fun _ h => by cases h) (hresource id (.inr rfl)) rfl
        | identityInvalid => exact hdrafting.reject
        | conversationIdentityConflict => exact hdrafting.reject
  · exact wp_replay (fun s => (hfound s resourceId).mp) (fun _ => rfl) rfl hrecord hreplay

lemma startPublicExecution_ends (hcall : call ∈ calls) {input : StartExecutionInput}
    (hslot : input.slot = call.slot)
    (hhash : input.requestHash = setting.hashPublicRequest call.request)
    (hfound : ∀ s resourceId, Found setting s call resourceId ↔
      (getPublicExecution input.workspaceId input.environmentId (some input.externalSubjectId)
        resourceId s).isSome) :
    wpCall setting calls c (startPublicExecution setting input) ∅ id (fun _ => True)
      (Ends setting calls call) := by
  simp only [startPublicExecution, hslot, hhash]
  refine wp_reserve hdistinct hcall (by rfl) (fun held known hlock hfree => ?_)
    fun held known resourceId hrecord hreplay => ?_
  · have hdrafting := drafting_reserved setting calls hlock hfree
    refine wp_resolveSubject fun identity known' hknown => ?_
    have hdrafting := hdrafting.mono subset_rfl hknown
    split
    · exact hdrafting.reject
    · refine Discipline.wp_select_bind fun s known'' _ _ hknown => ?_
      have hdrafting := hdrafting.later subset_rfl hknown
      split
      · exact hdrafting.reject
      · refine Discipline.wp_select_bind fun s known'' _ _ hknown => ?_
        have hdrafting := hdrafting.later subset_rfl hknown
        split
        · exact hdrafting.reject
        · refine Discipline.wp_select_bind fun s known'' _ _ hknown => ?_
          have hdrafting := hdrafting.later subset_rfl hknown
          split
          · exact hdrafting.reject
          · split
            · exact Discipline.wp_halt.mpr (permitted (by decide))
            · exact hdrafting.reject
            · refine Discipline.wp_bind.mpr (Discipline.wp_receiving_bind fun reply => ?_)
              refine Discipline.wp_lockSlot_bind fun s held' known' _ hs hsub hlocked hknown => ?_
              have hdrafting := hdrafting.later hsub hknown
              split
              · exact Discipline.wp_halt.mpr (permitted (by decide))
              · rename_i hunused
                have hunused : s.consent.executions reply.id = none :=
                  Option.not_isSome_iff_eq_none.mp hunused
                have hlock := hlocked hunused
                have hnone : s.consent.execution reply.id = none := by
                  rw [Consent.Store.execution, hunused]
                  rfl
                refine Discipline.wp_update_bind (Discipline.wp_pure.mpr ?_)
                refine Discipline.wp_update_bind ?_
                refine (hdrafting.insertExecution hlock (fun t ht =>
                  Rely.noExecution (hknown t ht).2 hlock hnone) hslot rfl rfl).finalize
                  (fun id h => (Option.some.inj h).symm) (fun t _ _ => ?_) rfl
                refine (hfound _ _).mpr (getPublicExecution_isSome.mpr ?_)
                simp [Consent.Store.execution, Store.queueExecution, Store.insertExecution]
  · exact wp_replay (fun s => (hfound s resourceId).mp) (fun _ => rfl) rfl hrecord hreplay

lemma cancelPublicExecution_ends (hcall : call ∈ calls) {input : CancelExecutionInput}
    (hslot : input.slot = call.slot)
    (hhash : input.requestHash = setting.hashPublicRequest call.request)
    (hfound : ∀ s resourceId, Found setting s call resourceId ↔
      (getPublicExecution input.workspaceId input.environmentId none resourceId s).isSome) :
    wpCall setting calls c (cancelPublicExecution input) ∅ id (fun _ => True)
      (Ends setting calls call) := by
  simp only [cancelPublicExecution, hslot, hhash]
  refine wp_reserve hdistinct hcall (by rfl) (fun held known hlock hfree => ?_)
    fun held known resourceId hrecord hreplay => ?_
  · have hdrafting := drafting_reserved setting calls hlock hfree
    refine Discipline.wp_receiving_bind fun reply => ?_
    refine wp_cancelExecution hdrafting (fun held' pending' known' hdrafting hsame => ?_)
      fun execution held' pending' known' hdrafting hpresent => ?_
    · refine Discipline.wp_select_bind fun s known'' _ hs hknown => ?_
      have hlater := hdrafting.later subset_rfl hknown
      split
      · exact hlater.reject
      · rename_i existing hexisting
        split
        · refine hlater.finalize (fun _ h => by cases h) (fun t _ ht => ?_) rfl
          have hsome := getPublicExecution_owner.mp (Option.isSome_iff_exists.mpr ⟨_, hexisting⟩)
          obtain ⟨subject, hsubject⟩ := hsome
          rw [hsame s _ hs] at hsubject
          refine (hfound _ _).mpr (getPublicExecution_owner.mpr ⟨subject, ?_⟩)
          rw [hsame t _ (hknown t ht).1]
          exact (Rely.keeps (hknown t ht).2).map_owner hsubject
        · exact hlater.reject
    · refine Discipline.wp_update_bind ((hdrafting.write (Store.insertAuditLog _)
        (fun _ _ => Kept.of_eq rfl rfl rfl) (fun _ _ => Inserts.of_eq rfl rfl rfl) (fun _ => rfl)
        (fun _ => rfl) (fun _ => rfl) fun _ => rfl).finalize (fun _ h => by cases h)
        (fun t _ ht => ?_) rfl)
      exact (hfound _ _).mpr (hpresent t ht)
  · exact wp_replay (fun s => (hfound s resourceId).mp) (fun _ => rfl) rfl hrecord hreplay

lemma createPublicMessage_ends (hcall : call ∈ calls) {input : CreateMessageInput}
    (hslot : input.slot = call.slot)
    (hhash : input.requestHash = setting.hashPublicRequest call.request)
    (hfound : ∀ s resourceId, Found setting s call resourceId ↔
      (getPublicMessage input.workspaceId input.conversationId resourceId s).isSome) :
    wpCall setting calls c (createPublicMessage input) ∅ id (fun _ => True)
      (Ends setting calls call) := by
  simp only [createPublicMessage, hslot, hhash]
  refine wp_reserve hdistinct hcall (by rfl) (fun held known hlock hfree => ?_)
    fun held known resourceId hrecord hreplay => ?_
  · have hdrafting := drafting_reserved setting calls hlock hfree
    refine Discipline.wp_select_bind fun s known'' _ _ hknown => ?_
    have hdrafting := hdrafting.later subset_rfl hknown
    split
    · exact hdrafting.reject
    · refine Discipline.wp_bind.mpr (Discipline.wp_receiving_bind fun reply =>
        Discipline.wp_receiving_bind fun reply' => ?_)
      refine Discipline.wp_lockSlot_bind fun s held' known' _ _ hsub _ hknown => ?_
      have hdrafting := hdrafting.later hsub hknown
      split
      · exact Discipline.wp_halt.mpr (permitted (by decide))
      · refine Discipline.wp_lockSlot_bind fun s held'' known'' _ hs hsub hlocked hknown => ?_
        have hdrafting := hdrafting.later hsub hknown
        split
        · exact Discipline.wp_halt.mpr (permitted (by decide))
        · rename_i hunused
          have hunused : s.messages.get? reply.id = none := Option.not_isSome_iff_eq_none.mp hunused
          have hlock := hlocked hunused
          refine Discipline.wp_update_bind (Discipline.wp_receiving_bind fun later => ?_)
          refine Discipline.wp_update_bind (Discipline.wp_pure.mpr ?_)
          refine (hdrafting.insertMessage hlock fun t ht =>
            Rely.noMessage (hknown t ht).2 hlock hunused).finalize (fun _ h => by cases h)
            (fun t _ _ => ?_) rfl
          refine (hfound _ _).mpr (getPublicMessage_isSome.mpr ?_)
          simp [Store.touchConversation, Store.insertMessage, OrderedMap.get?_set_self]
  · exact wp_replay (fun s => (hfound s resourceId).mp) (fun _ => rfl) rfl hrecord hreplay

end Operations

/-! ## Runs -/

section Runs
variable {sys : System Store Lock Client Reply} {store : Store}

lemma perform_ends
    (hdistinct : CollisionFree setting calls)
    (hcall : call ∈ calls) :
    wpCall setting calls c (call.perform setting) ∅ id (fun _ => True)
      (Ends setting calls call) := by
  obtain ⟨actor, idempotencyKey, request⟩ := call
  cases request with
  | createConversation =>
    exact createPublicConversation_ends hdistinct hcall rfl rfl fun _ _ => Iff.rfl
  | startExecution => exact startPublicExecution_ends hdistinct hcall rfl rfl fun _ _ => Iff.rfl
  | cancelExecution => exact cancelPublicExecution_ends hdistinct hcall rfl rfl fun _ _ => Iff.rfl
  | createMessage => exact createPublicMessage_ends hdistinct hcall rfl rfl fun _ _ => Iff.rfl

lemma transact_keeps
    (hdistinct : CollisionFree setting calls)
    (hcall : call ∈ calls) :
    wpCall setting calls c (call.transact setting) ∅ id (fun _ => True) fun _ _ _ _ => True := by
  refine Discipline.wp_transaction.mpr (Discipline.wp_bind.mpr (Discipline.wp_mono
    (perform_ends hdistinct hcall) (fun _ ht => ht) ?_))
  intro held pending known known' outcome hknown hends
  refine Discipline.wp_update.mpr fun s hinv hs => ⟨?_, trivial⟩
  exact (hends s hinv (hknown s hs)).move hcall hinv

/-- A transaction of another part of the program. -/
lemma Foreign.move {locks : List Lock} {f : Store → Store} (h : Foreign locks f)
    (hlocks : ∀ k ∈ locks, k ∈ held) (hinv : Inv setting calls s) :
    Move setting calls held s (f s) := by
  refine ⟨h.kept s, (h.inserts s).mono hlocks, fun slot => .inl (congrFun (h.records s) slot),
    fun hrecord => ?_, ?_, ?_, fun hstart => ?_, ?_, ?_⟩
  · rw [h.records] at hrecord
    obtain ⟨call, hcall, resourceId, hslot, hvalue, hfound⟩ := hinv.record hrecord
    exact ⟨call, hcall, resourceId, hslot, hvalue, hfound.kept (h.kept s)⟩
  · rw [h.answers]
    intro answer hanswer
    refine (hinv.answer answer hanswer).mono fun hrecord => ?_
    rw [h.records]
    exact hrecord
  · rw [h.answers]
    exact hinv.order
  · rw [h.starts] at hstart
    rw [h.records]
    exact hinv.start hstart
  · rw [h.queue, h.records]
    exact hinv.queued
  · rw [h.queue]
    exact hinv.queue

lemma foreign_keeps {locks : List Lock} {f : Store → Store} (h : Foreign locks f) :
    wpCall setting calls c (foreignProgram locks f) ∅ id (fun _ => True) fun _ _ _ _ => True := by
  refine Discipline.wp_transaction.mpr (Discipline.wp_lock_bind fun _ held known _ _ _ hlocks _ => ?_)
  exact Discipline.wp_update.mpr fun s hinv _ => ⟨h.move hlocks hinv, trivial⟩

/-- A store in which no call has been made. -/
structure Fresh (s : Store) : Prop where
  records : ∀ slot, s.records slot = none
  answers : s.answers = []
  starts : ∀ id, s.starts id = none
  queue : s.queue = []

lemma Fresh.inv (h : Fresh s) : Inv setting calls s := by
  refine ⟨fun hrecord => ?_, ?_, ?_, fun hstart => ?_, ?_, ?_⟩
  · rw [h.records] at hrecord
    cases hrecord
  · simp [h.answers]
  · simp [h.answers]
  · rw [h.starts] at hstart
    cases hstart
  · simp [h.queue]
  · simp [h.queue]

/-- Whatever calls are made, at the same time or one after the other, with crashes anywhere, and
whatever other transactions run that keep the rows: a key that has answered with a resource answers
the same request with it again and another request with a conflict, and the execution it has started
is the one that its record names and that is queued, once. -/
theorem same_key_same_resource (hstore : Fresh store)
    (hdistinct : CollisionFree setting calls)
    (h : System.Reachable (admits setting calls) store sys) :
    sys.store.answers.Pairwise (Binds setting) ∧
      (∀ slot record, sys.store.records slot = some record → ∃ call ∈ calls, ∃ resourceId,
        call.slot = slot ∧ record = ⟨setting.hashPublicRequest call.request, some resourceId⟩ ∧
          Found setting sys.store call resourceId) ∧
      (∀ id start, sys.store.starts id = some start → ∃ requestHash,
        sys.store.records start.slot = some ⟨requestHash, some id⟩) ∧
      (sys.store.queue.map QueuedExecution.slot).Nodup ∧
      (∀ message ∈ sys.store.queue, ∃ requestHash,
        sys.store.records message.slot = some ⟨requestHash, some message.executionId⟩) ∧
      ∀ c thread message, sys.threads c = some thread → thread.program = .halt message →
        message ∉ impossible := by
  have hkeeps : (discipline setting calls).Keeps (admits setting calls) := by
    rintro c program (⟨call, hcall, rfl⟩ | ⟨locks, f, hforeign, rfl⟩)
    · exact transact_keeps hdistinct hcall
    · exact foreign_keeps hforeign
  have hsound := Discipline.sound_of_reachable hkeeps hstore.inv h
  exact ⟨hsound.inv.order, fun slot record => hsound.inv.record, fun id start => hsound.inv.start,
    hsound.inv.queue, hsound.inv.queued,
    fun c thread message hthread hhalt => hsound.permits hthread hhalt⟩

end Runs

section Example

def startCall (workflowId : String) : Call :=
  ⟨⟨.environmentKey, "key"⟩, "retry", .startExecution "subject" workflowId none .null⟩

def startSetting : Setting where
  hashPublicRequest
    | .startExecution _ workflowId _ _ => workflowId
    | _ => ""
  validate _ _ := some true
  principal _ := ⟨"workspace", "environment", "subject"⟩

def publishedStore : Store where
  consent :=
    { subjects := fun _ => some ⟨"workspace", .verified⟩
      environments := fun _ => some ⟨"workspace", true, []⟩
      connections := fun _ => none
      memberships := fun _ => some "workspace"
      grants := fun _ => []
      reviewers := fun _ => []
      sessions := fun _ => none
      executions := fun _ => none
      requests := .empty
      intents := .empty
      decisionKeys := fun _ => none
      answers := []
      readings := [] }
  issuerSubjects _ := some "issuer"
  environmentColumns _ := ⟨.production, "application"⟩
  workflows _ := some ⟨"workspace", "application", none⟩
  bindings _ := some ⟨"workspace", "version", "revision", true, true, true⟩
  versions _ := some ⟨"workflow", some "revision", some 1⟩
  revisions _ := some ⟨"workflow", .null⟩
  conversations := .empty
  messages := .empty
  starts _ := none
  queue := []
  auditLogs := []
  records _ := none
  answers := []

def calling (c : Client) (call : Call) (steps : ℕ) : List (Act Store Lock Client Reply) :=
  .start c (call.transact startSetting) ::
    List.replicate steps (.advance c ⟨5, "execution", "", true, none, none, .ok .null, false⟩)

/-- A start, the same start again, and another workflow under the same key. -/
def retriedRun : List (Act Store Lock Client Reply) :=
  calling 0 (startCall "workflow") 14 ++ calling 1 (startCall "workflow") 5 ++
    calling 2 (startCall "other") 4

theorem retried_same_resource : ∃ sys, Fresh publishedStore ∧
    System.Reachable (admits startSetting {startCall "workflow", startCall "other"})
      publishedStore sys ∧
    sys.store.answers.map Answer.outcome =
      [.created "execution", .replay "execution", .idempotencyConflict] ∧
    sys.store.answers.Pairwise (Binds startSetting) := by
  have hfresh : Fresh publishedStore := ⟨fun _ => rfl, rfl, fun _ => rfl, rfl⟩
  have hdistinct : CollisionFree startSetting {startCall "workflow", startCall "other"} := by
    rintro call (rfl | rfl) call' (rfl | rfl) h
    · rfl
    · exact absurd h (by decide)
    · exact absurd h (by decide)
    · rfl
  have hacts : ∀ act ∈ retriedRun,
      act.Admitted (admits startSetting {startCall "workflow", startCall "other"}) := by
    simp [retriedRun, calling, Act.Admitted, admits]
  have hrun : (((System.idle publishedStore).run retriedRun).any fun sys =>
      decide (sys.store.answers.map Answer.outcome =
        [.created "execution", .replay "execution", .idempotencyConflict])) = true := by
    decide +kernel
  obtain ⟨sys, hsys, houtcomes⟩ := (Option.any_eq_true _ _).mp hrun
  have hreaches := System.Reachable.start.run hacts hsys
  exact ⟨sys, hfresh, hreaches, of_decide_eq_true houtcomes,
    (same_key_same_resource hfresh hdistinct hreaches).1⟩

end Example
end Linea.PublicRuntime
