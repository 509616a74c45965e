import Linea.ConsentEndings

/-! The cancellation of intents together with their requests. It is a part of other transactions:
what it does to the two tables is said apart from what else they write. -/
namespace Linea.Consent
variable {setting : Setting} {c : Client} {held held' : Set Lock} {known known' : Store → Prop}
  {pending pending' : Store → Store} {β : Type}
  {post : Set Lock → (Store → Store) → (Store → Prop) → β → Prop} {s t : Store}

section Tables

/-- A request is kept, or cancelled while it is pending. -/
def KeptOrCancelled (held : Set Lock) (id : String) (old new : Option RequestRecord) : Prop :=
  new = old ∨ ∃ q now, old = some q ∧ .request id ∈ held ∧ q.row.status = .pending ∧
    new = some (q.cancel now)

theorem KeptOrCancelled.move {id : String} {old new : Option RequestRecord}
    (h : KeptOrCancelled held id old new) : RequestMove held id old new := by
  rcases h with rfl | ⟨q, now, rfl, hheld, hstatus, rfl⟩
  · exact .keep
  · exact .cancel now hheld hstatus

theorem KeptOrCancelled.decisions {id : String} {old new : Option RequestRecord} {q : RequestRecord}
    (h : KeptOrCancelled held id old new) (hq : new = some q) :
    ∃ q₀, old = some q₀ ∧ q.decisions = q₀.decisions := by
  rcases h with rfl | ⟨q₀, now, rfl, _, _, rfl⟩
  · exact ⟨q, hq, rfl⟩
  · cases hq
    exact ⟨q₀, rfl, rfl⟩

theorem KeptOrCancelled.mono {id : String} {old new : Option RequestRecord}
    (h : KeptOrCancelled held id old new) (hsub : held ⊆ held') :
    KeptOrCancelled held' id old new := by
  rcases h with rfl | ⟨q, now, hold, hheld, hstatus, hnew⟩
  · exact .inl rfl
  · exact .inr ⟨q, now, hold, hsub hheld, hstatus, hnew⟩

/-- What a cancellation leaves of the tables of intents and requests. -/
structure Cancelled (setting : Setting) (c : Client) (held : Set Lock) (s : Store)
    (intents : OrderedMap String IntentRecord) (requests : OrderedMap String RequestRecord) :
    Prop where
  moves : ∀ i, IntentMove setting c held s i (s.intent i) (intents.get? i)
  absent : ∀ i, s.intent i = none → intents.get? i = none
  keeps : ∀ r, KeptOrCancelled held r (s.request r) (requests.get? r)

theorem Cancelled.refl : Cancelled setting c held s s.intents s.requests where
  moves := fun _ => IntentMove.refl _
  absent := fun _ h => h
  keeps := fun _ => .inl rfl

theorem IntentStep.mono {id : String} {r r' : IntentRecord} (h : IntentStep setting c held s id r r')
    (hsub : held ⊆ held') : IntentStep setting c held' s id r r' := by
  cases h with
  | fact fact hfact => exact .fact fact hfact
  | ready now hheld hstatus => exact .ready now (hsub hheld) hstatus
  | claim attempt now hheld hstatus hlease hdecided =>
    exact .claim attempt now (hsub hheld) hstatus hlease hdecided
  | dispatch input hheld hstatus hclaim hconsent hstrict =>
    exact .dispatch input (hsub hheld) hstatus hclaim hconsent hstrict
  | call call hdispatch hclient hnew hparameters hkey hdigest =>
    exact .call call hdispatch hclient hnew hparameters hkey hdigest
  | settle row event fact hheld hstatus hinvocation hstarted hcount hfact hevent =>
    exact .settle row event fact (hsub hheld) hstatus hinvocation hstarted hcount hfact hevent
  | withdraw row fact hheld hstatus hinvocation hstarted hcount hfact hevent =>
    exact .withdraw row fact (hsub hheld) hstatus hinvocation hstarted hcount hfact hevent

theorem IntentMove.mono {id : String} {old new : Option IntentRecord}
    (h : IntentMove setting c held s id old new) (hsub : held ⊆ held') :
    IntentMove setting c held' s id old new := by
  cases h with
  | absent => exact .absent
  | create r hheld hslot hfree hstatus hnew hfacts hcanonical =>
    exact .create r (hsub hheld) (hsub hslot) hfree hstatus hnew hfacts hcanonical
  | steps hsteps =>
    exact .steps (Relation.ReflTransGen.mono (fun _ _ hstep => IntentStep.mono hstep hsub) _ _ hsteps)

theorem RequestMove.mono {id : String} {old new : Option RequestRecord}
    (h : RequestMove held id old new) (hsub : held ⊆ held') : RequestMove held' id old new := by
  cases h with
  | keep => exact .keep
  | create row hheld hstatus hcancelled => exact .create row (hsub hheld) hstatus hcancelled
  | decide decision hheld hstatus => exact .decide decision (hsub hheld) hstatus
  | cancel now hheld hstatus => exact .cancel now (hsub hheld) hstatus

theorem ExecutionMove.mono {id : String} {old new : Option ExecutionRecord}
    (h : ExecutionMove held id old new) (hsub : held ⊆ held') : ExecutionMove held' id old new := by
  cases h with
  | keep => exact .keep
  | create e hheld hlease => exact .create e (hsub hheld) hlease
  | change row hheld hlease => exact .change row (hsub hheld) hlease
  | lease row attempt hheld hnew hlease => exact .lease row attempt (hsub hheld) hnew hlease

theorem Cancelled.mono {intents : OrderedMap String IntentRecord}
    {requests : OrderedMap String RequestRecord}
    (h : Cancelled setting c held s intents requests) (hsub : held ⊆ held') :
    Cancelled setting c held' s intents requests :=
  ⟨fun i => (h.moves i).mono hsub, h.absent, fun r => (h.keeps r).mono hsub⟩

/-- The writes `pending'` are those of `pending` and a cancellation. -/
def Cancels (setting : Setting) (c : Client) (held : Set Lock) (known : Store → Prop)
    (pending pending' : Store → Store) : Prop :=
  ∀ s, Inv setting s → known s → ∃ intents requests,
    pending' s = { pending s with intents := intents, requests := requests } ∧
      Cancelled setting c held s intents requests

/-- Writes that leave intents and requests alone. -/
def Apart (pending : Store → Store) : Prop :=
  ∀ s, (pending s).intents = s.intents ∧ (pending s).requests = s.requests

theorem apart_id : Apart id := fun _ => ⟨rfl, rfl⟩

theorem Apart.intent (h : Apart pending) (i : String) : (pending s).intent i = s.intent i :=
  congrArg (fun m => m.get? i) (h s).1

theorem Apart.request (h : Apart pending) (r : String) : (pending s).request r = s.request r :=
  congrArg (fun m => m.get? r) (h s).2

theorem Cancels.refl (h : Apart pending) : Cancels setting c held known pending pending := by
  intro s _ _
  refine ⟨s.intents, s.requests, ?_, Cancelled.refl⟩
  rw [← (h s).1, ← (h s).2]

/-- A cancellation with no other writes, in a store whose executions move as they may. -/
theorem Cancelled.move {intents : OrderedMap String IntentRecord}
    {requests : OrderedMap String RequestRecord} {executions : String → Option ExecutionRecord}
    (h : Cancelled setting c held s intents requests)
    (hexecutions : ∀ e, ExecutionMove held e (s.executions e) (executions e)) :
    Move setting c held s
      { s with executions := executions, intents := intents, requests := requests } := by
  refine Move.ofTables hexecutions (fun r => (h.keeps r).move) h.moves ?_ (fun _ _ h => .inl h)
    (fun _ _ _ => rfl) (fun _ h => h) (.inl rfl) ?_ (fun _ h => h) fun _ h => .inl h
  · intro i j r r' hi _ hr _
    rw [h.absent i hi] at hr
    cases hr
  · intro r q q' d hq hq' hd hnew
    obtain ⟨q₀, hq₀, hsame⟩ := (h.keeps r).decisions hq'
    rw [hq, Option.some.injEq] at hq₀
    subst hq₀
    exact absurd (hsame ▸ hd) hnew

end Tables

section Facts

/-- One fact about each of several intents. -/
def Store.withFacts (ids : List String) (fact : AuditFact) (s : Store) : Store :=
  { s with intents := s.intents.mapValues fun id record =>
      if id ∈ ids then record.withFact fact else record }

theorem mapValues_mapValues {κ ν : Type} (m : OrderedMap κ ν) (f g : κ → ν → ν) :
    (m.mapValues f).mapValues g = m.mapValues fun k v => g k (f k v) := by
  apply OrderedMap.ext
  simp only [OrderedMap.mapValues, List.map_map]
  rfl

theorem withFacts_nil (fact : AuditFact) : s.withFacts [] fact = s := by
  simp [Store.withFacts, OrderedMap.mapValues]

theorem setIntent_withFacts {id : String} {ids : List String} {fact : AuditFact} (h : id ∉ ids) :
    (s.setIntent id (.withFact fact)).withFacts ids fact = s.withFacts (id :: ids) fact := by
  have hvalues : ∀ k (record : IntentRecord),
      (if k ∈ ids then (if k = id then record.withFact fact else record).withFact fact
        else if k = id then record.withFact fact else record) =
      if k ∈ id :: ids then record.withFact fact else record := by
    intro k record
    by_cases hid : k = id
    · subst hid
      simp [h]
    · simp [hid]
  simp only [Store.setIntent, Store.withFacts, mapValues_mapValues, hvalues]

theorem recordCancellations_bind {now : ℕ} {next : Unit → Program β}
    {intents : List (String × ActionIntent)} (hnodup : (intents.map Prod.fst).Nodup)
    (h : ∀ known', (∀ t, known' t → known t) →
      Wp setting c (next ()) held
        (fun s => (pending s).withFacts (intents.map Prod.fst) ⟨.cancelled, now, none, none⟩) known'
        post) :
    Wp setting c (recordCancellations now intents >>= next) held pending known post := by
  induction intents generalizing pending known with
  | nil =>
    have hnil := h known fun _ ht => ht
    simp only [List.map_nil, withFacts_nil] at hnil
    exact pure_bind_iff.mpr hnil
  | cons p rest ih =>
    rw [List.map_cons, List.nodup_cons] at hnodup
    refine bind_assoc_iff.mpr (recordActionIntentFact_bind fun known₁ hknown₁ => ?_)
    refine ih hnodup.2 fun known₂ hknown₂ => ?_
    have hrest := h known₂ fun t ht => hknown₁ t (hknown₂ t ht)
    simp only [List.map_cons, ← setIntent_withFacts hnodup.1] at hrest
    exact hrest

theorem recordApprovalCancellations_bind {next : Unit → Program β} {requests : List ApprovalRequest}
    (h : ∀ held' known', held ⊆ held' → (∀ t, known' t → known t) →
      Wp setting c (next ()) held' pending known' post) :
    Wp setting c (recordApprovalCancellations requests >>= next) held pending known post := by
  induction requests generalizing held known with
  | nil => exact pure_bind_iff.mpr (h held known subset_rfl fun _ ht => ht)
  | cons request rest ih =>
    have hrest : ∀ held₁ known₁, held ⊆ held₁ → (∀ t, known₁ t → known t) →
        Wp setting c (recordApprovalCancellations rest >>= next) held₁ pending known₁ post :=
      fun held₁ known₁ hsub₁ hknown₁ => ih fun held₂ known₂ hsub₂ hknown₂ =>
        h held₂ known₂ (hsub₁.trans hsub₂) fun t ht => hknown₁ t (hknown₂ t ht)
    refine bind_assoc_iff.mpr ?_
    unfold recordApprovalCancellation
    split
    · exact lockAudience_bind hrest
    · exact pure_bind_iff.mpr (hrest held known subset_rfl fun _ ht => ht)

end Facts

section Cancelling
variable {workspaceId : String} {scope : CancellationScope} {now : ℕ}

theorem scopedIntents_row {p : String × ActionIntent}
    (h : p ∈ s.scopedIntents workspaceId scope) : s.intentRow p.1 = some p.2 := by
  obtain ⟨hin, _⟩ := List.mem_filter.mp h
  obtain ⟨q, hq, rfl⟩ := List.mem_map.mp hin
  exact congrArg (Option.map IntentRecord.row) (OrderedMap.get?_iff_mem.mpr hq)

theorem scopedIntents_nodup : ((s.scopedIntents workspaceId scope).map Prod.fst).Nodup := by
  have hentries : ((s.intents.entries.map fun p => (p.1, p.2.row)).map Prod.fst).Nodup := by
    rw [List.map_map]
    exact s.intents.nodup
  exact hentries.sublist (List.Sublist.map _ List.filter_sublist)

theorem lockScopedIntents_bind {next : List (String × ActionIntent) → Program β}
    (hp : Apart pending)
    (h : ∀ s locked held' known', Inv setting s → held ⊆ held' →
      (locked.map Prod.fst).Nodup →
      (∀ p ∈ locked, s.intentRow p.1 = some p.2 ∧ .intent p.1 ∈ held') →
      (∀ t, known' t → known t ∧ Rely setting c held' s t) →
      Wp setting c (next locked) held' pending known' post) :
    Wp setting c (lockScopedIntents workspaceId scope >>= next) held pending known post := by
  refine bind_assoc_iff.mpr (select_bind fun s₀ known₀ _ _ hknown₀ => ?_)
  refine selectForUpdate_bind fun s known₁ hinv hs hknown₁ => ?_
  refine h s _ _ known₁ hinv Set.subset_union_left ?_ ?_ fun t ht => ?_
  · exact scopedIntents_nodup.sublist (List.Sublist.map _ List.filter_sublist)
  · intro p hp'
    obtain ⟨hin, hfound⟩ := List.mem_filter.mp hp'
    refine ⟨?_, Set.mem_union_right _ ?_⟩
    · have hrow := scopedIntents_row hin
      rw [Store.intentRow, hp.intent] at hrow
      exact hrow
    · obtain ⟨q, hq, hqp⟩ := List.mem_map.mp (of_decide_eq_true hfound)
      exact List.mem_map.mpr ⟨q, hq, congrArg Lock.intent hqp⟩
  · exact ⟨(hknown₀ t (hknown₁ t ht).1).1, (hknown₁ t ht).2⟩

/-- The requests that a cancellation locks are pending, and their ids are those it cancels. -/
theorem lockPending_locked {ids : List String} {p : String × ApprovalRequest} {s : Store}
    (h : p ∈ (ids.filterMap fun id => (s.requestRow id).map fun row => (id, row)).filter
      fun p => p.2.status = .pending) :
    .request p.1 ∈ ((presentRequests ids s).filter fun id =>
      (s.requestRow id).map ApprovalRequest.status = some .pending).map Lock.request := by
  obtain ⟨hin, hstatus⟩ := List.mem_filter.mp h
  obtain ⟨id, hid, hrow⟩ := List.mem_filterMap.mp hin
  obtain ⟨row, hrequest, rfl⟩ := Option.map_eq_some_iff.mp hrow
  refine List.mem_map.mpr ⟨id, List.mem_filter.mpr ⟨List.mem_filter.mpr ⟨hid, ?_⟩, ?_⟩, rfl⟩
  · obtain ⟨q, hq, _⟩ := Option.map_eq_some_iff.mp hrequest
    rw [hq]
    rfl
  · rw [hrequest]
    simpa using hstatus

/-- The rows of the intents were locked while they could be cancelled, those of the requests as
well; then this is what the writes come to. -/
theorem cancelled_of_locked {ids rids : List String} {now : ℕ}
    (hids : ∀ i ∈ ids, .intent i ∈ held ∧ ∃ row, s.intentRow i = some row ∧
      cancellable row = true)
    (hrids : ∀ r ∈ rids, .request r ∈ held) :
    Cancelled setting c held s
      ((s.cancelIntents ids now).withFacts ids ⟨.cancelled, now, none, none⟩).intents
      (s.cancelRequests rids now).requests where
  moves := by
    intro i
    simp only [Store.withFacts, Store.cancelIntents, OrderedMap.get?_mapValues]
    rw [show s.intents.get? i = s.intent i from rfl]
    cases hr : s.intent i with
    | none => exact .absent
    | some r =>
      by_cases hi : i ∈ ids
      · obtain ⟨hlock, row, hrow, hopen⟩ := hids i hi
        rw [Store.intentRow, hr, Option.map_some, Option.some.injEq] at hrow
        simp only [cancellable, decide_eq_true_eq] at hopen
        rw [Option.map_some, Option.map_some, if_pos hi, if_pos hi]
        refine .steps (.single (.withdraw _ _ hlock (hrow ▸ hopen) rfl rfl rfl rfl rfl))
      · rw [Option.map_some, Option.map_some, if_neg hi, if_neg hi]
        exact .steps .refl
  absent := by
    intro i hi
    simp only [Store.withFacts, Store.cancelIntents, OrderedMap.get?_mapValues]
    rw [show s.intents.get? i = none from hi]
    rfl
  keeps := by
    intro r
    simp only [Store.cancelRequests, OrderedMap.get?_mapValues]
    rw [show s.requests.get? r = s.request r from rfl]
    cases hq : s.request r with
    | none => exact .inl rfl
    | some q =>
      rw [Option.map_some]
      split
      · rename_i hcancel
        exact .inr ⟨q, now, rfl, hrids r hcancel.1, hcancel.2, rfl⟩
      · exact .inl rfl

theorem cancels_of_locked {ids rids : List String} {now : ℕ} (hp : Apart pending)
    (hids : ∀ s, known s → ∀ i ∈ ids, .intent i ∈ held ∧ ∃ row, s.intentRow i = some row ∧
      cancellable row = true)
    (hrids : ∀ r ∈ rids, .request r ∈ held) :
    Cancels setting c held known pending fun s =>
      ((((pending s).cancelIntents ids now).withFacts ids ⟨.cancelled, now, none, none⟩).cancelRequests
        rids now) := by
  intro s _ hs
  have hcancelled := @cancelled_of_locked setting c held s ids rids now (hids s hs) hrids
  refine ⟨_, _, ?_, hcancelled⟩
  simp only [Store.cancelRequests, Store.withFacts, Store.cancelIntents, (hp s).1, (hp s).2]

theorem cancelNonExecutingActionIntents_bind {next : CancellationResult → Program β}
    (hp : Apart pending)
    (h : ∀ result held' pending' known', held ⊆ held' → (∀ t, known' t → known t) →
      Cancels setting c held' known' pending pending' →
      Wp setting c (next result) held' pending' known' post) :
    Wp setting c (cancelNonExecutingActionIntents workspaceId scope now >>= next) held pending known
      post := by
  refine bind_assoc_iff.mpr (select_bind fun s₀ known₀ _ _ hknown₀ => ?_)
  split
  · exact pure_bind_iff.mpr
      (h _ held pending known₀ subset_rfl (fun t ht => (hknown₀ t ht).1) (Cancels.refl hp))
  refine bind_assoc_iff.mpr (selectForUpdate_bind fun s₁ known₁ _ _ hknown₁ => ?_)
  refine bind_assoc_iff.mpr (lockScopedIntents_bind hp
    fun s₂ locked held₂ known₂ hinv₂ hsub₂ hnodup hlocked hknown₂ => ?_)
  have hheld₂ : held ⊆ held₂ := Set.subset_union_left.trans hsub₂
  have hlearnt₂ : ∀ t, known₂ t → known t := fun t ht =>
    (hknown₀ t (hknown₁ t (hknown₂ t ht).1).1).1
  have hearly : ∀ result, Wp setting c (next result) held₂ pending known₂ post := fun result =>
    h result held₂ pending known₂ hheld₂ hlearnt₂ (Cancels.refl hp)
  dsimp only
  split
  · exact pure_bind_iff.mpr (hearly _)
  split
  · exact pure_bind_iff.mpr (hearly _)
  refine bind_assoc_iff.mpr (update_bind ?_)
  have hcancellables : ((locked.filter fun p => cancellable p.2).map Prod.fst).Nodup :=
    hnodup.sublist (List.Sublist.map _ List.filter_sublist)
  refine bind_assoc_iff.mpr (recordCancellations_bind hcancellables fun known₃ hknown₃ => ?_)
  refine bind_assoc_iff.mpr (selectForUpdate_bind fun s₄ known₄ _ _ hknown₄ => ?_)
  refine bind_assoc_iff.mpr (update_bind ?_)
  refine bind_assoc_iff.mpr (recordApprovalCancellations_bind fun held₅ known₅ hsub₅ hknown₅ => ?_)
  have hsub : held₂ ⊆ held₅ := Set.subset_union_left.trans hsub₅
  have hlearnt : ∀ t, known₅ t → known₂ t := fun t ht =>
    hknown₃ t (hknown₄ t (hknown₅ t ht)).1
  refine pure_bind_iff.mpr (h _ held₅ _ known₅ (hheld₂.trans hsub)
    (fun t ht => hlearnt₂ t (hlearnt t ht)) (cancels_of_locked hp (fun s hs i hi => ?_) fun r hr => ?_))
  · obtain ⟨p, hp', rfl⟩ := List.mem_map.mp hi
    obtain ⟨hin, hopen⟩ := List.mem_filter.mp hp'
    obtain ⟨hrow, hlock⟩ := hlocked p hin
    have hrely := (hknown₂ s (hlearnt s hs)).2
    exact ⟨hsub hlock, p.2, hrely.intentRow hlock hrow, hopen⟩
  · obtain ⟨p, hp', rfl⟩ := List.mem_map.mp hr
    exact hsub₅ (Set.mem_union_right _ (lockPending_locked hp'))

end Cancelling

section Executions

/-- Further requests are cancelled that are still pending. -/
theorem Cancelled.andRequests {intents : OrderedMap String IntentRecord}
    {requests : OrderedMap String RequestRecord} {rids : List String} {now : ℕ}
    (h : Cancelled setting c held s intents requests) (hrids : ∀ r ∈ rids, .request r ∈ held) :
    Cancelled setting c held s intents (requests.mapValues fun id record =>
      if id ∈ rids ∧ record.row.status = .pending then record.cancel now else record) := by
  refine ⟨h.moves, h.absent, fun r => ?_⟩
  rw [OrderedMap.get?_mapValues]
  rcases h.keeps r with hkept | ⟨q, before, hold, hheld, hstatus, hnew⟩
  · rw [hkept]
    cases hq : s.request r with
    | none => exact .inl rfl
    | some q =>
      rw [Option.map_some]
      split
      · rename_i hcancel
        exact .inr ⟨q, now, rfl, hrids r hcancel.1, hcancel.2, rfl⟩
      · exact .inl rfl
  · rw [hnew, Option.map_some, if_neg (fun hcancel => by cases hcancel.2)]
    exact .inr ⟨q, before, hold, hheld, hstatus, rfl⟩

theorem publishRequestEvent_bind {question : Question} {next : Unit → Program β}
    (h : ∀ held' known', held ⊆ held' → (∀ t, known' t → known t) →
      Wp setting c (next ()) held' pending known' post) :
    Wp setting c (publishRequestEvent question >>= next) held pending known post := by
  unfold publishRequestEvent
  split
  · exact pure_bind_iff.mpr (h held known subset_rfl fun _ ht => ht)
  · exact lockAudience_bind h
  · exact halt_bind (by decide)

/-- A row that was locked is set, with the lease given up or kept. -/
theorem setExecution_move {e : String} {row row' : Execution} (hlock : .execution e ∈ held)
    (hrow : s.execution e = some row) (hlease : row'.leasedBy = none ∨ row'.leasedBy = row.leasedBy) :
    ∀ k, ExecutionMove held k (s.executions k)
      (if k = e then (s.executions k).map (.withRow fun _ => row') else s.executions k) := by
  intro k
  split
  · rename_i hk
    subst hk
    obtain ⟨record, hrecord, rfl⟩ := Option.map_eq_some_iff.mp hrow
    rw [hrecord]
    exact .change row' hlock hlease
  · exact .keep

theorem Rely.execution_row {e : String} {row : Execution} (h : Rely setting c held s t)
    (hlock : .execution e ∈ held) (hrow : s.execution e = some row) : t.execution e = some row := by
  rw [Store.execution, h.execution hlock]
  exact hrow

theorem cancelExecutionWithPendingApproval_triple {pre : Store → Prop}
    {workspaceId environmentId executionId : String} {cancelledAt : ℕ} :
    Triple setting c pre
      (Tx.transaction
        (cancelExecutionWithPendingApproval workspaceId environmentId executionId cancelledAt))
      fun _ _ => True := by
  refine Discipline.Triple.transaction (selectForUpdate_bind fun s₀ known₀ _ _ hknown₀ => ?_)
  refine select_bind fun s₁ known₁ _ _ hknown₁ => ?_
  refine selectForUpdate_bind fun s₂ known₂ _ _ hknown₂ => ?_
  split
  · exact wp_halt_of (by decide)
  refine lockRow_bind ?_ ?_
  · intro s₃ known₃ _ _ _ _ s _ _
    exact ⟨Move.refl, fun _ _ => trivial⟩
  intro s₃ execution known₃ _ _ hexecution hknown₃
  obtain ⟨row, hrow, hcancel⟩ := Option.bind_eq_some_iff.mp hexecution
  have hreleased : execution.leasedBy = none := by
    split at hcancel
    · rw [(Execution.cancelExecution_some hcancel).2]
    · cases hcancel
  refine cancelNonExecutingActionIntents_bind apart_id
    fun result held₄ pending₄ known₄ hsub₄ hknown₄ hcancels => ?_
  have hlock : .execution executionId ∈ held₄ := hsub₄ (Set.mem_union_right _ rfl)
  have hrow₄ : ∀ s, known₄ s → s.execution executionId = some row := fun s hs =>
    (hknown₃ s (hknown₄ s hs)).2.execution_row (Set.mem_union_right _ rfl) hrow
  split
  · intro s hinv hs
    obtain ⟨intents, requests, hpending, hcancelled⟩ := hcancels s hinv hs
    rw [hpending]
    exact ⟨hcancelled.move fun _ => .keep, fun _ _ => trivial⟩
  refine update_bind ?_
  have hcommit : ∀ s, Inv setting s → known₄ s → Move setting c held₄ s
      ((pending₄ s).setExecution executionId (.withRow fun _ => execution)) := by
    intro s hinv hs
    obtain ⟨intents, requests, hpending, hcancelled⟩ := hcancels s hinv hs
    rw [hpending]
    exact hcancelled.move (setExecution_move hlock (hrow₄ s hs) (.inl hreleased))
  split
  · rename_i requestId _ _ _ _
    refine lockRow_bind ?_ ?_
    · intro s₅ known₅ _ _ _ _
      exact wp_halt_of (by decide)
    intro s₅ request known₅ _ _ _ hknown₅
    refine update_bind (publishRequestEvent_bind fun held₆ known₆ hsub₆ hknown₆ => ?_)
    intro s hinv hs
    have hs₄ := (hknown₅ s (hknown₆ s hs)).1
    obtain ⟨intents, requests, hpending, hcancelled⟩ := hcancels s hinv hs₄
    have hsub : held₄ ⊆ held₆ := Set.subset_union_left.trans hsub₆
    have hrequest : ∀ r ∈ [requestId], .request r ∈ held₆ := by
      intro r hr
      rw [List.mem_singleton] at hr
      subst hr
      exact hsub₆ (Set.mem_union_right _ rfl)
    have hmore := @Cancelled.andRequests setting c held₆ s intents requests [requestId] cancelledAt
      (hcancelled.mono hsub) hrequest
    refine ⟨?_, fun _ _ => trivial⟩
    change Move setting c held₆ s (((pending₄ s).setExecution executionId
      (.withRow fun _ => execution)).cancelRequests [requestId] cancelledAt)
    rw [hpending]
    exact hmore.move (setExecution_move (hsub hlock) (hrow₄ s hs₄) (.inl hreleased))
  · intro s hinv hs
    exact ⟨hcommit s hinv hs, fun _ _ => trivial⟩

end Executions
end Linea.Consent
