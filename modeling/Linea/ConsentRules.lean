import Linea.ConsentStable

/-! A rule for each statement of the consent programs. A rule hands on what is known as `known'`,
which implies what was known before and, where it matters, how the store has moved since the
statement looked at it. The second half builds the moves that commits make. -/
namespace Linea.Consent
variable {setting : Setting} {c : Client} {held : Set Lock} {pending : Store → Store}
  {known : Store → Prop} {α β : Type} {next : α → Program β}
  {post : Set Lock → (Store → Store) → (Store → Prop) → β → Prop}

abbrev Wp (setting : Setting) (c : Client) (program : Program β) :=
  (discipline setting).wp c program

section Statements

theorem select_bind {view : Store → α}
    (h : ∀ s known', Inv setting s → known s →
      (∀ t, known' t → known t ∧ Rely setting c held s t) →
      Wp setting c (next (view (pending s))) held pending known' post) :
    Wp setting c (Tx.select view >>= next) held pending known post :=
  Discipline.wp_bind.mpr (Discipline.wp_select fun s hinv hs => h s _ hinv hs fun _ ht => ht)

theorem receiving_bind {view : Reply → α}
    (h : ∀ reply, Wp setting c (next (view reply)) held pending known post) :
    Wp setting c (Tx.receiving view >>= next) held pending known post :=
  Discipline.wp_bind.mpr (Discipline.wp_receiving h)

theorem update_bind {next : Unit → Program β} {change : Store → Store}
    (h : Wp setting c (next ()) held (fun s => change (pending s)) known post) :
    Wp setting c (Tx.update change >>= next) held pending known post :=
  Discipline.wp_bind.mpr (Discipline.wp_update.mpr h)

theorem selectForUpdate_bind {rows : Store → List Lock} {view : Store → α}
    (h : ∀ s known', Inv setting s → known s →
      (∀ t, known' t → known t ∧
        Rely setting c (held ∪ {k | k ∈ rows (pending s)}) s t) →
      Wp setting c (next (view (pending s))) (held ∪ {k | k ∈ rows (pending s)}) pending known'
        post) :
    Wp setting c (Tx.selectForUpdate rows view >>= next) held pending known post :=
  Discipline.wp_bind.mpr
    (Discipline.wp_selectForUpdate fun s hinv hs => h s _ hinv hs fun _ ht => ht)

theorem union_nil : held ∪ {k | k ∈ ([] : List Lock)} = held := by
  ext k
  simp

theorem union_singleton (lock : Lock) : held ∪ {k | k ∈ [lock]} = held ∪ {lock} := by
  ext k
  simp

theorem lockRow_bind {lock : Lock} {view : Store → Option α} {next : Option α → Program β}
    (hnone : ∀ s known', Inv setting s → known s → view (pending s) = none →
      (∀ t, known' t → known t ∧ Rely setting c held s t) →
      Wp setting c (next none) held pending known' post)
    (hsome : ∀ s x known', Inv setting s → known s → view (pending s) = some x →
      (∀ t, known' t → known t ∧ Rely setting c (held ∪ {lock}) s t) →
      Wp setting c (next (some x)) (held ∪ {lock}) pending known' post) :
    Wp setting c (lockRow lock view >>= next) held pending known post := by
  refine selectForUpdate_bind fun s known' hinv hs hknown => ?_
  cases hview : view (pending s) with
  | none =>
    simp only [hview, Option.isSome_none, Bool.false_eq_true, if_false, union_nil] at hknown ⊢
    exact hnone s known' hinv hs hview hknown
  | some x =>
    simp only [hview, Option.isSome_some, if_true, union_singleton] at hknown ⊢
    exact hsome s x known' hinv hs hview hknown

/-- The same without a case distinction: the lock is held if the row is there. -/
theorem lockRow_any {lock : Lock} {view : Store → Option α} {next : Option α → Program β}
    (h : ∀ s held' known', Inv setting s → known s → held ⊆ held' →
      (∀ x, view (pending s) = some x → lock ∈ held') →
      (∀ t, known' t → known t ∧ Rely setting c held' s t) →
      Wp setting c (next (view (pending s))) held' pending known' post) :
    Wp setting c (lockRow lock view >>= next) held pending known post := by
  refine lockRow_bind ?_ ?_
  · intro s known' hinv hs hview hknown
    rw [← hview]
    exact h s held known' hinv hs subset_rfl (fun x hx => by rw [hview] at hx; cases hx) hknown
  · intro s x known' hinv hs hview hknown
    rw [← hview]
    exact h s _ known' hinv hs Set.subset_union_left (fun _ _ => by simp) hknown

theorem lockSlot_bind {lock : Lock} {view : Store → Option α} {next : Option α → Program β}
    (hnone : ∀ s known', Inv setting s → known s → view (pending s) = none →
      (∀ t, known' t → known t ∧ Rely setting c (held ∪ {lock}) s t) →
      Wp setting c (next none) (held ∪ {lock}) pending known' post)
    (hsome : ∀ s x known', Inv setting s → known s → view (pending s) = some x →
      (∀ t, known' t → known t ∧ Rely setting c held s t) →
      Wp setting c (next (some x)) held pending known' post) :
    Wp setting c (lockSlot lock view >>= next) held pending known post := by
  refine selectForUpdate_bind fun s known' hinv hs hknown => ?_
  cases hview : view (pending s) with
  | none =>
    simp only [hview, Option.isSome_none, Bool.false_eq_true, if_false, union_singleton]
      at hknown ⊢
    exact hnone s known' hinv hs hview hknown
  | some x =>
    simp only [hview, Option.isSome_some, if_true, union_nil] at hknown ⊢
    exact hsome s x known' hinv hs hview hknown

theorem wp_halt_of {message : String} (h : message ≠ decisionExists) :
    Wp setting c (.halt message : Program β) held pending known post := h

theorem bind_assoc_iff {δ : Type} {program : Program δ} {body : δ → Program α} :
    Wp setting c ((program >>= body) >>= next) held pending known post ↔
      Wp setting c (program >>= fun d => body d >>= next) held pending known post := by
  simp only [Wp, Discipline.wp_bind]

theorem pure_bind_iff {a : α} :
    Wp setting c ((pure a : Program α) >>= next) held pending known post ↔
      Wp setting c (next a) held pending known post := Iff.rfl

theorem halt_bind {message : String} (h : message ≠ decisionExists) :
    Wp setting c ((.halt message : Program α) >>= next) held pending known post := h

/-- A program whose answer is the answer of its last statement. -/
theorem of_bind_pure {program : Program β}
    (h : Wp setting c (program >>= pure) held pending known post) :
    Wp setting c program held pending known post :=
  Discipline.wp_bind.mp h

theorem decide_cases {next : Bool → Program β} {p : Prop} [Decidable p]
    (hfalse : ¬ p → Wp setting c (next false) held pending known post)
    (htrue : p → Wp setting c (next true) held pending known post) :
    Wp setting c (next (decide p)) held pending known post := by
  by_cases hp : p
  · rw [decide_eq_true hp]
    exact htrue hp
  · rw [decide_eq_false hp]
    exact hfalse hp

end Statements

section Audit
variable {next : Unit → Program β} {id : String} {intent : ActionIntent}

theorem recordActionIntentFact_bind {fact : AuditFact}
    (h : ∀ known', (∀ t, known' t → known t) →
      Wp setting c (next ()) held (fun s => (pending s).setIntent id (.withFact fact)) known' post) :
    Wp setting c (recordActionIntentFact id intent fact >>= next) held pending known post := by
  refine bind_assoc_iff.mpr (select_bind fun s known' _ _ hknown => ?_)
  split
  · exact update_bind (h known' fun t ht => (hknown t ht).1)
  · exact halt_bind (by decide)

theorem lockAudience_bind {workspaceId environmentId externalSubjectId : String}
    (h : ∀ held' known', held ⊆ held' → (∀ t, known' t → known t) →
      Wp setting c (next ()) held' pending known' post) :
    Wp setting c (lockAudience workspaceId environmentId externalSubjectId >>= next) held pending
      known post := by
  refine bind_assoc_iff.mpr (lockRow_bind ?_ ?_)
  · intro s known' _ _ _ _
    exact halt_bind (by decide)
  · intro s x known' _ _ _ hknown
    exact pure_bind_iff.mpr
      (h _ known' Set.subset_union_left fun t ht => (hknown t ht).1)

theorem createIntentEvent_bind {event : IntentEvent}
    (h : ∀ held' known', held ⊆ held' → (∀ t, known' t → known t) →
      Wp setting c (next ()) held' (fun s => (pending s).setIntent id (.withEvent event)) known'
        post) :
    Wp setting c (createIntentEvent id intent event >>= next) held pending known post := by
  refine bind_assoc_iff.mpr (lockAudience_bind fun held' known' hsub hknown => ?_)
  exact update_bind (h held' known' hsub hknown)

end Audit

theorem updateIntent_bind {id : String} {guard : ActionIntent → Bool}
    {set : IntentRecord → IntentRecord} {next : Option ActionIntent → Program β}
    (hnone : ∀ known', (∀ t, known' t → known t) →
      Wp setting c (next none) held pending known' post)
    (hsome : ∀ s record known', Inv setting s → known s → (pending s).intent id = some record →
      guard record.row = true →
      (∀ t, known' t → known t ∧ Rely setting c (held ∪ {.intent id}) s t) →
      Wp setting c (next (some (set record).row)) (held ∪ {.intent id})
        (fun s => (pending s).setIntent id set) known' post) :
    Wp setting c (updateIntent id guard set >>= next) held pending known post := by
  refine bind_assoc_iff.mpr (lockRow_bind ?_ ?_)
  · intro s known' _ _ _ hknown
    exact pure_bind_iff.mpr (hnone known' fun t ht => (hknown t ht).1)
  · intro s record known' hinv hs hrecord hknown
    obtain ⟨hfound, hguard⟩ := Option.filter_eq_some_iff.mp hrecord
    refine bind_assoc_iff.mpr (update_bind (pure_bind_iff.mpr ?_))
    exact hsome s record known' hinv hs hfound hguard hknown

/-- An update of a row that is locked and known to satisfy the guard. -/
theorem updateIntent_locked {i : String} {guard : ActionIntent → Bool}
    {set : IntentRecord → IntentRecord} {next : Option ActionIntent → Program β}
    (hlock : .intent i ∈ held)
    (hguard : ∀ t, known t → ∃ r, (pending t).intent i = some r ∧ guard r.row = true)
    (h : ∀ s record known', Inv setting s → known s → (pending s).intent i = some record →
      (∀ t, known' t → known t) →
      Wp setting c (next (some (set record).row)) held (fun s => (pending s).setIntent i set) known'
        post) :
    Wp setting c (updateIntent i guard set >>= next) held pending known post := by
  have hheld : held ∪ {.intent i} = held :=
    Set.union_eq_self_of_subset_right (Set.singleton_subset_iff.mpr hlock)
  refine bind_assoc_iff.mpr (lockRow_bind ?_ ?_)
  · intro s known' _ hs hnone _
    obtain ⟨r, hr, hr'⟩ := hguard s hs
    rw [hr, Option.filter_some, hr', if_pos rfl] at hnone
    cases hnone
  · intro s record known' hinv hs hrecord hknown
    obtain ⟨hfound, _⟩ := Option.filter_eq_some_iff.mp hrecord
    rw [hheld]
    refine bind_assoc_iff.mpr (update_bind (pure_bind_iff.mpr ?_))
    exact h s record known' hinv hs hfound fun t ht => (hknown t ht).1

section Moves
variable {s : Store} {id : String}

theorem intent_setIntent (f : IntentRecord → IntentRecord) (j : String) :
    (s.setIntent id f).intent j = (s.intent j).map fun r => if j = id then f r else r :=
  OrderedMap.get?_mapValues _ _ _

theorem intent_setIntent_self (f : IntentRecord → IntentRecord) :
    (s.setIntent id f).intent id = (s.intent id).map f := by
  simp [intent_setIntent]

@[simp] theorem request_setIntent (f : IntentRecord → IntentRecord) (j : String) :
    (s.setIntent id f).request j = s.request j := rfl

@[simp] theorem executions_setIntent (f : IntentRecord → IntentRecord) :
    (s.setIntent id f).executions = s.executions := rfl

theorem setIntent_setIntent (f g : IntentRecord → IntentRecord) :
    (s.setIntent id f).setIntent id g = s.setIntent id fun r => g (f r) := by
  simp only [Store.setIntent, OrderedMap.mapValues, List.map_map]
  congr 2
  apply List.map_congr_left
  intro p _
  by_cases h : p.1 = id <;> simp [h]

theorem setIntent_id : s.setIntent id (fun r => r) = s := by
  simp [Store.setIntent, OrderedMap.mapValues]

theorem IntentMove.refl (old : Option IntentRecord) : IntentMove setting c held s id old old := by
  cases old with
  | none => exact .absent
  | some r => exact .steps .refl

/-- A commit that leaves the authority rows alone. -/
theorem Move.ofTables {executions : String → Option ExecutionRecord}
    {requests : OrderedMap String RequestRecord} {intents : OrderedMap String IntentRecord}
    {decisionKeys : String × String → Option IdempotencyRecord} {answers : List Answer}
    {readings : List Reading}
    (hexecutions : ∀ e, ExecutionMove held e (s.executions e) (executions e))
    (hrequests : ∀ r, RequestMove held r (s.request r) (requests.get? r))
    (hintents : ∀ i, IntentMove setting c held s i (s.intent i) (intents.get? i))
    (hsingle : ∀ i j r r', s.intent i = none → s.intent j = none → intents.get? i = some r →
      intents.get? j = some r' → i = j)
    (hkeys : ∀ key record, decisionKeys key = some record →
      s.decisionKeys key = some record ∨ record.resourceId.isSome ∧
        ∃ request outcome comment q, requests.get? request = some q ∧ q.row.status = .decided ∧
          record.requestHash = setting.hashing.hashPublicRequest request outcome comment)
    (hslots : ∀ session key, .decisionSlot session key ∉ held →
      decisionKeys (session, key) = s.decisionKeys (session, key))
    (hkept : ∀ key, (s.decisionKeys key).isSome → (decisionKeys key).isSome)
    (hanswers : answers = s.answers ∨ ∃ answer, answers = s.answers ++ [answer] ∧
      answer.Added s { s with requests := requests, decisionKeys := decisionKeys })
    (hdecided : ∀ r q q' d, s.request r = some q → requests.get? r = some q' → d ∈ q'.decisions →
      d ∉ q.decisions → DecisionSound { s with readings := readings } r q' d)
    (hreadings : ∀ reading ∈ s.readings, reading ∈ readings)
    (hread : ∀ reading ∈ readings, reading ∈ s.readings ∨
      ∃ q, requests.get? reading.approvalRequestId = some q ∧
        (q.row.expired reading.checkedAt = false →
          ∃ d ∈ q.decisions, d.reason = .human ∧ d.decidedAt = reading.decidedAt)) :
    Move setting c held s
      { s with executions := executions, requests := requests, intents := intents
               decisionKeys := decisionKeys, answers := answers, readings := readings } where
  subjects := fun _ _ => rfl
  present := fun _ h => h
  environments := fun _ _ => rfl
  connections := fun _ _ => rfl
  memberships := fun _ _ h => h
  grants := fun _ _ _ _ => rfl
  reviewers := fun _ _ _ _ => rfl
  executions := hexecutions
  requests := hrequests
  intents := hintents
  single := hsingle
  decisionKeys := hkeys
  slots := hslots
  kept := hkept
  answers := hanswers.imp_right fun ⟨answer, hanswer, hadded⟩ =>
    ⟨answer, hanswer, hadded.faithful, hadded.decisions, hadded.reserved⟩
  decided := fun r q q' d hq hq' hd hnew =>
    ⟨(hdecided r q q' d hq hq' hd hnew).human, (hdecided r q q' d hq hq' hd hnew).actor,
      (hdecided r q q' d hq hq' hd hnew).timeout⟩
  readings := hreadings
  read := hread

/-- A commit that changes intents only. -/
theorem Move.ofIntents {intents : OrderedMap String IntentRecord}
    (hintents : ∀ i, IntentMove setting c held s i (s.intent i) (intents.get? i))
    (hsingle : ∀ i j r r', s.intent i = none → s.intent j = none → intents.get? i = some r →
      intents.get? j = some r' → i = j) :
    Move setting c held s { s with intents := intents } :=
  Move.ofTables (fun _ => .keep) (fun _ => .keep) hintents hsingle (fun _ _ h => .inl h)
    (fun _ _ _ => rfl) (fun _ h => h) (.inl rfl)
    (fun r q q' d hq hq' hd hnew => by
      rw [show s.requests.get? r = some q from hq, Option.some.injEq] at hq'
      exact absurd (hq' ▸ hd) hnew)
    (fun _ h => h) fun _ h => .inl h

theorem Move.refl : Move setting c held s s :=
  Move.ofIntents (fun i => IntentMove.refl _) fun i j r r' hi _ hr _ => by
    rw [show s.intents.get? i = none from hi] at hr
    cases hr

theorem get?_setIntent_none {f : IntentRecord → IntentRecord} {i : String} {r : IntentRecord}
    (hi : s.intent i = none) (hr : (s.setIntent id f).intent i = some r) : False := by
  rw [intent_setIntent, hi] at hr
  cases hr

/-- A commit that takes one intent through steps. -/
theorem Move.ofIntent {f : IntentRecord → IntentRecord}
    (h : ∀ r, s.intent id = some r →
      Relation.ReflTransGen (IntentStep setting c held s id) r (f r)) :
    Move setting c held s (s.setIntent id f) := by
  refine Move.ofIntents (fun i => ?_) fun i j r r' hi _ hr _ => (get?_setIntent_none hi hr).elim
  change IntentMove setting c held s i (s.intent i) ((s.setIntent id f).intent i)
  rw [intent_setIntent]
  cases hr : s.intent i with
  | none => exact .absent
  | some r =>
    rw [Option.map_some]
    split
    · rename_i heq
      subst heq
      exact .steps (h r hr)
    · exact .steps .refl

end Moves
end Linea.Consent
