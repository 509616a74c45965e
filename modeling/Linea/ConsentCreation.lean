import Linea.ConsentCalm

/-! The programs that insert subjects, connections, executions, requests, assignments and intents.
A new row's place is locked until the commit, so it is still free then; what the row refers to was
read before, and does not change. -/
namespace Linea.Consent
variable {α : Type} {c : Client} {held held' : Set Lock} {pending : Store → Store}
  {known known' : Store → Prop} {s t : Store}

section Places

theorem stable_subject {u : String} (h : .subject u ∈ held) :
    columns.Stable c held fun s => s.subjectWorkspace u = none := by
  rintro s s' hs ⟨d, held', _, hdisjoint, _, hmove⟩
  exact stays_absent (hmove.subjects u) h hdisjoint hs

theorem stable_connection {k : String} (h : .connection k ∈ held) :
    columns.Stable c held fun s => s.connectionIdentity k = none := by
  rintro s s' hs ⟨d, held', _, hdisjoint, _, hmove⟩
  exact stays_absent (hmove.connections k) h hdisjoint hs

theorem stable_execution {e : String} (h : .execution e ∈ held) :
    columns.Stable c held fun s => s.executionOwner e = none := by
  rintro s s' hs ⟨d, held', _, hdisjoint, _, hmove⟩
  exact stays_absent (hmove.executions e) h hdisjoint hs

theorem stable_question {r : String} (h : .request r ∈ held) :
    columns.Stable c held fun s => s.question r = none := by
  rintro s s' hs ⟨d, held', _, hdisjoint, _, hmove⟩
  exact stays_absent ((hmove.questions r).imp id And.left) h hdisjoint hs

theorem stable_invocation {i : String} (h : .intent i ∈ held) :
    columns.Stable c held fun s => s.invocation i = none := by
  rintro s s' hs ⟨d, held', _, hdisjoint, _, hmove⟩
  exact stays_absent ((hmove.invocations i).imp id And.left) h hdisjoint hs

/-- No intent has the request. -/
def Unclaimed (approvalRequestId : String) (s : Store) : Prop :=
  ∀ j other, s.invocation j = some other → other.approvalRequestId ≠ approvalRequestId

theorem stable_unclaimed {r : String} (h : .intentRequestSlot r ∈ held) :
    columns.Stable c held (Unclaimed r) := by
  rintro s s' hs ⟨d, held', _, hdisjoint, _, hmove⟩ j other hj
  rcases ColumnsMove.invocation_cases hmove hj with hold | ⟨_, hnew⟩
  · exact hs j other hold
  · rintro rfl
    exact Set.disjoint_left.mp hdisjoint hnew.slot h

end Places

section Facts

def ConnectionIs (k : String) (identity : ConnectionIdentity) (s : Store) : Prop :=
  s.connectionIdentity k = some identity

theorem ConnectionIs.permanent {k : String} {identity : ConnectionIdentity} :
    columns.Permanent (ConnectionIs k identity) :=
  fun _ hs hmove => hmove.connection_stays hs

def Asks (r : String) (question : Question) (s : Store) : Prop := s.question r = some question

theorem Asks.permanent {r : String} {question : Question} : columns.Permanent (Asks r question) :=
  fun _ hs hmove => hmove.question_stays hs

def InWorkspace (u workspaceId : String) (s : Store) : Prop :=
  s.subjectWorkspace u = some workspaceId

theorem InWorkspace.permanent {u workspaceId : String} :
    columns.Permanent (InWorkspace u workspaceId) :=
  fun _ hs hmove => stays (hmove.subjects u) hs

end Facts

section Inserts

theorem Inserted.mono {β : Type} {lock : Lock} {old : Option β} (h : Inserted lock held old)
    (hsub : held ⊆ held') : Inserted lock held' old :=
  ⟨h.absent, hsub h.held⟩

theorem ColumnsMove.mono (h : ColumnsMove held s t) (hsub : held ⊆ held') :
    ColumnsMove held' s t where
  subjects u := (h.subjects u).imp id fun hnew => hnew.mono hsub
  connections k := (h.connections k).imp id fun hnew => hnew.mono hsub
  executions e := (h.executions e).imp id fun hnew => hnew.mono hsub
  questions r := (h.questions r).imp id fun hnew => ⟨hnew.1.mono hsub, hnew.2⟩
  invocations i := (h.invocations i).imp id fun hnew =>
    ⟨hnew.1.mono hsub, fun x hx => ⟨(hnew.2 x hx).link, hsub (hnew.2 x hx).slot, (hnew.2 x hx).free⟩⟩
  single := h.single
  reviewers := h.reviewers

theorem ColumnsMove.refl : ColumnsMove held s s := (SameColumns.refl s).move

/-- A change of other columns after a move. -/
theorem ColumnsMove.then {u : Store} (h : ColumnsMove held s t) (hsame : SameColumns t u) :
    ColumnsMove held s u where
  subjects x := by
    rw [hsame.subjects]
    exact h.subjects x
  connections x := by
    rw [hsame.connections]
    exact h.connections x
  executions x := by
    rw [hsame.executions]
    exact h.executions x
  questions r := by
    rw [hsame.questions]
    refine (h.questions r).imp id fun hnew => ⟨hnew.1, fun question hq hdigest => ?_⟩
    rw [hsame.executions]
    exact hnew.2 question hq hdigest
  invocations i := by
    rw [hsame.invocations]
    refine (h.invocations i).imp id fun hnew => ⟨hnew.1, fun x hx => ?_⟩
    obtain ⟨question, connection, hlink⟩ := (hnew.2 x hx).link
    refine ⟨⟨question, connection, ?_⟩, (hnew.2 x hx).slot, (hnew.2 x hx).free⟩
    exact ⟨(hsame.questions _).trans hlink.asks, (hsame.connections _).trans hlink.uses,
      hlink.workspaceId, hlink.environmentId, hlink.owner⟩
  single i j := by
    rw [hsame.invocations, hsame.invocations]
    exact h.single i j
  reviewers key a ha := by
    obtain ⟨b, hb, hba⟩ := hsame.reviewers key a ha
    rw [hsame.subjects, ← hba]
    exact h.reviewers key b hb

theorem ColumnsMove.insertSubject {u : String} {row : ExternalSubject}
    (hnone : s.subjectWorkspace u = none) (hheld : .subject u ∈ held) :
    ColumnsMove held s { s with subjects := Function.update s.subjects u (some row) } := by
  refine { SameColumns.move (SameColumns.refl s) with
    subjects := fun x => ?_
    questions := fun r => .inl rfl
    invocations := fun i => .inl rfl
    reviewers := fun key a ha => .inl ⟨a, ha, rfl⟩ }
  by_cases hx : x = u
  · subst hx
    exact .inr ⟨hnone, hheld⟩
  · left
    simp only [Store.subjectWorkspace, Function.update_of_ne hx]

theorem ColumnsMove.insertConnection {k : String} {row : Connection}
    (hnone : s.connectionIdentity k = none) (hheld : .connection k ∈ held) :
    ColumnsMove held s { s with connections := Function.update s.connections k (some row) } := by
  refine { SameColumns.move (SameColumns.refl s) with
    connections := fun x => ?_
    questions := fun r => .inl rfl
    invocations := fun i => .inl rfl }
  by_cases hx : x = k
  · subst hx
    exact .inr ⟨hnone, hheld⟩
  · left
    simp only [Store.connectionIdentity, Function.update_of_ne hx]

theorem ColumnsMove.insertExecution {e : String} {record : ExecutionRecord}
    (hnone : s.executionOwner e = none) (hheld : .execution e ∈ held) :
    ColumnsMove held s { s with executions := Function.update s.executions e (some record) } := by
  refine { SameColumns.move (SameColumns.refl s) with
    executions := fun x => ?_
    questions := fun r => .inl rfl
    invocations := fun i => .inl rfl }
  by_cases hx : x = e
  · subst hx
    exact .inr ⟨hnone, hheld⟩
  · left
    simp only [Store.executionOwner, Store.execution, Function.update_of_ne hx]

theorem ColumnsMove.insertRequest {r : String} {row : ApprovalRequest}
    (hnone : s.question r = none) (hheld : .request r ∈ held) (hasked : Asked s row.toQuestion) :
    ColumnsMove held s (s.insertRequest r row) := by
  refine { SameColumns.move (SameColumns.refl s) with
    questions := fun x => ?_
    invocations := fun i => .inl rfl }
  simp only [Store.question, Store.requestRow, Store.request, Store.insertRequest,
    OrderedMap.get?_set]
  by_cases hx : x = r
  · subst hx
    refine .inr ⟨⟨hnone, hheld⟩, fun question hq => ?_⟩
    rw [if_pos rfl] at hq
    cases hq
    exact hasked
  · left
    rw [if_neg hx]

/-- The new intent refers to rows that are there, and no other intent has its request. -/
theorem ColumnsMove.insertIntent {i : String} {row : ActionIntent} {base : Store}
    (h : ColumnsMove held s base) (hintents : base.intents = s.intents)
    (hnone : s.invocation i = none) (hheld : .intent i ∈ held)
    (hslot : .intentRequestSlot row.approvalRequestId ∈ held)
    (hfree : Unclaimed row.approvalRequestId s) {question : Question}
    {connection : ConnectionIdentity}
    (hlink : IntentLink base row.toInvocation question connection) :
    ColumnsMove held s (base.insertIntent i row) := by
  have hget : ∀ x, (base.insertIntent i row).invocation x =
      if x = i then some row.toInvocation else s.invocation x := by
    intro x
    simp only [Store.invocation, Store.intentRow, Store.intent, Store.insertIntent, hintents,
      OrderedMap.get?_set]
    split <;> rfl
  refine { h with
    questions := fun r => (h.questions r).imp id fun hnew => hnew
    invocations := fun x => ?_
    single := fun x y hx hy hx' hy' => ?_
    reviewers := h.reviewers }
  · rw [hget]
    by_cases hx : x = i
    · subst hx
      refine .inr ⟨⟨hnone, hheld⟩, fun invocation hinvocation => ?_⟩
      rw [if_pos rfl] at hinvocation
      cases hinvocation
      exact ⟨⟨question, connection, hlink.asks, hlink.uses, hlink.workspaceId,
        hlink.environmentId, hlink.owner⟩, hslot, hfree⟩
    · left
      rw [if_neg hx]
  · rw [hget] at hx' hy'
    have hone : ∀ z, s.invocation z = none →
        (if z = i then some row.toInvocation else s.invocation z).isSome → z = i := by
      intro z hz hsome
      by_contra hne
      rw [if_neg hne, hz] at hsome
      cases hsome
    rw [hone x hx hx', hone y hy hy']

end Inserts

section Subjects

/-- The end of a transaction's body: its writes are a move. -/
def Concludes (held : Set Lock) (pending : Store → Store) (known : Store → Prop) (_ : α) : Prop :=
  ∀ s, Linked s → known s → ColumnsMove held s (pending s)

theorem concludes_id {a : α} : Concludes held id known a := fun _ _ _ => .refl

theorem transaction_keeps {body : Program Unit}
    (h : columns.wp c body ∅ id (fun _ => True) Concludes) :
    columns.wp c body.transaction ∅ id (fun _ => True) fun _ _ _ _ => True := by
  refine Discipline.wp_transaction.mpr (Discipline.wp_mono h (fun _ hs => hs) ?_)
  intro held pending known known' _ hknown hconcludes s hinv hs
  exact ⟨hconcludes s hinv (hknown s hs), trivial⟩

theorem enrolExternalSubject_keeps {workspaceId environmentId : String} {status : SubjectStatus}
    {admitted : SubjectStatus → Option SubjectStatus} :
    columns.wp c (enrolExternalSubject workspaceId environmentId status admitted) ∅ id
      (fun _ => True) fun _ _ _ _ => True := by
  refine transaction_keeps (Discipline.wp_select_bind fun s known _ _ _ => ?_)
  split
  · exact concludes_id
  refine Discipline.wp_receiving_bind fun reply => Discipline.wp_lock_bind
    fun s held' known' _ _ _ hlocked hknown => ?_
  have hheld : .subject reply.id ∈ held' := hlocked _ (List.mem_singleton_self _)
  split
  · rename_i hnone
    have hfree : s.subjectWorkspace reply.id = none := by
      rw [Store.subjectWorkspace, Option.map_eq_none_iff]
      exact hnone
    refine Discipline.wp_update_bind (Discipline.wp_update.mpr fun t _ ht => ?_)
    have hstill := (stable_subject hheld).rely (hknown t ht).2 hfree
    exact (ColumnsMove.insertSubject hstill hheld).then { SameColumns.refl _ with }
  · split
    · trivial
    split
    · exact concludes_id
    refine Discipline.wp_update_bind (Discipline.wp_update.mpr fun t _ _ => ?_)
    exact SameColumns.move ((SameColumns.setSubjectStatus _ _).trans { SameColumns.refl _ with })

end Subjects

section Connections

theorem Concludes.grow {β : Type} {a : α} {b : β} (h : Concludes held pending known a) (hsub : held ⊆ held')
    (hknown : ∀ s, known' s → known s) : Concludes held' pending known' b :=
  fun s hinv hs => (h s hinv (hknown s hs)).mono hsub

/-- The connection is inserted where the place of its id is free, or not at all. -/
theorem insertConnection_concludes {k : String} {connection : Connection} :
    columns.wp c (insertConnection k connection) held id known Concludes := by
  refine Discipline.wp_lockSlot_bind fun s held' known' _ _ _ hlocked hknown => ?_
  split
  · exact concludes_id
  · rename_i hused
    have hnone : s.connections k = none := by simpa using hused
    have hheld := hlocked hnone
    have hfree : s.connectionIdentity k = none := by
      rw [Store.connectionIdentity, hnone]
      rfl
    refine Discipline.wp_update_bind fun t _ ht => ?_
    exact ColumnsMove.insertConnection ((stable_connection hheld).rely (hknown t ht).2 hfree) hheld

theorem createSharedEnvironmentConnection_keeps {shared : SharedConnection} {scopes : List String}
    {credentialEncrypted : String} :
    columns.wp c (createSharedEnvironmentConnection shared scopes credentialEncrypted) ∅ id
      (fun _ => True) fun _ _ _ _ => True := by
  refine transaction_keeps (Discipline.wp_lock_bind fun s held' known' _ _ _ _ _ => ?_)
  split
  · trivial
  refine Discipline.wp_bind.mpr (Discipline.wp_mono insertConnection_concludes (fun _ hs => hs) ?_)
  intro held pending known known' created hknown hconcludes
  split
  · trivial
  · exact Concludes.grow hconcludes subset_rfl hknown

theorem completeConnectionAuthorizationRequest_keeps {owner : ConnectionOwner} {provider : String}
    {scopes : List String} {credentialEncrypted : String} :
    columns.wp c (completeConnectionAuthorizationRequest owner provider scopes credentialEncrypted)
      ∅ id (fun _ => True) fun _ _ _ _ => True := by
  refine transaction_keeps (Discipline.wp_select_bind fun s known' _ _ _ => ?_)
  split
  · exact concludes_id
  refine Discipline.wp_receiving_bind fun account => Discipline.wp_lock_bind
    fun s held' known' _ _ _ _ _ => ?_
  split
  · refine Discipline.wp_update.mpr fun t _ _ => SameColumns.move ?_
    exact SameColumns.setConnection fun _ => rfl
  refine Discipline.wp_receiving_bind fun reply => ?_
  refine Discipline.wp_bind.mpr (Discipline.wp_mono insertConnection_concludes (fun _ hs => hs) ?_)
  intro held pending known known' created hknown hconcludes
  split
  · trivial
  · exact Concludes.grow hconcludes subset_rfl hknown

theorem ColumnsMove.addAuthorization {kind : SubjectAuthorizationKind} {e u : String}
    {a : Authorization} (hsubject : kind = .reviewer → s.subjectWorkspace u = some a.workspaceId) :
    ColumnsMove held s (s.setAuthorizations kind (e, u) fun rows => rows ++ [a]) := by
  cases kind with
  | requester => exact SameColumns.move { SameColumns.refl s with }
  | reviewer =>
    refine { SameColumns.move (SameColumns.refl s) with
      questions := fun r => .inl rfl
      invocations := fun i => .inl rfl
      reviewers := fun key b hb => ?_ }
    simp only [Store.setAuthorizations] at hb
    by_cases hkey : key = (e, u)
    · subst hkey
      rw [Function.update_self, List.mem_append, List.mem_singleton] at hb
      rcases hb with hb | rfl
      · exact .inl ⟨b, hb, rfl⟩
      · exact .inr (hsubject rfl)
    · rw [Function.update_of_ne hkey] at hb
      exact .inl ⟨b, hb, rfl⟩

theorem setConnectionSubjectAuthorization_keeps {shared : SharedConnection}
    {externalSubjectId : String} {kind : SubjectAuthorizationKind} :
    columns.wp c (setConnectionSubjectAuthorization shared externalSubjectId kind) ∅ id
      (fun _ => True) fun _ _ _ _ => True := by
  refine transaction_keeps (Discipline.wp_lock_bind fun s held' known' _ _ _ _ _ => ?_)
  refine Discipline.wp_select_bind fun s known' _ _ _ => ?_
  refine Discipline.wp_select_bind fun s known' _ _ hknown => ?_
  split
  · trivial
  rename_i hchecks
  have hmember : availableSubject shared.workspaceId shared.environmentId externalSubjectId s =
      true := by
    simp only [not_or, Bool.not_eq_false] at hchecks
    exact hchecks.2.2
  have hworkspace : InWorkspace externalSubjectId shared.workspaceId s := by
    simp only [availableSubject, ownSubject, Bool.and_eq_true] at hmember
    obtain ⟨subject, hsubject, _⟩ := (Option.any_eq_true _ _).mp hmember.1
    obtain ⟨hsubject, hw⟩ := Option.filter_eq_some_iff.mp hsubject
    rw [InWorkspace, Store.subjectWorkspace, hsubject, Option.map_some, Option.some.injEq]
    simpa using hw
  refine Discipline.wp_receiving_bind fun reply => ?_
  refine Discipline.wp_select_bind fun s' known'' _ _ hknown' => ?_
  split
  · exact concludes_id
  refine Discipline.wp_update.mpr fun t _ ht => ColumnsMove.addAuthorization fun _ => ?_
  exact InWorkspace.permanent.rely (hknown t (hknown' t ht).1).2 hworkspace

theorem createExecution_keeps {e : String} {row : Execution} :
    columns.wp c (createExecution e row) ∅ id (fun _ => True) fun _ _ _ _ => True := by
  refine transaction_keeps (Discipline.wp_lockSlot_bind
    fun s held' known' _ _ _ hlocked hknown => ?_)
  split
  · trivial
  · rename_i hused
    have hnone : s.execution e = none := by simpa using hused
    have hheld := hlocked hnone
    have hfree : s.executionOwner e = none := by
      rw [Store.executionOwner, hnone]
      rfl
    refine Discipline.wp_update.mpr fun t _ ht => ?_
    exact ColumnsMove.insertExecution ((stable_execution hheld).rely (hknown t ht).2 hfree) hheld

end Connections

section Requests
variable {post : Set Lock → (Store → Store) → (Store → Prop) → Option (String × ApprovalRequest) → Prop}

def storedQuestion (question : Question) : Question :=
  { question with
    approverEmails := question.approverEmails.map fun emails => emails.map String.toLower }

/-- A request that was inserted: the place of its id is free until the commit. -/
structure InsertedRequest (held : Set Lock) (known : Store → Prop) (r : String)
    (row : ApprovalRequest) (question : Question) : Prop where
  stored : row.toQuestion = storedQuestion question
  locked : .request r ∈ held
  absent : ∀ t, known t → t.question r = none

theorem lockAudience_readOnly {workspaceId environmentId externalSubjectId : String} :
    (lockAudience workspaceId environmentId externalSubjectId).ReadOnly := by
  refine .bind .selectForUpdate fun audience => ?_
  split
  · exact .pure
  · exact .halt trivial

theorem publishRequestEvent_readOnly {question : Question} :
    (publishRequestEvent question).ReadOnly := by
  unfold publishRequestEvent
  split
  · exact .pure
  · exact lockAudience_readOnly
  · exact .halt trivial

theorem requireRequestOwner_readOnly {question : Question} :
    (requireRequestOwner question).ReadOnly := by
  unfold requireRequestOwner
  split
  · exact .pure
  · refine .bind .select fun owner => ?_
    split
    · exact .pure
    · exact .halt trivial
  · exact .halt trivial

/-- The rest of a program after reads that need not be remembered. -/
theorem readOnly_bind {β : Type} {program : Program α} {next : α → Program β}
    {post : Set Lock → (Store → Store) → (Store → Prop) → β → Prop} (h : program.ReadOnly)
    (hnext : ∀ a held' known', held ⊆ held' → (∀ t, known' t → known t) →
      columns.wp c (next a) held' pending known' post) :
    columns.wp c (program >>= next) held pending known post :=
  Discipline.wp_bind.mpr (Discipline.wp_readOnly (fun _ => trivial) h hnext)

theorem createApprovalRequest_wp {question : Question}
    (hnone : ∀ held' known', held ⊆ held' → (∀ t, known' t → known t) → post held' id known' none)
    (hsome : ∀ r row held' known', held ⊆ held' → (∀ t, known' t → known t) →
      InsertedRequest held' known' r row question →
      post held' (Store.insertRequest r row) known' (some (r, row))) :
    columns.wp c (createApprovalRequest question) held id known post := by
  refine readOnly_bind requireRequestOwner_readOnly fun _ held₁ known₁ hsub₁ hknown₁ => ?_
  refine Discipline.wp_receiving_bind fun reply => Discipline.wp_receiving_bind fun clock => ?_
  dsimp only
  split
  · trivial
  refine Discipline.wp_lockSlot_bind fun s held₂ known₂ _ _ hsub₂ _ hknown₂ => ?_
  split
  · exact hnone held₂ known₂ (hsub₁.trans hsub₂) fun t ht => hknown₁ t (hknown₂ t ht).1
  refine Discipline.wp_lockSlot_bind fun s held₃ known₃ _ _ hsub₃ hlocked hknown₃ => ?_
  split
  · trivial
  rename_i hused
  have hfree : s.request reply.id = none := by simpa using hused
  have hheld := hlocked hfree
  have habsent : ∀ t, known₃ t → t.question reply.id = none := by
    intro t ht
    refine (stable_question hheld).rely (hknown₃ t ht).2 ?_
    simp only [Store.question, Store.requestRow, hfree, Option.map_none]
  refine Discipline.wp_update_bind ?_
  refine readOnly_bind publishRequestEvent_readOnly fun _ held₄ known₄ hsub₄ hknown₄ => ?_
  refine hsome reply.id _ held₄ known₄ (hsub₁.trans (hsub₂.trans (hsub₃.trans hsub₄)))
    (fun t ht => ?_)
    ⟨rfl, hsub₄ hheld, fun t ht => habsent t (hknown₄ t ht)⟩
  exact hknown₁ t (hknown₂ t (hknown₃ t (hknown₄ t ht)).1).1

/-- The request of an approval node is made for no intent. -/
theorem createWorkspaceApprovalRequest_keeps {workspaceId executionId nodeId : String}
    {approverEmails : Option (List String)} {timeout : Option (ℕ × ApprovalTimeoutAction)} :
    columns.wp c (createWorkspaceApprovalRequest workspaceId executionId nodeId approverEmails
      timeout) ∅ id (fun _ => True) fun _ _ _ _ => True := by
  refine Discipline.wp_select_bind fun s known _ _ _ => ?_
  split
  · trivial
  refine Discipline.wp_select_bind fun s known _ _ _ => ?_
  split
  · trivial
  refine Discipline.wp_bind.mpr (Discipline.wp_transaction.mpr (createApprovalRequest_wp ?_ ?_))
  · exact fun held known _ _ t _ _ => ⟨ColumnsMove.refl, trivial⟩
  · intro r row held known _ _ hnew t _ ht
    refine ⟨ColumnsMove.insertRequest (hnew.absent t ht) hnew.locked fun hdigest => ?_, trivial⟩
    rw [hnew.stored] at hdigest
    cases hdigest

end Requests

section Intents

/-- An intent that is about to be inserted: its id and its request are free until the commit. -/
structure IntentPlace (held : Set Lock) (known : Store → Prop) (i : String) (row : ActionIntent) :
    Prop where
  locked : .intent i ∈ held
  absent : ∀ t, known t → t.invocation i = none
  slot : .intentRequestSlot row.approvalRequestId ∈ held
  unclaimed : ∀ t, known t → Unclaimed row.approvalRequestId t

theorem unclaimed_of_none {r : String} (h : s.intentOfRequest r = none) : Unclaimed r s := by
  intro j other hj
  obtain ⟨row, hrow, rfl⟩ := Option.map_eq_some_iff.mp hj
  obtain ⟨record, hrecord, rfl⟩ := Option.map_eq_some_iff.mp hrow
  have hnone := List.find?_eq_none.mp (Option.map_eq_none_iff.mp h) (j, record)
    (OrderedMap.get?_iff_mem.mp hrecord)
  simpa using hnone

theorem insertActionIntent_wp {input : CreateActionIntentInput} {row : ActionIntent}
    {post : Set Lock → (Store → Store) → (Store → Prop) → Option String → Prop}
    (hintents : ∀ s, (pending s).intents = s.intents)
    (hnone : ∀ held' known', held ⊆ held' → (∀ t, known' t → known t) →
      post held' pending known' none)
    (hsome : ∀ i held' known', held ⊆ held' → (∀ t, known' t → known t) →
      IntentPlace held' known' i row →
      post held' (fun s => (pending s).insertIntent i row) known' (some i)) :
    columns.wp c (insertActionIntent input row) held pending known post := by
  refine Discipline.wp_receiving_bind fun reply => ?_
  split
  · trivial
  refine Discipline.wp_lockSlot_bind fun s held₁ known₁ _ _ hsub₁ _ hknown₁ => ?_
  split
  · exact hnone held₁ known₁ hsub₁ fun t ht => (hknown₁ t ht).1
  refine Discipline.wp_lockSlot_bind fun s₂ held₂ known₂ _ _ hsub₂ hslot hknown₂ => ?_
  split
  · trivial
  rename_i hpaired
  have hpaired : (pending s₂).intentOfRequest row.approvalRequestId = none := by simpa using hpaired
  have hfree : Unclaimed row.approvalRequestId s₂ := by
    apply unclaimed_of_none
    rw [← hpaired, Store.intentOfRequest, Store.intentOfRequest, hintents]
  refine Discipline.wp_lockSlot_bind fun s₃ held₃ known₃ _ _ hsub₃ hlocked hknown₃ => ?_
  split
  · trivial
  rename_i hused
  have hused : (pending s₃).intent reply.id = none := by simpa using hused
  have habsent : s₃.invocation reply.id = none := by
    rw [Store.intent, hintents] at hused
    simp only [Store.invocation, Store.intentRow, Store.intent, hused, Option.map_none]
  refine Discipline.wp_update_bind (hsome reply.id held₃ known₃ (hsub₁.trans (hsub₂.trans hsub₃))
    (fun t ht => (hknown₁ t (hknown₂ t (hknown₃ t ht).1).1).1) ⟨hlocked hused, fun t ht => ?_,
      hsub₃ (hslot hpaired), fun t ht => ?_⟩)
  · exact (stable_invocation (hlocked hused)).rely (hknown₃ t ht).2 habsent
  · exact (stable_unclaimed (hslot hpaired)).rely (hknown₂ t (hknown₃ t ht).1).2 hfree

theorem replayActionIntent_readOnly {i : String} {intent : ActionIntent}
    {request : Option (String × ApprovalRequest)} {input : CreateActionIntentInput} :
    (replayActionIntent i intent request input).ReadOnly := by
  unfold replayActionIntent
  split
  · exact .pure
  refine .bind ?_ fun boundary => ?_
  · unfold replayBoundary
    split
    · exact .pure
    · exact .bind .select fun _ => .bind .select fun _ => .pure
  split
  · exact .pure
  split
  · exact .pure
  refine .bind ?_ fun stored => ?_
  · unfold storedApprovalRequest
    split
    · exact .pure
    · exact .select
  split
  · exact .halt trivial
  · exact .pure

/-- Up to the insert of the intent: the writes so far are a move, and show the request. -/
structure Prepared (held : Set Lock) (pending : Store → Store) (known : Store → Prop) (r : String)
    (question : Question) : Prop where
  concludes : Concludes held pending known ()
  intents : ∀ s, (pending s).intents = s.intents
  connections : ∀ s k, (pending s).connectionIdentity k = s.connectionIdentity k
  asks : ∀ s, known s → Asks r question (pending s)

/-- What the request of an intent asks, for an execution of this owner. -/
structure AskedFor (owner : ExecutionOwner) (question : Question) : Prop where
  workspaceId : question.workspaceId = owner.workspaceId
  environmentId : question.environmentId = owner.environmentId
  externalSubjectId : question.externalSubjectId = owner.externalSubjectId

theorem findRequest_some {executionId nodeId r : String} {row : ApprovalRequest}
    (h : s.findRequest executionId nodeId = some (r, row)) :
    s.question r = some row.toQuestion ∧ row.executionId = executionId := by
  obtain ⟨⟨r, record⟩, hfind, heq⟩ := Option.map_eq_some_iff.mp h
  cases heq
  have hid := List.find?_some hfind
  refine ⟨?_, (by simpa using hid : _ ∧ _).1⟩
  simp only [Store.question, Store.requestRow, Store.request,
    OrderedMap.get?_iff_mem.mpr (List.mem_of_find?_eq_some hfind), Option.map_some]

/-- The request of the invocation is created, or was created for the same execution. -/
theorem approvalRequest_bind {input : CreateActionIntentInput} {owner : ExecutionOwner}
    {question : Question} {β : Type} {next : Option (String × ApprovalRequest) → Program β}
    {post : Set Lock → (Store → Store) → (Store → Prop) → β → Prop}
    (howned : ∀ t, known t → OwnedBy input.executionId owner t)
    (hexecution : question.executionId = input.executionId) (hasked : AskedFor owner question)
    (hnext : ∀ found held' pending' known', held ⊆ held' → (∀ t, known' t → known t) →
      Concludes held' pending' known' () →
      (∀ r row, found = some (r, row) → row.actionIntentDigest.isSome →
        Prepared held' pending' known' r row.toQuestion ∧ AskedFor owner row.toQuestion) →
      columns.wp c (next found) held' pending' known' post) :
    columns.wp c (createApprovalRequest question >>= fun created =>
      foundApprovalRequest created input >>= next) held id known post := by
  refine Discipline.wp_bind.mpr (createApprovalRequest_wp ?_ ?_)
  · intro held₁ known₁ hsub₁ hknown₁
    refine Discipline.wp_select_bind fun s known₂ hlinked hs hknown₂ => ?_
    refine hnext _ held₁ id known₂ hsub₁ (fun t ht => hknown₁ t (hknown₂ t ht).1) concludes_id ?_
    intro r row hfound hdigest
    obtain ⟨hquestion, hid⟩ := findRequest_some hfound
    refine ⟨⟨concludes_id, fun _ => rfl, fun _ _ => rfl, fun t ht => ?_⟩, ?_⟩
    · exact Asks.permanent.rely (hknown₂ t ht).2 hquestion
    · have howner := hlinked.asked r _ hquestion hdigest
      rw [hid, howned s (hknown₁ s hs), Option.some.injEq] at howner
      rw [howner]
      exact ⟨rfl, rfl, rfl⟩
  · intro r row held₁ known₁ hsub₁ hknown₁ hnew
    have hconcludes : Concludes held₁ (Store.insertRequest r row) known₁ () := by
      intro t _ ht
      refine ColumnsMove.insertRequest (hnew.absent t ht) hnew.locked fun _ => ?_
      have howner := howned t (hknown₁ t ht)
      rw [hnew.stored]
      change t.executionOwner question.executionId =
        some ⟨question.workspaceId, question.environmentId, question.externalSubjectId⟩
      rw [hexecution, howner, hasked.workspaceId, hasked.environmentId, hasked.externalSubjectId]
    refine hnext _ held₁ _ known₁ hsub₁ hknown₁ hconcludes ?_
    rintro r' row' hfound -
    cases hfound
    refine ⟨⟨hconcludes, fun _ => rfl, fun _ _ => rfl, fun t _ => ?_⟩, ?_⟩
    · simp only [Asks, Store.question, Store.requestRow, Store.request, Store.insertRequest,
        OrderedMap.get?_set_self, Option.map_some]
    · rw [hnew.stored]
      exact ⟨hasked.workspaceId, hasked.environmentId, hasked.externalSubjectId⟩

/-- The connection that a requester may use for an execution of this owner. -/
structure UsableBy (owner : ExecutionOwner) (identity : ConnectionIdentity) : Prop where
  workspaceId : identity.workspaceId = owner.workspaceId
  environmentId : owner.environmentId = some identity.environmentId
  externalSubjectId : identity.ownership = .personal →
    identity.externalSubjectId = owner.externalSubjectId

theorem usableBy_of_authorized {connection : Connection} {environment : Option Environment}
    {input : ConnectionAuthorityInput} {connectionId : String} {grantId : Option String}
    (hauthority : connectionAuthorityBoundary (some connection) environment input = .authorized)
    (hrequester : getConnectionRequesterAuthority s connectionId connection input.externalSubjectId =
      some grantId) :
    UsableBy ⟨input.workspaceId, some input.environmentId, some input.externalSubjectId⟩
      connection.identity := by
  have howned : connectionOwned (some connection) input = true := by
    unfold connectionAuthorityBoundary at hauthority
    dsimp only at hauthority
    split at hauthority
    · cases hauthority
    split at hauthority
    · cases hauthority
    split at hauthority
    · cases hauthority
    · rename_i hvalid
      simp only [not_or, Bool.not_eq_false] at hvalid
      exact hvalid.2.2.2.1
  simp only [connectionOwned, decide_eq_true_eq] at howned
  refine ⟨howned.1, by rw [← howned.2.1]; rfl, fun hpersonal => ?_⟩
  change connection.ownership = .personal at hpersonal
  simp only [getConnectionRequesterAuthority, hpersonal] at hrequester
  split at hrequester
  · assumption
  · cases hrequester

theorem ownedBy_of_snapshot {executionId workspaceId environmentId externalSubjectId : String}
    (henvironment : ((s.execution executionId).filter fun e =>
      decide (e.workspaceId = workspaceId)).bind Execution.environmentId = some environmentId)
    (hsubject : ((s.execution executionId).filter fun e =>
      decide (e.workspaceId = workspaceId)).bind Execution.externalSubjectRecordId =
        some externalSubjectId) :
    OwnedBy executionId ⟨workspaceId, some environmentId, some externalSubjectId⟩ s := by
  obtain ⟨e, he, hid⟩ := Option.bind_eq_some_iff.mp henvironment
  rw [he, Option.bind_some] at hsubject
  obtain ⟨he, hworkspace⟩ := Option.filter_eq_some_iff.mp he
  rw [decide_eq_true_eq] at hworkspace
  rw [OwnedBy, Store.executionOwner, he, Option.map_some, ownerOf, hworkspace, hid, hsubject]

/-- The link of the intent that a prepared invocation inserts. -/
theorem Prepared.link {r : String} {question : Question} {owner : ExecutionOwner}
    {identity : ConnectionIdentity} {invocation : Invocation}
    (h : Prepared held pending known r question) (hasked : AskedFor owner question)
    (husable : UsableBy owner identity) (hs : known s)
    (hconnection : ConnectionIs invocation.connectionId identity s)
    (hr : invocation.approvalRequestId = r) :
    IntentLink (pending s) invocation question identity where
  asks := hr ▸ h.asks s hs
  uses := (h.connections s _).trans hconnection
  workspaceId := husable.workspaceId.trans hasked.workspaceId.symm
  environmentId := hasked.environmentId.trans husable.environmentId
  owner hpersonal := (husable.externalSubjectId hpersonal).trans hasked.externalSubjectId.symm

theorem readRequesterAuthority_bind {k u : String} {connection : Option Connection} {β : Type}
    {next : Option (Option String) → Program β}
    {post : Set Lock → (Store → Store) → (Store → Prop) → β → Prop}
    (hnext : ∀ requester known', (∀ t, known' t → known t) →
      (∀ grantId, requester = some grantId → ∃ row s, connection = some row ∧
        getConnectionRequesterAuthority s k row u = some grantId) →
      columns.wp c (next requester) held pending known' post) :
    columns.wp c (readRequesterAuthority k connection u >>= next) held pending known post := by
  unfold readRequesterAuthority
  split
  · rename_i row
    refine Discipline.wp_select_bind fun s known' _ _ hknown => ?_
    exact hnext _ known' (fun t ht => (hknown t ht).1) fun grantId h => ⟨row, _, rfl, h⟩
  · exact hnext none known (fun _ ht => ht) nofun

theorem createActionIntent_bind {input : CreateActionIntentInput} {β : Type}
    {next : CreateActionIntentResult → Program β}
    {post : Set Lock → (Store → Store) → (Store → Prop) → β → Prop}
    (hnext : ∀ a known', columns.wp c (next a) ∅ id known' post) :
    columns.wp c (createActionIntent input >>= next) held id known post := by
  refine Discipline.wp_bind.mpr (Discipline.wp_transaction.mpr ?_)
  have hdone : ∀ {held pending known a}, Concludes held pending known () → ∀ s, columns.inv s →
      known s → columns.move c held s (pending s) ∧
        columns.wp c (next a) ∅ id (columns.Rely c ∅ (pending s)) post :=
    fun hconcludes s hinv hs => ⟨hconcludes s hinv hs, hnext _ _⟩
  refine Discipline.wp_lock_bind fun s held₁ known₁ _ _ _ _ _ => ?_
  refine Discipline.wp_select_bind fun s known₂ _ _ _ => ?_
  split
  · refine Discipline.wp_readOnly (fun _ => trivial) replayActionIntent_readOnly ?_
    exact fun a held' known' _ _ => hdone concludes_id
  refine Discipline.wp_select_bind fun s₃ known₃ _ _ hknown₃ => ?_
  split
  rotate_left
  · exact hdone concludes_id
  rename_i environmentId externalSubjectId henvironment hsubject
  have howned : ∀ t, known₃ t → OwnedBy input.executionId
      ⟨input.workspaceId, some environmentId, some externalSubjectId⟩ t := fun t ht =>
    OwnedBy.permanent.rely (hknown₃ t ht).2 (ownedBy_of_snapshot henvironment hsubject)
  refine Discipline.wp_lock_bind fun s held₄ known₄ _ _ _ _ hknown₄ => ?_
  refine Discipline.wp_lock_bind fun s held₅ known₅ _ _ _ _ hknown₅ => ?_
  refine Discipline.wp_lock_bind fun s₆ held₆ known₆ _ _ _ _ hknown₆ => ?_
  refine Discipline.wp_lock_bind fun s₇ held₇ known₇ _ hs₇ _ _ hknown₇ => ?_
  have howned₇ : ∀ t, known₇ t → OwnedBy input.executionId
      ⟨input.workspaceId, some environmentId, some externalSubjectId⟩ t := fun t ht =>
    howned t (hknown₄ t (hknown₅ t (hknown₆ t (hknown₇ t ht).1).1).1).1
  have hexecution : ∀ e, s₇.execution input.executionId = some e →
      ownerOf e = ⟨input.workspaceId, some environmentId, some externalSubjectId⟩ := by
    intro e he
    have h := howned s₇ (hknown₄ s₇ (hknown₅ s₇ (hknown₆ s₇ hs₇).1).1).1
    rw [OwnedBy, Store.executionOwner, he, Option.map_some, Option.some.injEq] at h
    exact h
  refine readRequesterAuthority_bind fun requester known₈ hknown₈ hrequester => ?_
  dsimp only
  split
  · exact hdone concludes_id
  split
  · exact hdone concludes_id
  split
  rotate_left
  · exact hdone concludes_id
  rename_i grantId environmentId' externalSubjectId' henvironment' hsubject'
  split
  · exact hdone concludes_id
  rename_i hchecks
  obtain ⟨connection, s', hconnection, hgrant⟩ := hrequester grantId rfl
  have husable : UsableBy ⟨input.workspaceId, some environmentId, some externalSubjectId⟩
      connection.identity := by
    simp only [not_or, ne_eq, not_not] at hchecks
    exact usableBy_of_authorized (hconnection ▸ hchecks.1) hgrant
  have hidentity : ∀ t, known₈ t → ConnectionIs input.connectionId connection.identity t := by
    intro t ht
    refine ConnectionIs.permanent.rely (hknown₆ t (hknown₇ t (hknown₈ t ht)).1).2 ?_
    rw [ConnectionIs, Store.connectionIdentity]
    exact congrArg (Option.map Connection.identity) hconnection
  have howner : AskedFor ⟨input.workspaceId, some environmentId, some externalSubjectId⟩
      { workspaceId := input.workspaceId
        environmentId := some environmentId'
        executionId := input.executionId
        nodeId := input.nodeId
        audience := .externalSubject
        externalSubjectId := some externalSubjectId'
        approverEmails := none
        expiresAt := some input.expiresAt
        timeoutAction := some .autoReject
        actionIntentDigest := some input.canonicalDigest } := by
    obtain ⟨e, he, henvironment'⟩ := Option.bind_eq_some_iff.mp henvironment'
    have hsubject' : (some e).bind Execution.externalSubjectRecordId = some externalSubjectId' :=
      he ▸ hsubject'
    have h := hexecution e he
    rw [ownerOf, henvironment', show e.externalSubjectRecordId = _ from hsubject',
      ExecutionOwner.mk.injEq] at h
    exact ⟨rfl, h.2.1, h.2.2⟩
  refine approvalRequest_bind (fun t ht => howned₇ t (hknown₈ t ht)) rfl howner
    fun found held₉ pending₉ known₉ hsub₉ hknown₉ hconcludes₉ hfound => ?_
  split
  · refine Discipline.wp_select_bind fun s known' _ _ hknown' => ?_
    have hconcludes : Concludes held₉ pending₉ known' () :=
      hconcludes₉.grow subset_rfl fun t ht => (hknown' t ht).1
    split
    · exact hdone hconcludes
    · refine Discipline.wp_readOnly (fun _ => trivial) replayActionIntent_readOnly ?_
      exact fun a held' known'' hsub hknown'' => hdone (hconcludes.grow hsub hknown'')
  rename_i approvalRequestId request husable'
  obtain ⟨hrequest, hdigest⟩ := Option.filter_eq_some_iff.mp husable'
  simp only [decide_eq_true_eq] at hdigest
  obtain ⟨hprepared, hasked⟩ := hfound approvalRequestId request hrequest
    (by rw [hdigest.2.2]; rfl)
  refine Discipline.wp_receiving_bind fun clock => ?_
  refine Discipline.wp_bind.mpr (insertActionIntent_wp hprepared.intents ?_ ?_)
  · intro held' known' hsub hknown'
    refine Discipline.wp_select_bind fun s known'' _ _ hknown'' => ?_
    have hconcludes : Concludes held' pending₉ known'' () :=
      hconcludes₉.grow hsub fun t ht => hknown' t (hknown'' t ht).1
    split
    · trivial
    · refine Discipline.wp_readOnly (fun _ => trivial) replayActionIntent_readOnly ?_
      exact fun a held' known'' hsub hknown'' => hdone (hconcludes.grow hsub hknown'')
  · intro i held' known' hsub hknown' hplace
    refine Discipline.wp_bind.mpr (Discipline.wp_select_bind fun s known'' _ _ hknown'' => ?_)
    split
    rotate_left
    · trivial
    refine Discipline.wp_update.mpr (hdone fun t hinv ht => ?_)
    have ht' := (hknown'' t ht).1
    have hmove := ColumnsMove.insertIntent ((hconcludes₉ t hinv (hknown' t ht')).mono hsub)
      (hprepared.intents t) (hplace.absent t ht') hplace.locked hplace.slot
      (hplace.unclaimed t ht') (hprepared.link hasked husable (hknown' t ht')
        (hidentity t (hknown₉ t (hknown' t ht'))) rfl)
    exact hmove.then (SameColumns.setIntent fun _ => rfl)

end Intents

section Gateway

/-- A calm program after a commit. -/
theorem Calm.after_commit {program : Program α} (h : Calm program) :
    columns.wp c program ∅ id known fun _ _ _ _ => True :=
  Discipline.wp_mono (h.quiet Discipline.Frame.quiet_id) (fun _ hs => hs)
    fun _ _ _ _ _ _ _ => trivial

theorem createAndResolve_keeps {hashing : Hashing} {client : Client}
    {operation : SideEffectOperation} {input : SideEffectInput} {prepared : PreparedSideEffect}
    {kind : AuthorizationKind} :
    columns.wp c (createAndResolve hashing client operation input prepared kind) ∅ id known
      fun _ _ _ _ => True := by
  unfold createAndResolve
  split
  · trivial
  refine Discipline.wp_receiving_bind fun now => createActionIntent_bind fun created known' => ?_
  split
  · trivial
  · trivial
  · trivial
  · trivial
  -- The intent was created, or has just been found: its consent is read once more.
  all_goals
    refine Calm.after_commit (.bind .select fun consent => ?_)
    split
    · exact .halt
    · exact resolveSideEffectConsent_calm

theorem executeSideEffect_keeps {hashing : Hashing} {client : Client}
    {operation : SideEffectOperation} {input : SideEffectInput} :
    columns.wp c (executeSideEffect hashing client operation input) ∅ id known
      fun _ _ _ _ => True := by
  unfold executeSideEffect
  split
  · trivial
  refine Discipline.wp_select_bind fun s known' _ _ _ => ?_
  split
  · split
    · trivial
    split
    · exact Calm.after_commit resolveSideEffectConsent_calm
    · exact createAndResolve_keeps
  · refine Discipline.wp_select_bind fun s known' _ _ _ => ?_
    split
    · trivial
    · exact createAndResolve_keeps

theorem execute_keeps {registry : Registry} {hashing : Hashing} {operationId : String}
    {input : SideEffectInput} :
    columns.wp c (execute registry hashing c operationId input) ∅ id known fun _ _ _ _ => True := by
  unfold execute
  split
  · trivial
  · exact Discipline.wp_bind.mpr executeSideEffect_keeps

end Gateway
end Linea.Consent
