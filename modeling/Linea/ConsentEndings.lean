import Linea.ConsentRules

/-! The transactions that end an intent: settling one that is being executed, withdrawing one that
is not, and failing one whose authority is gone. -/
namespace Linea.Consent
variable {setting : Setting} {c : Client} {held : Set Lock} {known : Store → Prop} {β : Type}
  {post : Set Lock → (Store → Store) → (Store → Prop) → β → Prop} {i : String} {s t : Store}

abbrev Commits (setting : Setting) (c : Client) (post : β → Store → Prop) :=
  (discipline setting).Commits c post

abbrev Triple (setting : Setting) (c : Client) (pre : Store → Prop) (program : Program β)
    (post : β → Store → Prop) : Prop :=
  (discipline setting).Triple c pre program post

section Settling

/-- A row that has ended: what of it must not change, and the fact and event that go with it. -/
structure Ends (f : ActionIntent → ActionIntent) (factType : FactType)
    (event : Option IntentEvent) : Prop where
  invocation : ∀ row, (f row).toInvocation = row.toInvocation
  started : ∀ row, (f row).dispatchStartedAt = row.dispatchStartedAt
  count : ∀ row, (f row).providerAttemptCount = row.providerAttemptCount
  fact : ∀ row, terminalFact (f row).status = some factType
  event : ∀ row, terminalEvent (f row).status = event

theorem settle_move {f : ActionIntent → ActionIntent} {event : IntentEvent} {fact : AuditFact}
    (hends : Ends f fact.factType (some event)) (hlock : .intent i ∈ held)
    (hstatus : ∀ r, s.intent i = some r → r.row.status = .executing) :
    Move setting c held s
      (((s.setIntent i (.withRow f)).setIntent i (.withEvent event)).setIntent i
        (.withFact fact)) := by
  rw [setIntent_setIntent, setIntent_setIntent]
  refine Move.ofIntent fun r hr => .single ?_
  exact .settle (f r.row) event fact hlock (hstatus r hr) (hends.invocation r.row)
    (hends.started r.row) (hends.count r.row) (hends.fact r.row) (hends.event r.row)

theorem withdraw_move {f : ActionIntent → ActionIntent} {fact : AuditFact}
    (hends : Ends f fact.factType none) (hlock : .intent i ∈ held)
    (hstatus : ∀ r, s.intent i = some r →
      r.row.status = .awaitingConsent ∨ r.row.status = .ready) :
    Move setting c held s ((s.setIntent i (.withRow f)).setIntent i (.withFact fact)) := by
  rw [setIntent_setIntent]
  refine Move.ofIntent fun r hr => .single ?_
  exact .withdraw (f r.row) fact hlock (hstatus r hr) (hends.invocation r.row)
    (hends.started r.row) (hends.count r.row) (hends.fact r.row) (hends.event r.row)

/-- A row that was locked is the row at the commit. -/
theorem Rely.row_eq (h : Rely setting c held s t) (hlock : .intent i ∈ held)
    {record r : IntentRecord} (hrecord : s.intent i = some record) (hr : t.intent i = some r) :
    r.row = record.row := by
  obtain ⟨r', hr', hrow, _⟩ := h.intent hlock hrecord
  rw [hr, Option.some.injEq] at hr'
  exact hr' ▸ hrow

end Settling

/-- `failed` or `outcome_unknown`, as `failRecoveredActionIntent` writes them. -/
theorem failRecovered_ends (unknown : Bool) (input : ClaimInput) (error : ConnectorError) :
    Ends (fun row => { row with
        status := if unknown then .outcomeUnknown else .failed
        executionClaimId := some input.executionClaimId
        normalizedError := some error
        updatedAt := input.now })
      (if unknown then .outcomeUnknown else .failed) (some .failed) := by
  cases unknown <;> exact ⟨fun _ => rfl, fun _ => rfl, fun _ => rfl, fun _ => rfl, fun _ => rfl⟩

/-- The row of an intent whose claim went to the caller. -/
def ClaimResult.claimedIntent : ClaimResult → Option ActionIntent
  | .claimed intent _ | .recovered intent _ => some intent
  | .cancelled | .inProgress | .notReady | .terminal _ => none

theorem failRecoveredActionIntent_bind {intent : ActionIntent} {input : ClaimInput}
    {priorClaimId : String} {next : ClaimResult → Program β}
    (h : ∀ result held' pending' known', result.claimedIntent = none →
      (∀ s, Inv setting s → known' s → Move setting c held' s (pending' s)) →
      Wp setting c (next result) held' pending' known' post) :
    Wp setting c (failRecoveredActionIntent intent input priorClaimId >>= next) held id known
      post := by
  refine bind_assoc_iff.mpr (updateIntent_bind ?_ ?_)
  · intro known' _
    exact pure_bind_iff.mpr (h _ _ _ _ rfl fun s _ _ => Move.refl)
  · intro s₀ record known' _ _ hrecord hguard hknown
    simp only [decide_eq_true_eq] at hguard
    refine bind_assoc_iff.mpr (createIntentEvent_bind fun held' known'' hsub hknown' => ?_)
    refine bind_assoc_iff.mpr (recordActionIntentFact_bind fun known₃ hknown₃ => ?_)
    refine pure_bind_iff.mpr (h _ _ _ _ rfl fun s _ hs => ?_)
    have hrely := (hknown s (hknown' s (hknown₃ s hs))).2
    refine settle_move (failRecovered_ends _ input _) (hsub (by simp)) fun r hr => ?_
    rw [hrely.row_eq (by simp) hrecord hr]
    exact hguard.1

theorem lockActiveActionIntentExecution_bind {executionClaimId : String} {now : ℕ}
    {next : Bool → Program β}
    (hfalse : ∀ held' known', held ⊆ held' → (∀ t, known' t → known t) →
      Wp setting c (next false) held' id known' post)
    (htrue : ∀ s₀ intent s₁ execution known', Inv setting s₀ → known s₀ →
      s₀.intentRow i = some intent → intent.status = .executing →
      s₁.execution intent.executionId = some execution → execution.status = .running →
      execution.isLeaseValid now executionClaimId = true →
      (∀ t, known' t → known t ∧ Rely setting c held s₀ t ∧
        Rely setting c (held ∪ {.execution intent.executionId}) s₁ t) →
      Wp setting c (next true) (held ∪ {.execution intent.executionId}) id known' post) :
    Wp setting c (lockActiveActionIntentExecution i executionClaimId now >>= next) held id known
      post := by
  refine bind_assoc_iff.mpr (select_bind fun s₀ known' hinv hs₀ hknown => ?_)
  simp only [id_eq]
  split
  · exact pure_bind_iff.mpr (hfalse held known' subset_rfl fun t ht => (hknown t ht).1)
  · rename_i intent hclaimed
    obtain ⟨hintent, hguard⟩ := Option.filter_eq_some_iff.mp hclaimed
    simp only [decide_eq_true_eq] at hguard
    refine bind_assoc_iff.mpr (lockRow_bind ?_ ?_)
    · intro s₁ known'' _ _ _ hknown'
      refine pure_bind_iff.mpr (hfalse held known'' subset_rfl fun t ht => ?_)
      exact (hknown t (hknown' t ht).1).1
    · intro s₁ execution known'' _ _ hexecution hknown'
      obtain ⟨hfound, hactive⟩ := Option.filter_eq_some_iff.mp hexecution
      simp only [decide_eq_true_eq] at hactive
      refine pure_bind_iff.mpr (htrue s₀ intent s₁ execution known'' hinv hs₀ hintent hguard.1
        hfound hactive.1 hactive.2 fun t ht => ?_)
      exact ⟨(hknown t (hknown' t ht).1).1, (hknown t (hknown' t ht).1).2, (hknown' t ht).2⟩

section Transactions
variable {pre : Store → Prop}

theorem settleActionIntent_triple {executionClaimId : String} {now : ℕ} {settlement : Settlement}
    (hends : Ends settlement.set settlement.factType (some settlement.event)) :
    Triple setting c pre (settleActionIntent i executionClaimId now settlement)
      fun _ _ => True := by
  refine Discipline.Triple.transaction (lockActiveActionIntentExecution_bind ?_ ?_)
  · intro held' known' _ _ s _ _
    exact ⟨Move.refl, fun _ _ => trivial⟩
  · intro s₀ intent s₁ execution known' _ _ _ _ _ _ _ _
    refine updateIntent_bind ?_ ?_
    · intro known'' _ s _ _
      exact ⟨Move.refl, fun _ _ => trivial⟩
    · intro s₂ record known'' _ _ hrecord hguard hknown
      simp only [decide_eq_true_eq] at hguard
      refine createIntentEvent_bind fun held' known₃ hsub hknown' => ?_
      refine recordActionIntentFact_bind fun known₄ hknown₄ => ?_
      intro s _ hs
      refine ⟨?_, fun _ _ => trivial⟩
      have hrely := (hknown s (hknown' s (hknown₄ s hs))).2
      refine settle_move hends (hsub (by simp)) fun r hr => ?_
      rw [hrely.row_eq (by simp) hrecord hr]
      exact hguard.1

theorem completeActionIntent_triple {executionClaimId : String} {result : Value} {now : ℕ} :
    Triple setting c pre (completeActionIntent i executionClaimId result now) fun _ _ => True :=
  settleActionIntent_triple ⟨fun _ => rfl, fun _ => rfl, fun _ => rfl, fun _ => rfl, fun _ => rfl⟩

theorem failActionIntent_triple {executionClaimId : String} {error : ConnectorError}
    {status : FailureStatus} {now : ℕ} :
    Triple setting c pre (failActionIntent i executionClaimId error status now)
      fun _ _ => True := by
  refine settleActionIntent_triple ?_
  cases status <;> exact ⟨fun _ => rfl, fun _ => rfl, fun _ => rfl, fun _ => rfl, fun _ => rfl⟩

theorem rejectActionIntent_triple :
    Triple setting c pre (rejectActionIntent i) fun _ _ => True := by
  refine Discipline.Triple.transaction (receiving_bind fun reply => updateIntent_bind ?_ ?_)
  · intro known' _ s _ _
    exact ⟨Move.refl, fun _ _ => trivial⟩
  · intro s₀ record known' _ _ hrecord hguard hknown
    simp only [decide_eq_true_eq] at hguard
    refine select_bind fun s₁ known'' _ _ hknown' => ?_
    refine recordActionIntentFact_bind fun known₃ hknown₃ => ?_
    intro s _ hs
    refine ⟨?_, fun _ _ => trivial⟩
    have hrely := (hknown s (hknown' s (hknown₃ s hs)).1).2
    refine withdraw_move ⟨fun _ => rfl, fun _ => rfl, fun _ => rfl, fun _ => rfl, fun _ => rfl⟩
      (by simp) fun r hr => .inl ?_
    rw [hrely.row_eq (by simp) hrecord hr]
    exact hguard

end Transactions

theorem cancelUnauthorizedActionIntent_bind {now : ℕ} {next : ClaimResult → Program β}
    (h : ∀ result held' pending' known', result.claimedIntent = none →
      (∀ s, Inv setting s → known' s → Move setting c held' s (pending' s)) →
      Wp setting c (next result) held' pending' known' post) :
    Wp setting c (cancelUnauthorizedActionIntent i now >>= next) held id known post := by
  refine bind_assoc_iff.mpr (updateIntent_bind ?_ ?_)
  · intro known' _
    exact h _ _ _ _ rfl fun s _ _ => Move.refl
  · intro s₀ record known' _ _ hrecord hguard hknown
    simp only [decide_eq_true_eq] at hguard
    refine bind_assoc_iff.mpr (recordActionIntentFact_bind fun known'' hknown' => ?_)
    refine pure_bind_iff.mpr (h _ _ _ _ rfl fun s _ hs => ?_)
    have hrely := (hknown s (hknown' s hs)).2
    refine withdraw_move ⟨fun _ => rfl, fun _ => rfl, fun _ => rfl, fun _ => rfl, fun _ => rfl⟩
      (by simp) fun r hr => ?_
    rw [hrely.row_eq (by simp) hrecord hr]
    exact hguard

end Linea.Consent
