import Linea.Analyzer
import Linea.Runs

/-! Analyzer workers under every schedule. A worker reads a batch of due conversations and goes
through it later: it claims a conversation, calls the provider, and writes the analysis in a
transaction that reaffirms the claim. The claim is fenced by its attempt count and expires by time;
the sequence that the analysis covers is the one the batch recorded. -/
namespace Linea.Analyzer

structure Key where
  workspaceId : String
  workflowId : String
  conversationId : String
  deriving DecidableEq, Repr

def ConversationAnalysis.key (analysis : ConversationAnalysis) : Key :=
  ⟨analysis.workspaceId, analysis.workflowId, analysis.conversationId⟩

/-- A due conversation as the batch recorded it. -/
structure Due where
  key : Key
  maxSequence : ℕ
  deriving DecidableEq, Repr

structure Claim where
  claimedAt : ℤ
  attemptCount : ℕ
  deriving DecidableEq, Repr

def defaultClaimLeaseMs : ℤ := 5 * 60000

/-- The claim can be taken over. -/
def Claim.expired (clock : ℤ) (claim : Claim) : Bool := claim.claimedAt < clock - defaultClaimLeaseMs

/-! ## The watermark -/

/-- The order `created_at DESC, analyzed_through_sequence DESC`. -/
def newer (analysis other : ConversationAnalysis) : Bool :=
  other.createdAt < analysis.createdAt ||
    (analysis.createdAt = other.createdAt &&
      other.analyzedThroughSequence ≤ analysis.analyzedThroughSequence)

def latestOf : List ConversationAnalysis → Option ConversationAnalysis
  | [] => none
  | analysis :: rest =>
    match latestOf rest with
    | none => some analysis
    | some best => if newer best analysis then some best else some analysis

def getLatestConversationAnalysis (analyses : List ConversationAnalysis) (key : Key) :
    Option ConversationAnalysis :=
  latestOf (analyses.filter fun analysis => analysis.key = key)

/-- `coalesce(analyzed_through_sequence, 0)` of the latest analysis. -/
def watermark (analyses : List ConversationAnalysis) (key : Key) : ℕ :=
  (getLatestConversationAnalysis analyses key).elim 0 ConversationAnalysis.analyzedThroughSequence

/-! ## Workers -/

inductive Phase
  | between
  | claimed (due : Due) (attemptCount : ℕ)
  | begun (due : Due) (attemptCount : ℕ) (startedAt : ℤ)
  | renewed (due : Due) (attemptCount : ℕ) (startedAt renewedAt : ℤ)
  deriving DecidableEq

structure Worker where
  phase : Phase
  batch : List Due

/-- `messages` is the latest sequence of each conversation, `holder` the worker whose transaction
has locked its claim. -/
structure State where
  clock : ℤ
  messages : Key → ℕ
  claims : Key → Option Claim
  holder : Key → Option ℕ
  analyses : List ConversationAnalysis
  workers : ℕ → Worker

inductive Act
  | tick (clock : ℤ)
  | message (key : Key) (sequence : ℕ)
  | poll (worker : ℕ) (keys : List Key)
  | claim (worker : ℕ) (now : ℤ)
  | abandon (worker : ℕ)
  | begin (worker : ℕ)
  | renew (worker : ℕ) (now : ℤ)
  | commit (worker : ℕ) (row : ConversationAnalysis)
  | crash (worker : ℕ)

/-- The condition of `findConversationsDueForAnalysis` on the watermark and on the claim. -/
def State.due (s : State) (key : Key) : Bool :=
  watermark s.analyses key < s.messages key && (s.claims key).all (Claim.expired s.clock)

/-- The row `analyzeConversation` inserts; its other columns are the analyzer's. -/
def written (due : Due) (startedAt : ℤ) (row : ConversationAnalysis) : ConversationAnalysis :=
  { row with
    workspaceId := due.key.workspaceId
    workflowId := due.key.workflowId
    conversationId := due.key.conversationId
    analyzedThroughSequence := due.maxSequence
    createdAt := startedAt }

namespace State

def become (s : State) (worker : ℕ) (phase : Phase) (batch : List Due) : State :=
  { s with workers := Function.update s.workers worker ⟨phase, batch⟩ }

def release (s : State) (worker : ℕ) : Key → Option ℕ :=
  fun key => if s.holder key = some worker then none else s.holder key

/-- The upsert of `claimConversationForAnalysis` on the next conversation of the batch. -/
def claimNext (s : State) (worker : ℕ) (now : ℤ) (due : Due) (batch : List Due) : State :=
  match s.claims due.key with
  | none =>
    { s.become worker (.claimed due 1) batch with
      claims := Function.update s.claims due.key (some ⟨now, 1⟩) }
  | some claim =>
    if claim.expired s.clock then
      { s.become worker (.claimed due (claim.attemptCount + 1)) batch with
        claims := Function.update s.claims due.key (some ⟨now, claim.attemptCount + 1⟩) }
    else s.become worker .between batch

/-- `none` when the act is not possible, or has to wait for a lock. -/
def step (s : State) : Act → Option State
  | .tick clock => if s.clock ≤ clock then some { s with clock := clock } else none
  | .message key sequence =>
    if s.messages key < sequence then
      some { s with messages := Function.update s.messages key sequence }
    else none
  | .poll worker keys =>
    match s.workers worker with
    | ⟨.between, []⟩ =>
      if keys.all s.due then
        some (s.become worker .between (keys.map fun key => ⟨key, s.messages key⟩))
      else none
    | _ => none
  | .claim worker now =>
    match s.workers worker with
    | ⟨.between, due :: batch⟩ =>
      if s.holder due.key = none then some (s.claimNext worker now due batch) else none
    | _ => none
  | .abandon worker =>
    match s.workers worker with
    | ⟨.claimed _ _, batch⟩ => some (s.become worker .between batch)
    | _ => none
  | .begin worker =>
    match s.workers worker with
    | ⟨.claimed due attemptCount, batch⟩ =>
      some (s.become worker (.begun due attemptCount s.clock) batch)
    | _ => none
  | .renew worker now =>
    match s.workers worker with
    | ⟨.begun due attemptCount startedAt, batch⟩ =>
      if s.holder due.key = none then
        if (s.claims due.key).any fun claim => claim.attemptCount = attemptCount then
          some { s.become worker (.renewed due attemptCount startedAt now) batch with
            holder := Function.update s.holder due.key (some worker) }
        else some (s.become worker .between batch)
      else none
    | _ => none
  | .commit worker row =>
    match s.workers worker with
    | ⟨.renewed due attemptCount startedAt renewedAt, batch⟩ =>
      some { s.become worker .between batch with
        claims := Function.update s.claims due.key (some ⟨renewedAt, attemptCount⟩)
        holder := s.release worker
        analyses := s.analyses ++ [written due startedAt row] }
    | _ => none
  | .crash worker => some { s.become worker .between [] with holder := s.release worker }

end State

/-- A claim that succeeds is made for a conversation whose watermark is still behind the sequence
that the worker's batch recorded. -/
def Current (s : State) : Act → Prop
  | .claim worker _ => ∀ due batch, s.workers worker = ⟨.between, due :: batch⟩ →
      (s.claims due.key).all (Claim.expired s.clock) = true →
      watermark s.analyses due.key < due.maxSequence
  | _ => True

/-! ## The latest analysis -/

/-- A row with the latest date and a larger sequence than every other is the latest one. -/
theorem latestOf_append {analyses : List ConversationAnalysis} {row : ConversationAnalysis}
    (hdate : ∀ analysis ∈ analyses, analysis.createdAt ≤ row.createdAt)
    (hsequence : ∀ analysis ∈ analyses,
      analysis.analyzedThroughSequence ≤ row.analyzedThroughSequence) :
    latestOf (analyses ++ [row]) = some row := by
  induction analyses with
  | nil => rfl
  | cons analysis rest ih =>
    have hrest := ih (fun a ha => hdate a (by simp [ha])) fun a ha => hsequence a (by simp [ha])
    have hnewer : newer row analysis = true := by
      have hd := hdate analysis (by simp)
      have hq := hsequence analysis (by simp)
      simp only [newer, Bool.or_eq_true, decide_eq_true_eq, Bool.and_eq_true]
      omega
    rw [List.cons_append, latestOf, hrest]
    simp only [hnewer, if_true]

/-- Appending the written row: the watermark of its conversation is its sequence, every other one is
as before. -/
theorem watermark_written {analyses : List ConversationAnalysis} {due : Due} {startedAt : ℤ}
    (row : ConversationAnalysis)
    (hdate : ∀ analysis ∈ analyses, analysis.key = due.key → analysis.createdAt ≤ startedAt)
    (hsequence : ∀ analysis ∈ analyses, analysis.key = due.key →
      analysis.analyzedThroughSequence ≤ due.maxSequence) (key : Key) :
    watermark (analyses ++ [written due startedAt row]) key =
      if key = due.key then due.maxSequence else watermark analyses key := by
  have hkey : (written due startedAt row).key = due.key := rfl
  unfold watermark getLatestConversationAnalysis
  rw [List.filter_append, List.filter_singleton]
  by_cases h : key = due.key
  · have hkept : decide ((written due startedAt row).key = key) = true := by rw [hkey, h]; simp
    rw [hkept, cond_true, latestOf_append, if_pos h]
    · rfl
    · intro analysis hmem
      obtain ⟨hmem, hanalysis⟩ := List.mem_filter.mp hmem
      exact hdate analysis hmem ((of_decide_eq_true hanalysis).trans h)
    · intro analysis hmem
      obtain ⟨hmem, hanalysis⟩ := List.mem_filter.mp hmem
      exact hsequence analysis hmem ((of_decide_eq_true hanalysis).trans h)
  · have hdropped : decide ((written due startedAt row).key = key) = false := by
      rw [hkey]
      simp [Ne.symm h]
    rw [hdropped, cond_false, List.append_nil, if_neg h]

/-! ## Claims -/

/-- The conversation a worker is at work on, with its attempt and the start of its transaction. -/
def Phase.work : Phase → Option (Due × ℕ × Option ℤ)
  | .between => none
  | .claimed due attemptCount => some (due, attemptCount, none)
  | .begun due attemptCount startedAt => some (due, attemptCount, some startedAt)
  | .renewed due attemptCount startedAt _ => some (due, attemptCount, some startedAt)

/-- The attempt has been made, and while it is the last one the watermark stays where it was: behind
the sequence to write, with no analysis later than the transaction. -/
structure Fenced (s : State) (due : Due) (attemptCount : ℕ) (startedAt : Option ℤ) : Prop where
  made : ∃ claim, s.claims due.key = some claim ∧ attemptCount ≤ claim.attemptCount
  behind : ∀ claim, s.claims due.key = some claim → claim.attemptCount = attemptCount →
    watermark s.analyses due.key < due.maxSequence
  later : ∀ claim date, s.claims due.key = some claim → claim.attemptCount = attemptCount →
    startedAt = some date → ∀ analysis ∈ s.analyses, analysis.key = due.key →
    analysis.createdAt ≤ date
  past : ∀ date, startedAt = some date → date ≤ s.clock

structure Inv (s : State) : Prop where
  dated : ∀ analysis ∈ s.analyses, analysis.createdAt ≤ s.clock
  bounded : ∀ analysis ∈ s.analyses,
    analysis.analyzedThroughSequence ≤ watermark s.analyses analysis.key
  once : (s.analyses.map fun analysis => (analysis.key, analysis.analyzedThroughSequence)).Nodup
  fenced : ∀ w due attemptCount startedAt,
    (s.workers w).phase.work = some (due, attemptCount, startedAt) →
    Fenced s due attemptCount startedAt
  single : ∀ w v due due' attemptCount startedAt startedAt',
    (s.workers w).phase.work = some (due, attemptCount, startedAt) →
    (s.workers v).phase.work = some (due', attemptCount, startedAt') → due.key = due'.key → w = v
  locked : ∀ w due attemptCount startedAt renewedAt,
    (s.workers w).phase = .renewed due attemptCount startedAt renewedAt →
    s.holder due.key = some w ∧
      ∃ claim, s.claims due.key = some claim ∧ claim.attemptCount = attemptCount

theorem Fenced.of_eq {s s' : State} {due : Due} {attemptCount : ℕ} {startedAt : Option ℤ}
    (h : Fenced s due attemptCount startedAt) (hclaims : s'.claims due.key = s.claims due.key)
    (hanalyses : s'.analyses = s.analyses) (hclock : s.clock ≤ s'.clock) :
    Fenced s' due attemptCount startedAt := by
  refine ⟨?_, ?_, ?_, fun date hdate => (h.past date hdate).trans hclock⟩
  · rw [hclaims]
    exact h.made
  · rw [hclaims, hanalyses]
    exact h.behind
  · rw [hclaims, hanalyses]
    exact h.later

/-- A later attempt has been made: the fence does not let this one pass any more. -/
theorem Fenced.superseded {s s' : State} {due : Due} {attemptCount : ℕ} {startedAt : Option ℤ}
    (h : Fenced s due attemptCount startedAt) (claim : Claim)
    (hclaim : s'.claims due.key = some claim) (hlt : attemptCount < claim.attemptCount)
    (hclock : s.clock ≤ s'.clock) : Fenced s' due attemptCount startedAt := by
  refine ⟨⟨claim, hclaim, hlt.le⟩, fun other hother heq => ?_, fun other date hother heq => ?_,
    fun date hdate => (h.past date hdate).trans hclock⟩
  · rw [hclaim] at hother
    cases hother
    omega
  · rw [hclaim] at hother
    cases hother
    omega

/-- Steps that touch neither claims nor analyses, in which workers at most stop. -/
theorem Inv.quiet {s s' : State} (h : Inv s) (hclaims : s'.claims = s.claims)
    (hanalyses : s'.analyses = s.analyses) (hclock : s.clock ≤ s'.clock)
    (hworkers : ∀ w, (s'.workers w).phase = (s.workers w).phase ∨ (s'.workers w).phase = .between)
    (hholder : ∀ w key, (s'.workers w).phase ≠ .between → s.holder key = some w →
      s'.holder key = some w) : Inv s' := by
  have hwork : ∀ w work, (s'.workers w).phase.work = some work →
      (s.workers w).phase.work = some work := by
    intro w work hw
    rcases hworkers w with hsame | hidle
    · rw [← hsame]
      exact hw
    · rw [hidle] at hw
      cases hw
  refine ⟨?_, ?_, ?_, ?_, ?_, ?_⟩
  · rw [hanalyses]
    exact fun analysis hmem => (h.dated analysis hmem).trans hclock
  · rw [hanalyses]
    exact h.bounded
  · rw [hanalyses]
    exact h.once
  · intro w due attemptCount startedAt hw
    exact (h.fenced w due attemptCount startedAt (hwork w _ hw)).of_eq (by rw [hclaims]) hanalyses
      hclock
  · intro w v due due' attemptCount startedAt startedAt' hw hv
    exact h.single w v due due' attemptCount startedAt startedAt' (hwork w _ hw) (hwork v _ hv)
  · intro w due attemptCount startedAt renewedAt hw
    have hsame : (s.workers w).phase = .renewed due attemptCount startedAt renewedAt := by
      rcases hworkers w with hsame | hidle
      · rw [← hsame]
        exact hw
      · rw [hw] at hidle
        cases hidle
    obtain ⟨hlock, hclaim⟩ := h.locked w due attemptCount startedAt renewedAt hsame
    rw [hclaims]
    exact ⟨hholder w due.key (by rw [hw]; simp) hlock, hclaim⟩

@[simp] theorem become_workers_self (s : State) (w : ℕ) (phase : Phase) (batch : List Due) :
    (s.become w phase batch).workers w = ⟨phase, batch⟩ := Function.update_self ..

theorem become_workers_of_ne (s : State) {w v : ℕ} (phase : Phase) (batch : List Due) (h : v ≠ w) :
    (s.become w phase batch).workers v = s.workers v := Function.update_of_ne h ..

/-- A worker that stops its work on a conversation, or that only reads. -/
theorem Inv.become_between {s : State} {w : ℕ} {batch : List Due} (h : Inv s) :
    Inv (s.become w .between batch) := by
  refine h.quiet rfl rfl le_rfl (fun v => ?_) fun _ _ _ hlock => hlock
  by_cases hv : v = w
  · subst hv
    rw [become_workers_self]
    exact .inr rfl
  · rw [become_workers_of_ne s _ _ hv]
    exact .inl rfl

theorem Inv.begin {s : State} {w : ℕ} {due : Due} {attemptCount : ℕ} {batch : List Due} (h : Inv s)
    (hw : s.workers w = ⟨.claimed due attemptCount, batch⟩) :
    Inv (s.become w (.begun due attemptCount s.clock) batch) := by
  have hself : (s.workers w).phase.work = some (due, attemptCount, none) := by rw [hw]; rfl
  have hfenced := h.fenced w due attemptCount none hself
  have hwork : ∀ v due' attemptCount' startedAt,
      ((s.become w (.begun due attemptCount s.clock) batch).workers v).phase.work =
        some (due', attemptCount', startedAt) →
      ∃ startedAt', (s.workers v).phase.work = some (due', attemptCount', startedAt') := by
    intro v due' attemptCount' startedAt hv
    by_cases hvw : v = w
    · subst hvw
      rw [become_workers_self] at hv
      cases hv
      exact ⟨none, hself⟩
    · rw [become_workers_of_ne s _ _ hvw] at hv
      exact ⟨startedAt, hv⟩
  refine ⟨h.dated, h.bounded, h.once, fun v due' attemptCount' startedAt hv => ?_, ?_, ?_⟩
  · by_cases hvw : v = w
    · subst hvw
      rw [become_workers_self] at hv
      cases hv
      refine ⟨hfenced.made, hfenced.behind, ?_, ?_⟩
      · rintro claim date - - hdate analysis hmem -
        cases hdate
        exact h.dated analysis hmem
      · rintro date hdate
        cases hdate
        exact le_rfl
    · rw [become_workers_of_ne s _ _ hvw] at hv
      exact (h.fenced v due' attemptCount' startedAt hv).of_eq rfl rfl le_rfl
  · intro v u due' due'' attemptCount' startedAt startedAt' hv hu
    obtain ⟨_, hv⟩ := hwork v due' attemptCount' startedAt hv
    obtain ⟨_, hu⟩ := hwork u due'' attemptCount' startedAt' hu
    exact h.single v u due' due'' attemptCount' _ _ hv hu
  · intro v due' attemptCount' startedAt renewedAt hv
    by_cases hvw : v = w
    · subst hvw
      rw [become_workers_self] at hv
      cases hv
    · rw [become_workers_of_ne s _ _ hvw] at hv
      exact h.locked v due' attemptCount' startedAt renewedAt hv

theorem Inv.renew {s : State} {w : ℕ} {due : Due} {attemptCount : ℕ} {startedAt now : ℤ}
    {batch : List Due} (h : Inv s) (hw : s.workers w = ⟨.begun due attemptCount startedAt, batch⟩)
    (hfree : s.holder due.key = none)
    (hclaim : ∃ claim, s.claims due.key = some claim ∧ claim.attemptCount = attemptCount) :
    Inv { s.become w (.renewed due attemptCount startedAt now) batch with
      holder := Function.update s.holder due.key (some w) } := by
  have hself : (s.workers w).phase.work = some (due, attemptCount, some startedAt) := by rw [hw]; rfl
  have hwork : ∀ v work,
      ((s.become w (.renewed due attemptCount startedAt now) batch).workers v).phase.work =
        some work → (s.workers v).phase.work = some work := by
    intro v work hv
    by_cases hvw : v = w
    · subst hvw
      rw [become_workers_self] at hv
      exact hself.trans hv
    · rw [become_workers_of_ne s _ _ hvw] at hv
      exact hv
  refine ⟨h.dated, h.bounded, h.once, fun v due' attemptCount' startedAt' hv => ?_, ?_, ?_⟩
  · exact (h.fenced v due' attemptCount' startedAt' (hwork v _ hv)).of_eq rfl rfl le_rfl
  · intro v u due' due'' attemptCount' startedAt' startedAt'' hv hu
    exact h.single v u due' due'' attemptCount' _ _ (hwork v _ hv) (hwork u _ hu)
  · intro v due' attemptCount' startedAt' renewedAt hv
    by_cases hvw : v = w
    · subst hvw
      have hphase := congrArg Worker.phase (become_workers_self s v
        (.renewed due attemptCount startedAt now) batch)
      dsimp only at hv hphase
      rw [hphase] at hv
      cases hv
      exact ⟨Function.update_self .., hclaim⟩
    · have hphase := congrArg Worker.phase (become_workers_of_ne s
        (.renewed due attemptCount startedAt now) batch hvw)
      dsimp only at hv
      rw [hphase] at hv
      obtain ⟨hlock, hclaim'⟩ := h.locked v due' attemptCount' startedAt' renewedAt hv
      refine ⟨?_, hclaim'⟩
      have hne : due'.key ≠ due.key := by
        intro hkey
        rw [hkey, hfree] at hlock
        cases hlock
      exact (Function.update_of_ne hne ..).trans hlock

/-- A claim: every earlier attempt at the conversation is behind the fence. -/
theorem Inv.claim {s : State} {w : ℕ} {due : Due} {attemptCount : ℕ} {now : ℤ} {batch : List Due}
    (h : Inv s) (hfree : s.holder due.key = none)
    (hnew : ∀ claim, s.claims due.key = some claim → claim.attemptCount < attemptCount)
    (hbehind : watermark s.analyses due.key < due.maxSequence) :
    Inv { s.become w (.claimed due attemptCount) batch with
      claims := Function.update s.claims due.key (some ⟨now, attemptCount⟩) } := by
  set s' : State := { s.become w (.claimed due attemptCount) batch with
    claims := Function.update s.claims due.key (some ⟨now, attemptCount⟩) } with hs'
  have hclaim : s'.claims due.key = some ⟨now, attemptCount⟩ := Function.update_self ..
  have hself : s'.workers w = ⟨.claimed due attemptCount, batch⟩ := become_workers_self s ..
  have hother : ∀ v, v ≠ w → s'.workers v = s.workers v := fun v => become_workers_of_ne s _ _
  -- the attempts of the others are older
  have holder : ∀ v due' attemptCount' startedAt, v ≠ w →
      (s.workers v).phase.work = some (due', attemptCount', startedAt) → due'.key = due.key →
      attemptCount' < attemptCount := by
    intro v due' attemptCount' startedAt _ hv hkey
    obtain ⟨claim, hclaim, hle⟩ := (h.fenced v due' attemptCount' startedAt hv).made
    rw [hkey] at hclaim
    exact hle.trans_lt (hnew claim hclaim)
  refine ⟨h.dated, h.bounded, h.once, fun v due' attemptCount' startedAt hv => ?_, ?_, ?_⟩
  · by_cases hvw : v = w
    · rw [hvw, hself] at hv
      cases hv
      refine ⟨⟨_, hclaim, le_rfl⟩, fun _ _ _ => hbehind, ?_, ?_⟩
      · rintro claim date - - hdate
        cases hdate
      · rintro date hdate
        cases hdate
    · rw [hother v hvw] at hv
      have hfenced := h.fenced v due' attemptCount' startedAt hv
      by_cases hkey : due'.key = due.key
      · exact hfenced.superseded _ (by rw [hkey]; exact hclaim)
          (holder v due' attemptCount' startedAt hvw hv hkey) le_rfl
      · exact hfenced.of_eq (Function.update_of_ne hkey ..) rfl le_rfl
  · intro v u due' due'' attemptCount' startedAt startedAt' hv hu hkey
    by_cases hvw : v = w
    · by_cases huw : u = w
      · rw [hvw, huw]
      · rw [hvw, hself] at hv
        rw [hother u huw] at hu
        cases hv
        exact absurd (holder u due'' _ startedAt' huw hu hkey.symm) (lt_irrefl _)
    · rw [hother v hvw] at hv
      by_cases huw : u = w
      · rw [huw, hself] at hu
        cases hu
        exact absurd (holder v due' _ startedAt hvw hv hkey) (lt_irrefl _)
      · rw [hother u huw] at hu
        exact h.single v u due' due'' attemptCount' _ _ hv hu hkey
  · intro v due' attemptCount' startedAt renewedAt hv
    by_cases hvw : v = w
    · rw [hvw, hself] at hv
      cases hv
    · rw [hother v hvw] at hv
      obtain ⟨hlock, hclaim'⟩ := h.locked v due' attemptCount' startedAt renewedAt hv
      have hne : due'.key ≠ due.key := by
        intro hkey
        rw [hkey, hfree] at hlock
        cases hlock
      refine ⟨hlock, ?_⟩
      rw [show s'.claims due'.key = s.claims due'.key from Function.update_of_ne hne ..]
      exact hclaim'

/-- A write that passed the fence: the attempt is the last one, so the analysis is later than, and
goes beyond, every earlier one. -/
theorem Inv.commit {s : State} {w : ℕ} {due : Due} {attemptCount : ℕ} {startedAt renewedAt : ℤ}
    {batch : List Due} {row : ConversationAnalysis} (h : Inv s)
    (hw : s.workers w = ⟨.renewed due attemptCount startedAt renewedAt, batch⟩) :
    Inv { s.become w .between batch with
        claims := Function.update s.claims due.key (some ⟨renewedAt, attemptCount⟩)
        holder := s.release w
        analyses := s.analyses ++ [written due startedAt row] } ∧
      ∀ key, watermark s.analyses key ≤
        watermark (s.analyses ++ [written due startedAt row]) key := by
  have hwork : (s.workers w).phase.work = some (due, attemptCount, some startedAt) := by rw [hw]; rfl
  have hfenced := h.fenced w due attemptCount _ hwork
  obtain ⟨hlock, claim, hclaim, hattempt⟩ := h.locked w due attemptCount startedAt renewedAt
    (by rw [hw])
  have hbehind := hfenced.behind claim hclaim hattempt
  have hsequence : ∀ analysis ∈ s.analyses, analysis.key = due.key →
      analysis.analyzedThroughSequence ≤ watermark s.analyses due.key := by
    intro analysis hmem hkey
    rw [← hkey]
    exact h.bounded analysis hmem
  have hmark := fun key => watermark_written row
    (hfenced.later claim startedAt hclaim hattempt rfl)
    (fun analysis hmem hkey => (hsequence analysis hmem hkey).trans hbehind.le) key
  have hgrows : ∀ key, watermark s.analyses key ≤
      watermark (s.analyses ++ [written due startedAt row]) key := by
    intro key
    rw [hmark]
    split
    · rename_i hkey
      rw [hkey]
      exact hbehind.le
    · exact le_rfl
  refine ⟨?_, hgrows⟩
  set s' : State := { s.become w .between batch with
    claims := Function.update s.claims due.key (some ⟨renewedAt, attemptCount⟩)
    holder := s.release w
    analyses := s.analyses ++ [written due startedAt row] } with hs'
  have hself : s'.workers w = ⟨.between, batch⟩ := become_workers_self s ..
  have hother : ∀ v work, (s'.workers v).phase.work = some work →
      v ≠ w ∧ s'.workers v = s.workers v := by
    intro v work hv
    have hvw : v ≠ w := by
      rintro rfl
      rw [hself] at hv
      cases hv
    exact ⟨hvw, become_workers_of_ne s _ _ hvw⟩
  refine ⟨?_, ?_, ?_, ?_, ?_, ?_⟩
  · intro analysis hmem
    rcases List.mem_append.mp hmem with hold | hnew
    · exact h.dated analysis hold
    · rw [List.mem_singleton.mp hnew]
      exact hfenced.past startedAt rfl
  · intro analysis hmem
    rcases List.mem_append.mp hmem with hold | hnew
    · exact (h.bounded analysis hold).trans (hgrows analysis.key)
    · rw [List.mem_singleton.mp hnew]
      change due.maxSequence ≤ watermark (s.analyses ++ [written due startedAt row]) due.key
      rw [hmark, if_pos rfl]
  · change ((s.analyses ++ [written due startedAt row]).map _).Nodup
    rw [List.map_append]
    refine h.once.append (List.nodup_singleton _) ?_
    intro pair hpair hnew
    obtain ⟨analysis, hmem, rfl⟩ := List.mem_map.mp hpair
    rw [List.map_singleton, List.mem_singleton, Prod.mk.injEq] at hnew
    have hle := hsequence analysis hmem hnew.1
    have heq : analysis.analyzedThroughSequence = due.maxSequence := hnew.2
    omega
  · intro v due' attemptCount' startedAt' hv
    obtain ⟨hvw, hsame⟩ := hother v _ hv
    rw [hsame] at hv
    have hfenced' := h.fenced v due' attemptCount' startedAt' hv
    by_cases hkey : due'.key = due.key
    · -- another attempt at the conversation is an older one
      obtain ⟨claim', hclaim', hle⟩ := hfenced'.made
      rw [hkey, hclaim] at hclaim'
      cases hclaim'
      have hne : attemptCount' ≠ attemptCount := fun heq =>
        hvw (h.single v w due' due attemptCount' startedAt' _ hv (heq ▸ hwork) hkey)
      refine hfenced'.superseded ⟨renewedAt, attemptCount⟩ ?_ (by dsimp only; omega) le_rfl
      rw [hkey]
      exact Function.update_self ..
    · have hclaims : s'.claims due'.key = s.claims due'.key := Function.update_of_ne hkey ..
      refine ⟨?_, ?_, ?_, hfenced'.past⟩
      · rw [hclaims]
        exact hfenced'.made
      · intro other hother' hattempt'
        rw [hclaims] at hother'
        change watermark (s.analyses ++ [written due startedAt row]) due'.key < due'.maxSequence
        rw [hmark, if_neg hkey]
        exact hfenced'.behind other hother' hattempt'
      · intro other date hother' hattempt' hdate analysis hmem hanalysis
        rw [hclaims] at hother'
        rcases List.mem_append.mp hmem with hold | hnew
        · exact hfenced'.later other date hother' hattempt' hdate analysis hold hanalysis
        · rw [List.mem_singleton.mp hnew] at hanalysis
          exact absurd hanalysis.symm hkey
  · intro v u due' due'' attemptCount' startedAt' startedAt'' hv hu
    obtain ⟨_, hsame⟩ := hother v _ hv
    obtain ⟨_, hsame'⟩ := hother u _ hu
    rw [hsame] at hv
    rw [hsame'] at hu
    exact h.single v u due' due'' attemptCount' _ _ hv hu
  · intro v due' attemptCount' startedAt' renewedAt' hv
    obtain ⟨hvw, hsame⟩ := hother v (due', attemptCount', some startedAt') (by rw [hv]; rfl)
    rw [hsame] at hv
    obtain ⟨hlock', hclaim'⟩ := h.locked v due' attemptCount' startedAt' renewedAt' hv
    have hne : due'.key ≠ due.key := by
      intro hkey
      rw [hkey, hlock] at hlock'
      exact hvw (Option.some.inj hlock').symm
    refine ⟨?_, ?_⟩
    · change (if s.holder due'.key = some w then none else s.holder due'.key) = some v
      rw [hlock', if_neg (by simpa using hvw)]
    · rw [show s'.claims due'.key = s.claims due'.key from Function.update_of_ne hne ..]
      exact hclaim'

/-! ## Runs -/

/-- No watermark goes back. -/
def Advances (s s' : State) : Prop :=
  ∀ key, watermark s.analyses key ≤ watermark s'.analyses key

theorem advances_of_analyses {s s' : State} (h : s'.analyses = s.analyses) : Advances s s' := by
  intro key
  rw [h]

theorem Inv.claimNext {s : State} {w : ℕ} {now : ℤ} {due : Due} {batch : List Due} (h : Inv s)
    (hfree : s.holder due.key = none)
    (hcurrent : (s.claims due.key).all (Claim.expired s.clock) = true →
      watermark s.analyses due.key < due.maxSequence) :
    Inv (s.claimNext w now due batch) ∧ Advances s (s.claimNext w now due batch) := by
  unfold State.claimNext
  split
  · rename_i hnone
    rw [hnone] at hcurrent
    refine ⟨h.claim hfree (fun claim hclaim => ?_) (hcurrent rfl), advances_of_analyses rfl⟩
    rw [hnone] at hclaim
    cases hclaim
  · rename_i claim hclaim
    rw [hclaim] at hcurrent
    split
    · rename_i hexpired
      refine ⟨h.claim hfree (fun other hother => ?_) (hcurrent hexpired), advances_of_analyses rfl⟩
      rw [hclaim] at hother
      cases hother
      omega
    · exact ⟨h.become_between, advances_of_analyses rfl⟩

theorem Inv.step {s s' : State} {act : Act} (h : Inv s) (hok : Current s act)
    (hstep : s.step act = some s') : Inv s' ∧ Advances s s' := by
  cases act with
  | tick clock =>
    simp only [State.step] at hstep
    split at hstep
    · rename_i hclock
      cases hstep
      exact ⟨h.quiet rfl rfl hclock (fun _ => .inl rfl) fun _ _ _ hlock => hlock,
        advances_of_analyses rfl⟩
    · cases hstep
  | message key sequence =>
    simp only [State.step] at hstep
    split at hstep
    · cases hstep
      exact ⟨h.quiet rfl rfl le_rfl (fun _ => .inl rfl) fun _ _ _ hlock => hlock,
        advances_of_analyses rfl⟩
    · cases hstep
  | poll w keys =>
    simp only [State.step] at hstep
    split at hstep
    · split at hstep
      · cases hstep
        exact ⟨h.become_between, advances_of_analyses rfl⟩
      · cases hstep
    · cases hstep
  | claim w now =>
    simp only [State.step] at hstep
    split at hstep
    · rename_i due batch hw
      split at hstep
      · rename_i hfree
        cases hstep
        exact h.claimNext hfree (hok due batch hw)
      · cases hstep
    · cases hstep
  | abandon w =>
    simp only [State.step] at hstep
    split at hstep
    · cases hstep
      exact ⟨h.become_between, advances_of_analyses rfl⟩
    · cases hstep
  | begin w =>
    simp only [State.step] at hstep
    split at hstep
    · rename_i due attemptCount batch hw
      cases hstep
      exact ⟨h.begin hw, advances_of_analyses rfl⟩
    · cases hstep
  | renew w now =>
    simp only [State.step] at hstep
    split at hstep
    · rename_i due attemptCount startedAt batch hw
      split at hstep
      · rename_i hfree
        split at hstep
        · rename_i hclaim
          cases hstep
          obtain ⟨claim, hclaim, hattempt⟩ := (Option.any_eq_true _ _).mp hclaim
          exact ⟨h.renew hw hfree ⟨claim, hclaim, of_decide_eq_true hattempt⟩,
            advances_of_analyses rfl⟩
        · cases hstep
          exact ⟨h.become_between, advances_of_analyses rfl⟩
      · cases hstep
    · cases hstep
  | commit w row =>
    simp only [State.step] at hstep
    split at hstep
    · rename_i due attemptCount startedAt renewedAt batch hw
      cases hstep
      exact h.commit hw
    · cases hstep
  | crash w =>
    cases hstep
    refine ⟨h.quiet rfl rfl le_rfl (fun v => ?_) fun v key hv hlock => ?_, advances_of_analyses rfl⟩
    · by_cases hvw : v = w
      · right
        rw [hvw]
        exact congrArg Worker.phase (become_workers_self s w .between [])
      · left
        exact congrArg Worker.phase (become_workers_of_ne s .between [] hvw)
    · have hvw : v ≠ w := by
        rintro rfl
        exact hv (congrArg Worker.phase (become_workers_self s v .between []))
      change (if s.holder key = some w then none else s.holder key) = some v
      rw [hlock, if_neg (by simpa using hvw)]

/-- Nothing analyzed, claimed or under way. -/
def initial (clock : ℤ) (messages : Key → ℕ) : State :=
  ⟨clock, messages, fun _ => none, fun _ => none, [], fun _ => ⟨.between, []⟩⟩

theorem inv_initial (clock : ℤ) (messages : Key → ℕ) : Inv (initial clock messages) := by
  refine ⟨by simp [initial], by simp [initial], List.nodup_nil, ?_, ?_, ?_⟩
  · intro w due attemptCount startedAt hw
    cases hw
  · intro w v due due' attemptCount startedAt startedAt' hw
    cases hw
  · intro w due attemptCount startedAt renewedAt hw
    cases hw

/-- In every run in which a claim succeeds only while the watermark is behind the sequence of the
worker's batch: the watermark of a conversation never decreases, and no two analyses are written for
one conversation and one sequence. -/
theorem watermark_advances {clock : ℤ} {messages : Key → ℕ} {acts later : List Act} {s t : State}
    (h : Run State.step Current (initial clock messages) acts s)
    (hlater : Run State.step Current s later t) :
    (∀ key, watermark s.analyses key ≤ watermark t.analyses key) ∧
    (t.analyses.map fun analysis => (analysis.key, analysis.analyzedThroughSequence)).Nodup := by
  have hs : Inv s := h.invariant (fun hs hok hstep => (hs.step hok hstep).1)
    (inv_initial clock messages)
  have ht : Inv t := hlater.invariant (fun hs hok hstep => (hs.step hok hstep).1) hs
  refine ⟨?_, ht.once⟩
  exact hlater.relates (fun s key => le_rfl) (fun h h' key => (h key).trans (h' key))
    (fun hs hok hstep => (hs.step hok hstep).1) (fun hs hok hstep => (hs.step hok hstep).2) hs

namespace Sample

def key : Key := ⟨"w", "wf", "c"⟩

def row : ConversationAnalysis := ⟨"a", "", "", "", none, 0, "v2", none, none, 0, 0, 0, 0⟩

def messages : Key → ℕ := Function.update (fun _ => 0) key 5

/-- One worker analyzes the conversation. -/
def alone : List Act := [.poll 0 [key], .claim 0 0, .begin 0, .renew 0 0, .commit 0 row]

/-- Worker 0 has read its batch before the conversation grew and worker 1 analyzed it; it comes to
the conversation when the claim has expired. -/
def late : List Act :=
  [.poll 0 [key], .message key 10, .poll 1 [key], .claim 1 0, .begin 1, .renew 1 0,
    .commit 1 row]

def lateWrite : List Act := [.tick 300001, .claim 0 300001, .begin 0, .renew 0 300001,
  .commit 0 row]

/-- Two workers with one batch. -/
def twice : List Act :=
  [.poll 0 [key], .poll 1 [key], .claim 1 0, .begin 1, .renew 1 0, .commit 1 row,
    .tick 300001, .claim 0 300001, .begin 0, .renew 0 300001, .commit 0 row]

end Sample

theorem watermark_advances_alone : ∃ s t,
    Run State.step Current (initial 0 Sample.messages) Sample.alone s ∧
    Run State.step Current s [.message Sample.key 6] t ∧ watermark s.analyses Sample.key = 5 ∧
    watermark s.analyses Sample.key ≤ watermark t.analyses Sample.key := by
  have hrun : ∃ s t, Run State.step Current (initial 0 Sample.messages) Sample.alone s ∧
      Run State.step Current s [.message Sample.key 6] t ∧ watermark s.analyses Sample.key = 5 := by
    refine ⟨_, _, .cons trivial rfl (.cons ?_ rfl (.cons trivial rfl (.cons trivial rfl
      (.cons trivial rfl (.nil _))))), .cons trivial rfl (.nil _), rfl⟩
    intro due batch hw _
    cases hw
    decide
  obtain ⟨s, t, hrun, hlater, hmark⟩ := hrun
  exact ⟨s, t, hrun, hlater, hmark, (watermark_advances hrun hlater).1 Sample.key⟩

/-- The watermark goes back from ten to five, and one sequence is analyzed twice. -/
theorem watermark_goes_back :
    (∃ s t, Run State.step (fun _ _ => True) (initial 0 Sample.messages) Sample.late s ∧
      Run State.step (fun _ _ => True) s Sample.lateWrite t ∧
      watermark s.analyses Sample.key = 10 ∧ watermark t.analyses Sample.key = 5) ∧
    ∃ t, Run State.step (fun _ _ => True) (initial 0 Sample.messages) Sample.twice t ∧
      ¬(t.analyses.map fun analysis => (analysis.key, analysis.analyzedThroughSequence)).Nodup := by
  refine ⟨⟨_, _, Run.of_foldlM rfl, Run.of_foldlM rfl, rfl, rfl⟩, ⟨_, Run.of_foldlM rfl, ?_⟩⟩
  decide

end Linea.Analyzer
