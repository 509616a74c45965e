import Linea.Tables
import Linea.Outbox

/-! What a claim on an outbox message is worth. A dispatcher works on one message at a time, so the
row that names it as the claimant is the row it has claimed; a row that was taken over names
another one, and its writes miss. -/
namespace Linea.Outbox
open Linea.Tables
open Linea.Delivery (OutboxMessageStatus)

/-- The columns of a claim are set exactly while the message is being published. -/
structure ClaimSet (message : OutboxMessage) : Prop where
  claimedAt : message.claimedAt.isSome ↔ message.status = .publishing
  claimExpiresAt : message.claimExpiresAt.isSome ↔ message.status = .publishing
  claimedBy : message.claimedBy.isSome ↔ message.status = .publishing

/-- A job for the message has been added to the queue. -/
def Queued (jobs : List (String × String)) (message : OutboxMessage) : Prop :=
  ∀ id, executionId message.payload = some id → (id,message.id) ∈ jobs

/-- What a dispatcher may do to a message. -/
structure MessageMoves (jobs : List (String × String)) (dispatcher : String)
    (before after : OutboxMessage) : Prop where
  kind : after.kind = before.kind
  payload : after.payload = before.payload
  attempts : before.attempts ≤ after.attempts
  claim : ClaimSet before → ClaimSet after
  failed : after.status = .failed → before.status = .failed ∨
    (before.kind = .workflowExecution → executionId before.payload = none)
  published : after.status = .published → before.status = .published ∨
    (before.kind = .workflowExecution → Queued jobs before)
  claimedBy : ∀ other, other ≠ dispatcher → after.claimedBy = some other → after = before

/-- The row of a message that a dispatcher has claimed. -/
structure Claims (messages : List OutboxMessage) (dispatcher : String) (message : OutboxMessage)
    (row : OutboxMessage) : Prop where
  mem : row ∈ messages
  id : row.id = message.id
  kind : row.kind = message.kind
  payload : row.payload = message.payload
  attempts : row.status = .publishing → row.claimedBy = some dispatcher →
    row.attempts = message.attempts

/-- What a dispatcher knows at each point of its work. -/
def Knows (messages : List OutboxMessage) (jobs : List (String × String)) (dispatcher : String) :
    Work → Prop
  | .idle => True
  | .second input _ => input.claimedBy = dispatcher
  | .claimed message | .failing message _ _ => ∃ row, Claims messages dispatcher message row
  | .handedOver message => (∃ row, Claims messages dispatcher message row) ∧
      (message.kind = .workflowExecution → Queued jobs message)

structure Sound (w : World) : Prop where
  key : (w.messages.map (·.id)).Nodup
  claim : ∀ message ∈ w.messages, ClaimSet message
  failed : ∀ message ∈ w.messages, message.kind = .workflowExecution → message.status = .failed →
    executionId message.payload = none
  published : ∀ message ∈ w.messages, message.kind = .workflowExecution →
    message.status = .published → Queued w.jobs message
  working : ∀ dispatcher state, w.dispatchers dispatcher = some state →
    Knows w.messages w.jobs dispatcher state.work

section Moves
variable {messages : List OutboxMessage} {jobs : List (String × String)} {dispatcher : String}

lemma MessageMoves.refl (message : OutboxMessage) : MessageMoves jobs dispatcher message message :=
  ⟨rfl,rfl,le_rfl,id,.inl,.inl,fun _ _ _ => rfl⟩

abbrev MessagesEvolve (jobs : List (String × String)) (dispatcher : String)
    (messages messages' : List OutboxMessage) : Prop :=
  Evolves OutboxMessage.id (MessageMoves jobs dispatcher) (fun _ => False) (fun _ => False)
    messages messages'

lemma claimed_moves (input : ClaimInput) (message : OutboxMessage) :
    MessageMoves jobs input.claimedBy message (claimed input message) where
  kind := rfl
  payload := rfl
  attempts := Nat.le_succ _
  claim := fun _ => by constructor <;> simp [claimed]
  failed := fun hstatus => by cases hstatus
  published := fun hstatus => by cases hstatus
  claimedBy := fun other hother hclaimed => by
    cases hclaimed
    exact absurd rfl hother

lemma claimMessage_evolves (kind : OutboxMessageKind) (input : ClaimInput) (locked : List String) :
    MessagesEvolve jobs input.claimedBy messages
      (claimMessage kind messages input locked).2 := by
  simp only [claimMessage]
  split
  · exact .refl .refl
  · refine .update (fun message _ => ?_) fun message _ => ?_
    · split <;> rfl
    · split
      · exact claimed_moves input message
      · exact .refl message

/-- A claimed message is the row as it now stands. -/
lemma claimMessage_claims {kind : OutboxMessageKind} {input : ClaimInput} {locked : List String}
    {message : OutboxMessage} {messages' : List OutboxMessage}
    (h : claimMessage kind messages input locked = (some message,messages')) :
    Claims messages' input.claimedBy message message := by
  simp only [claimMessage] at h
  split at h
  case h_1 => cases h
  case h_2 candidate rest hsorted =>
    cases h
    have hmem : candidate ∈ messages := by
      have hhead : candidate ∈ candidate :: rest := List.mem_cons_self
      rw [← hsorted,List.mem_insertionSort] at hhead
      exact List.mem_of_mem_filter hhead
    refine ⟨List.mem_map.mpr ⟨candidate,hmem,if_pos rfl⟩,rfl,rfl,rfl,fun _ _ => rfl⟩

lemma updateHeld_evolves {messageId : String} {change : OutboxMessage → OutboxMessage}
    (hid : ∀ message, (change message).id = message.id)
    (hmoves : ∀ message ∈ messages, message.id = messageId →
      MessageMoves jobs dispatcher message (change message)) :
    MessagesEvolve jobs dispatcher messages
      (updateHeld messages messageId dispatcher change).2 := by
  refine .update (fun message _ => ?_) fun message hmessage => ?_
  · split
    · exact hid message
    · rfl
  · split
    case isTrue hheld =>
      simp only [heldBy,Bool.and_eq_true,decide_eq_true_eq] at hheld
      exact hmoves message hmessage hheld.1.1
    case isFalse => exact .refl message

lemma published_moves {publishedAt : ℕ} {message : OutboxMessage}
    (hqueued : message.kind = .workflowExecution → Queued jobs message) :
    MessageMoves jobs dispatcher message (published publishedAt message) where
  kind := rfl
  payload := rfl
  attempts := le_rfl
  claim := fun _ => by constructor <;> simp [published]
  failed := fun hstatus => by cases hstatus
  published := fun _ => .inr hqueued
  claimedBy := fun other _ hclaimed => by cases hclaimed

lemma failed_moves {input : FailureInput} {message : OutboxMessage}
    (hterminal : input.terminal = true → message.kind = .workflowExecution →
      executionId message.payload = none) :
    MessageMoves jobs dispatcher message (failed input message) where
  kind := rfl
  payload := rfl
  attempts := le_rfl
  claim := fun _ => by constructor <;> simp [failed] <;> split <;> simp
  failed := fun hstatus => by
    right
    refine hterminal ?_
    by_contra hretry
    simp [failed,hretry] at hstatus
  published := fun hstatus => by
    simp only [failed] at hstatus
    split at hstatus <;> cases hstatus
  claimedBy := fun other _ hclaimed => by cases hclaimed

/-- Another dispatcher's write leaves a claim what it was. -/
lemma Claims.evolve {other : String} {messages' : List OutboxMessage} {message row : OutboxMessage}
    (h : Claims messages other message row) (hne : other ≠ dispatcher)
    (hevolve : MessagesEvolve jobs dispatcher messages messages') :
    ∃ row', Claims messages' other message row' := by
  obtain ⟨row',hmem,hid,hmoves⟩ := (hevolve.kept row h.mem).resolve_right fun hgone => hgone
  refine ⟨row',hmem,hid.trans h.id,hmoves.kind.trans h.kind,hmoves.payload.trans h.payload,?_⟩
  intro hstatus hclaimed
  have hsame := hmoves.claimedBy other hne hclaimed
  subst hsame
  exact h.attempts hstatus hclaimed

lemma Queued.mono {jobs' : List (String × String)} {message : OutboxMessage}
    (h : Queued jobs message) (hjobs : jobs ⊆ jobs') : Queued jobs' message :=
  fun id hid => hjobs (h id hid)

lemma Knows.evolve {other : String} {jobs' : List (String × String)}
    {messages' : List OutboxMessage} {work : Work} (h : Knows messages jobs other work)
    (hne : other ≠ dispatcher) (hjobs : jobs ⊆ jobs')
    (hevolve : MessagesEvolve jobs' dispatcher messages messages') :
    Knows messages' jobs' other work := by
  cases work with
  | idle => trivial
  | second input kind => exact h
  | claimed message =>
    obtain ⟨row,hrow⟩ := h
    exact hrow.evolve hne hevolve
  | failing message error invalidEvent =>
    obtain ⟨row,hrow⟩ := h
    exact hrow.evolve hne hevolve
  | handedOver message =>
    obtain ⟨⟨row,hrow⟩,hqueued⟩ := h
    exact ⟨hrow.evolve hne hevolve,fun hkind => (hqueued hkind).mono hjobs⟩

end Moves

/-! ## Steps -/

section Step
variable {w w' : World} {dispatcher : String}

/-- The statement of one dispatcher: it may change messages, add jobs, and moves its own work on. -/
lemma Sound.update {messages : List OutboxMessage} {jobs : List (String × String)}
    {state : Dispatcher} {work : Work} (h : Sound w) (hjobs : w.jobs ⊆ jobs)
    (hevolve : MessagesEvolve jobs dispatcher w.messages messages)
    (hwork : Knows messages jobs dispatcher work) :
    Sound (World.setWork { w with messages, jobs } dispatcher state work) where
  key := hevolve.nodup h.key
  claim := by
    intro message hmessage
    obtain ⟨before,hbefore,-,hmoves⟩ := (hevolve.row message hmessage).resolve_right And.right
    exact hmoves.claim (h.claim before hbefore)
  failed := by
    intro message hmessage hkind hstatus
    obtain ⟨before,hbefore,-,hmoves⟩ := (hevolve.row message hmessage).resolve_right And.right
    rw [hmoves.kind] at hkind
    rw [hmoves.payload]
    rcases hmoves.failed hstatus with hfailed | hmalformed
    · exact h.failed before hbefore hkind hfailed
    · exact hmalformed hkind
  published := by
    intro message hmessage hkind hstatus
    obtain ⟨before,hbefore,hid,hmoves⟩ := (hevolve.row message hmessage).resolve_right And.right
    rw [hmoves.kind] at hkind
    have hqueued : Queued jobs before := by
      rcases hmoves.published hstatus with hpublished | hqueued
      · exact (h.published before hbefore hkind hpublished).mono hjobs
      · exact hqueued hkind
    intro executionId hexecution
    rw [hmoves.payload] at hexecution
    rw [hid]
    exact hqueued executionId hexecution
  working := by
    intro other state' hstate
    by_cases hother : other = dispatcher
    · subst hother
      rw [World.setWork_self] at hstate
      cases hstate
      exact hwork
    · rw [World.setWork_other _ hother] at hstate
      exact (h.working other state' hstate).evolve hother hjobs hevolve

/-- A statement that leaves the messages alone. -/
lemma Sound.progress {state : Dispatcher} {work : Work} (h : Sound w)
    (hwork : Knows w.messages w.jobs dispatcher work) :
    Sound (w.setWork dispatcher state work) :=
  h.update (List.Subset.refl _) (.refl .refl) hwork

lemma Sound.claimMessage {kind : OutboxMessageKind} {input : ClaimInput} {locked : List String}
    {message : OutboxMessage} {messages : List OutboxMessage} {state : Dispatcher} (h : Sound w)
    (hinput : input.claimedBy = dispatcher)
    (hclaim : claimMessage kind w.messages input locked = (some message,messages)) :
    Sound (World.setWork { w with messages } dispatcher state (.claimed message)) := by
  subst hinput
  refine h.update (List.Subset.refl _) ?_ ⟨message,claimMessage_claims hclaim⟩
  have hevolve : MessagesEvolve w.jobs input.claimedBy w.messages
      (Outbox.claimMessage kind w.messages input locked).2 := claimMessage_evolves kind input locked
  rw [hclaim] at hevolve
  exact hevolve

/-- The dispatcher that has handed a message over may mark it published. -/
lemma Sound.markPublished_evolves (h : Sound w) {message : OutboxMessage} {publishedAt : ℕ}
    (hknows : Knows w.messages w.jobs dispatcher (.handedOver message)) :
    MessagesEvolve w.jobs dispatcher w.messages
      (markOutboxMessagePublished w.messages message.id dispatcher publishedAt).2 := by
  obtain ⟨⟨row,hrow⟩,hqueued⟩ := hknows
  refine updateHeld_evolves (fun _ => rfl) fun other hother hid => published_moves fun hkind => ?_
  rw [List.inj_on_of_nodup_map h.key hother hrow.mem (hid.trans hrow.id.symm)] at hkind ⊢
  intro executionId hexecution
  rw [hrow.id]
  exact hqueued (hrow.kind ▸ hkind) executionId (hrow.payload ▸ hexecution)

lemma Sound.recordFailure_evolves (h : Sound w) {message : OutboxMessage} {error : String}
    {invalidEvent : Bool} {failedAt : ℕ}
    (hknows : Knows w.messages w.jobs dispatcher (.failing message error invalidEvent)) :
    MessagesEvolve w.jobs dispatcher w.messages (recordOutboxMessageFailure w.messages
      (failureInput dispatcher message error invalidEvent failedAt)).2 := by
  obtain ⟨row,hrow⟩ := hknows
  refine updateHeld_evolves (fun _ => rfl) fun other hother hid =>
    failed_moves fun hterminal hkind => ?_
  rw [List.inj_on_of_nodup_map h.key hother hrow.mem (hid.trans hrow.id.symm),hrow.kind] at hkind
  rw [List.inj_on_of_nodup_map h.key hother hrow.mem (hid.trans hrow.id.symm),hrow.payload]
  simpa [failureInput,hkind] using hterminal

/-- A dispatcher that has marked its message cannot find itself as the claimant again. -/
lemma claims_markPublished {message : OutboxMessage} {publishedAt : ℕ}
    (h : ∃ row, Claims w.messages dispatcher message row) :
    ∃ row, Claims (markOutboxMessagePublished w.messages message.id dispatcher publishedAt).2
      dispatcher message row := by
  obtain ⟨row,hrow⟩ := h
  by_cases hheld : heldBy message.id dispatcher row = true
  · refine ⟨published publishedAt row,List.mem_map.mpr ⟨row,hrow.mem,if_pos hheld⟩,hrow.id,hrow.kind,
      hrow.payload,?_⟩
    intro hstatus
    cases hstatus
  · exact ⟨row,List.mem_map.mpr ⟨row,hrow.mem,if_neg hheld⟩,hrow.id,hrow.kind,hrow.payload,
      hrow.attempts⟩

lemma Sound.insert {id : String} {kind : OutboxMessageKind} {payload : List (String × Value)}
    {availableAt : ℕ} (h : Sound w) (hfresh : w.messages.any (·.id = id) = false) :
    Sound { w with messages := w.messages ++ [createMessage id kind payload availableAt] } := by
  have hkey : id ∉ w.messages.map (·.id) := by
    intro hmem
    obtain ⟨message,hmessage,hid⟩ := List.mem_map.mp hmem
    exact absurd hid (by simpa using List.any_eq_false.mp hfresh message hmessage)
  have hrow : ∀ message ∈ w.messages ++ [createMessage id kind payload availableAt],
      message ∈ w.messages ∨ message = createMessage id kind payload availableAt := by
    intro message hmessage
    rcases List.mem_append.mp hmessage with hmessage | hmessage
    · exact .inl hmessage
    · exact .inr (List.mem_singleton.mp hmessage)
  have hclaims : ∀ {dispatcher : String} {message : OutboxMessage},
      (∃ row, Claims w.messages dispatcher message row) →
      ∃ row, Claims (w.messages ++ [createMessage id kind payload availableAt]) dispatcher message
        row := by
    rintro dispatcher message ⟨row,hrow⟩
    exact ⟨row,List.mem_append_left _ hrow.mem,hrow.id,hrow.kind,hrow.payload,hrow.attempts⟩
  refine ⟨?_,?_,?_,?_,?_⟩
  · rw [List.map_append]
    refine List.nodup_append.mpr ⟨h.key,List.nodup_singleton _,?_⟩
    intro a ha b hb hab
    rw [List.map_singleton,List.mem_singleton] at hb
    rw [hab,hb] at ha
    exact hkey ha
  · intro message hmessage
    rcases hrow message hmessage with hmessage | rfl
    · exact h.claim message hmessage
    · constructor <;> simp [createMessage]
  · intro message hmessage hkind hstatus
    rcases hrow message hmessage with hmessage | rfl
    · exact h.failed message hmessage hkind hstatus
    · cases hstatus
  · intro message hmessage hkind hstatus
    rcases hrow message hmessage with hmessage | rfl
    · exact h.published message hmessage hkind hstatus
    · cases hstatus
  · intro dispatcher state hstate
    have hknows := h.working dispatcher state hstate
    cases hwork : state.work with
    | idle => trivial
    | second input kind =>
      rw [hwork] at hknows
      exact hknows
    | claimed message =>
      rw [hwork] at hknows
      exact hclaims hknows
    | failing message error invalidEvent =>
      rw [hwork] at hknows
      exact hclaims hknows
    | handedOver message =>
      rw [hwork] at hknows
      exact ⟨hclaims hknows.1,hknows.2⟩

/-- A dispatcher that comes or goes has nothing under way. -/
lemma Sound.replace {state : Option Dispatcher} (h : Sound w)
    (hstate : ∀ state', state = some state' → state'.work = .idle) :
    Sound { w with dispatchers := Function.update w.dispatchers dispatcher state } := by
  refine ⟨h.key,h.claim,h.failed,h.published,fun other state' hother => ?_⟩
  by_cases hsame : other = dispatcher
  · subst hsame
    simp only [Function.update_self] at hother
    rw [hstate state' hother]
    trivial
  · simp only [Function.update_of_ne hsame] at hother
    exact h.working other state' hother

lemma Sound.step (h : Sound w) {action : Action} (hstep : w.step action = some w') : Sound w' := by
  cases action with
  | insert id kind payload availableAt =>
    simp only [World.step] at hstep
    split at hstep
    case isTrue => cases hstep
    case isFalse hfresh =>
      cases hstep
      exact h.insert (by simpa using hfresh)
  | boot dispatcher =>
    simp only [World.step] at hstep
    split at hstep
    · cases hstep
    · cases hstep
      exact h.replace fun state' hstate => by cases hstate; rfl
  | crash dispatcher =>
    cases hstep
    exact h.replace fun state' hstate => by cases hstate
  | claimFirst dispatcher now locked =>
    simp only [World.step] at hstep
    split at hstep
    case h_2 => cases hstep
    case h_1 next hdispatcher =>
      split at hstep
      case h_1 message messages hclaim =>
        cases hstep
        exact h.claimMessage rfl hclaim
      case h_2 =>
        cases hstep
        exact h.progress rfl
  | claimSecond dispatcher locked =>
    simp only [World.step] at hstep
    split at hstep
    case h_2 => cases hstep
    case h_1 next input kind hdispatcher =>
      have hknows := h.working dispatcher _ hdispatcher
      split at hstep
      case h_1 message messages hclaim =>
        cases hstep
        exact h.claimMessage hknows hclaim
      case h_2 =>
        cases hstep
        exact h.progress trivial
  | enqueue dispatcher answer =>
    simp only [World.step] at hstep
    split at hstep
    case h_2 => cases hstep
    case h_1 next message hdispatcher =>
      have hknows := h.working dispatcher _ hdispatcher
      split at hstep
      case isTrue => cases hstep
      case isFalse =>
        split at hstep
        case h_1 =>
          cases hstep
          exact h.progress hknows
        case h_2 executionId hexecution =>
          have hjobs : w.jobs ⊆ w.jobs ++ [(executionId,message.id)] :=
            List.subset_append_left ..
          cases answer with
          | refused error =>
            cases hstep
            exact h.progress hknows
          | late error =>
            cases hstep
            exact h.update hjobs (.refl .refl) hknows
          | added =>
            cases hstep
            refine h.update hjobs (.refl .refl) ⟨hknows,fun _ id hid => ?_⟩
            rw [hexecution] at hid
            cases hid
            exact List.mem_append_right _ (List.mem_singleton.mpr rfl)
  | prepare dispatcher answer =>
    simp only [World.step] at hstep
    split at hstep
    case h_2 => cases hstep
    case h_1 next message hdispatcher =>
      have hknows := h.working dispatcher _ hdispatcher
      split at hstep
      case isTrue => cases hstep
      case isFalse hkind =>
        cases answer with
        | enqueued =>
          cases hstep
          refine h.progress ⟨hknows,fun hworkflow => ?_⟩
          rw [hworkflow] at hkind
          exact absurd OutboxMessageKind.noConfusion hkind
        | invalidEvent error =>
          cases hstep
          exact h.progress hknows
        | refused error =>
          cases hstep
          exact h.progress hknows
  | markPublished dispatcher publishedAt =>
    simp only [World.step] at hstep
    split at hstep
    case h_2 => cases hstep
    case h_1 next message hdispatcher =>
      cases hstep
      have hknows := h.working dispatcher _ hdispatcher
      refine h.update (List.Subset.refl _) (h.markPublished_evolves hknows) ?_
      split
      · trivial
      · exact claims_markPublished hknows.1
  | recordFailure dispatcher failedAt =>
    simp only [World.step] at hstep
    split at hstep
    case h_2 => cases hstep
    case h_1 next message error invalidEvent hdispatcher =>
      cases hstep
      exact h.update (List.Subset.refl _)
        (h.recordFailure_evolves (h.working dispatcher _ hdispatcher)) trivial
  | claimLost dispatcher now locked =>
    simp only [World.step] at hstep
    split at hstep
    case h_3 => cases hstep
    case h_1 next hdispatcher =>
      cases hstep
      exact h.update (List.Subset.refl _)
        (claimMessage_evolves _ ⟨dispatcher,now,now + claimLeaseMs⟩ locked) trivial
    case h_2 next input kind hdispatcher =>
      cases hstep
      have hknows : input.claimedBy = dispatcher := h.working dispatcher _ hdispatcher
      subst hknows
      exact h.update (List.Subset.refl _) (claimMessage_evolves ..) trivial
  | markLost dispatcher error publishedAt =>
    simp only [World.step] at hstep
    split at hstep
    case h_2 => cases hstep
    case h_1 next message hdispatcher =>
      have hknows := h.working dispatcher _ hdispatcher
      cases publishedAt with
      | none =>
        cases hstep
        exact h.progress hknows.1
      | some publishedAt =>
        cases hstep
        exact h.update (List.Subset.refl _) (h.markPublished_evolves hknows)
          (claims_markPublished hknows.1)
  | recordLost dispatcher failedAt =>
    simp only [World.step] at hstep
    split at hstep
    case h_2 => cases hstep
    case h_1 next message error invalidEvent hdispatcher =>
      cases failedAt with
      | none =>
        cases hstep
        exact h.progress trivial
      | some failedAt =>
        cases hstep
        exact h.update (List.Subset.refl _)
          (h.recordFailure_evolves (h.working dispatcher _ hdispatcher)) trivial

end Step

lemma sound_empty : Sound World.empty := by
  constructor <;> simp [World.empty]

lemma Sound.run {actions : List Action} {w' : World} : ∀ {w : World}, Sound w →
    World.run w actions = some w' → Sound w' := by
  induction actions with
  | nil =>
    intro w h hrun
    cases hrun
    exact h
  | cons action actions ih =>
    intro w h hrun
    obtain ⟨next,hstep,hrest⟩ := Option.bind_eq_some_iff.mp hrun
    exact ih (h.step hstep) hrest

/-! ## What a claim is worth -/

/-- The message that a dispatcher works on. -/
def Work.message : Work → Option OutboxMessage
  | .claimed message | .handedOver message | .failing message _ _ => some message
  | .idle | .second _ _ => none

lemma Knows.claims {messages : List OutboxMessage} {jobs : List (String × String)}
    {dispatcher : String} {work : Work} {message : OutboxMessage}
    (h : Knows messages jobs dispatcher work) (hwork : work.message = some message) :
    ∃ row, Claims messages dispatcher message row := by
  cases work with
  | idle => cases hwork
  | second input kind => cases hwork
  | claimed other =>
    cases hwork
    exact h
  | failing other error invalidEvent =>
    cases hwork
    exact h
  | handedOver other =>
    cases hwork
    exact h.1

lemma updateHeld_missed {messages : List OutboxMessage} {messageId dispatcher : String}
    {change : OutboxMessage → OutboxMessage}
    (h : ∀ row ∈ messages, heldBy messageId dispatcher row = false) :
    updateHeld messages messageId dispatcher change = (false,messages) := by
  have hany : messages.any (heldBy messageId dispatcher) = false := by
    rw [List.any_eq_false]
    exact fun row hrow => by simp [h row hrow]
  have hsame : messages.map (fun row =>
      if heldBy messageId dispatcher row then change row else row) = messages := by
    conv_rhs => rw [← List.map_id' messages]
    refine List.map_congr_left fun row hrow => if_neg ?_
    simp [h row hrow]
  rw [updateHeld,hany,hsame]

/-- A message that has been claimed again is out of reach of the dispatcher that claimed it before,
which still works on it. -/
lemma Sound.takenOver {w : World} (h : Sound w) {dispatcher : String} {state : Dispatcher}
    {message row : OutboxMessage} (hstate : w.dispatchers dispatcher = some state)
    (hwork : state.work.message = some message) (hrow : row ∈ w.messages)
    (hid : row.id = message.id) (hagain : row.attempts ≠ message.attempts) :
    ∀ other ∈ w.messages, heldBy message.id dispatcher other = false := by
  obtain ⟨claims,hclaims⟩ := (h.working dispatcher state hstate).claims hwork
  intro other hother
  by_contra hheld
  simp only [Bool.not_eq_false,heldBy,Bool.and_eq_true,decide_eq_true_eq] at hheld
  have hsame : other = claims :=
    List.inj_on_of_nodup_map h.key hother hclaims.mem (hheld.1.1.trans hclaims.id.symm)
  have hsame' : row = claims :=
    List.inj_on_of_nodup_map h.key hrow hclaims.mem (hid.trans hclaims.id.symm)
  subst hsame
  subst hsame'
  exact hagain (hclaims.attempts hheld.1.2 hheld.2)

/-- A message that is neither published nor failed can be claimed from some time on. -/
lemma claimable_later {message : OutboxMessage} (hclaim : ClaimSet message)
    (hfailed : message.status ≠ .failed) (hpublished : message.status ≠ .published) :
    ∃ since, ∀ now, since ≤ now → claimable message.kind now message = true := by
  cases hstatus : message.status with
  | pending =>
    refine ⟨message.availableAt / 1000,fun now hnow => ?_⟩
    simp [claimable,hstatus,hnow]
  | publishing =>
    obtain ⟨expiresAt,hexpires⟩ := Option.isSome_iff_exists.mp (hclaim.claimExpiresAt.mpr hstatus)
    refine ⟨expiresAt,fun now hnow => ?_⟩
    have hle : expiresAt ≤ column now := hnow.trans (Nat.le_mul_of_pos_right now (by decide))
    simp [claimable,hstatus,hexpires,hle]
  | published => exact absurd hstatus hpublished
  | failed => exact absurd hstatus hfailed

/-- A claimable message is claimed when the rows before it are locked. -/
lemma claimMessage_claimable {messages : List OutboxMessage} {message : OutboxMessage}
    {input : ClaimInput} (hkey : (messages.map (·.id)).Nodup) (hmessage : message ∈ messages)
    (hclaimable : claimable message.kind input.now message = true) :
    ∃ locked, (claimMessage message.kind messages input locked).1 = some (claimed input message) := by
  refine ⟨(messages.map (·.id)).filter (· ≠ message.id),?_⟩
  have hmem : message ∈ (messages.filter fun row => claimable message.kind input.now row &&
      row.id ∉ (messages.map (·.id)).filter (· ≠ message.id)).insertionSort
        (fun first second => dueBefore first second = true) := by
    rw [List.mem_insertionSort]
    exact List.mem_filter.mpr ⟨hmessage,by simp [hclaimable]⟩
  simp only [claimMessage]
  split
  case h_1 hnone =>
    rw [hnone] at hmem
    cases hmem
  case h_2 candidate rest hsorted =>
    have hhead : candidate ∈ candidate :: rest := List.mem_cons_self
    rw [← hsorted,List.mem_insertionSort] at hhead
    obtain ⟨hcandidate,hguard⟩ := List.mem_filter.mp hhead
    simp only [Bool.and_eq_true,decide_eq_true_eq,List.mem_filter,not_and,not_not] at hguard
    have hid : candidate.id = message.id := by
      by_contra hne
      exact hne (hguard.2 (List.mem_map_of_mem hcandidate))
    rw [List.inj_on_of_nodup_map hkey hcandidate hmessage hid]

/-- Outbox delivery, over every run of any number of dispatchers. -/
theorem outbox_delivery {actions : List Action} {w : World}
    (hrun : World.run World.empty actions = some w) :
    (∀ message ∈ w.messages, message.kind = .workflowExecution →
      ∀ id, executionId message.payload = some id →
        message.status ≠ .failed ∧
        (message.status = .published → (id,message.id) ∈ w.jobs) ∧
        (message.status ≠ .published → ∃ since, ∀ input : ClaimInput, since ≤ input.now →
          ∃ locked, (claimWorkflowExecutionMessage w.messages input locked).1
            = some (claimed input message))) ∧
    (∀ dispatcher state message, w.dispatchers dispatcher = some state →
      state.work.message = some message →
      ∀ row ∈ w.messages, row.id = message.id → row.attempts ≠ message.attempts →
        (∀ publishedAt, markOutboxMessagePublished w.messages message.id dispatcher publishedAt
          = (false,w.messages)) ∧
        ∀ input, input.messageId = message.id → input.claimedBy = dispatcher →
          recordOutboxMessageFailure w.messages input = (false,w.messages)) ∧
    ∀ message ∈ w.messages,
      (message.claimedAt.isSome ↔ message.status = .publishing) ∧
      (message.claimExpiresAt.isSome ↔ message.status = .publishing) ∧
      (message.claimedBy.isSome ↔ message.status = .publishing) := by
  have h := sound_empty.run hrun
  refine ⟨?_,?_,?_⟩
  · intro message hmessage hkind id hid
    have hfailed : message.status ≠ .failed := by
      intro hfailed
      rw [h.failed message hmessage hkind hfailed] at hid
      cases hid
    refine ⟨hfailed,fun hpublished => h.published message hmessage hkind hpublished id hid,?_⟩
    intro hpublished
    obtain ⟨since,hsince⟩ := claimable_later (h.claim message hmessage) hfailed hpublished
    refine ⟨since,fun input hinput => ?_⟩
    have hclaims := claimMessage_claimable h.key hmessage (hsince input.now hinput)
    rw [hkind] at hclaims
    exact hclaims
  · intro dispatcher state message hstate hwork row hrow hid hagain
    have hmissed := h.takenOver hstate hwork hrow hid hagain
    refine ⟨fun publishedAt => updateHeld_missed hmissed,?_⟩
    intro input hmessage hclaimant
    rw [recordOutboxMessageFailure,hmessage,hclaimant]
    exact updateHeld_missed hmissed
  · intro message hmessage
    have hclaim := h.claim message hmessage
    exact ⟨hclaim.claimedAt,hclaim.claimExpiresAt,hclaim.claimedBy⟩

/-- The claim of `first` runs out while its job is handed over, and `second` takes the message. -/
def takenOverRun : List Action :=
  [.insert "message" .workflowExecution [("executionId",.string "execution")] 0,.boot "first",
    .boot "second",.claimFirst "first" 10 [],.enqueue "first" .added,
    .claimFirst "second" 40000 [],.enqueue "second" .added,.markPublished "first" 40001]

theorem outbox_delivery_takenOver : ∃ w, World.run World.empty takenOverRun = some w ∧
    w.messages.map (fun message => (message.status,message.claimedBy))
      = [(.publishing,some "second")] ∧
    ∀ message ∈ w.messages,
      (message.claimedAt.isSome ↔ message.status = .publishing) ∧
      (message.claimExpiresAt.isSome ↔ message.status = .publishing) ∧
      (message.claimedBy.isSome ↔ message.status = .publishing) := by
  have hrun : World.run World.empty takenOverRun = some _ := rfl
  exact ⟨_,hrun,rfl,(outbox_delivery hrun).2.2⟩

end Linea.Outbox
