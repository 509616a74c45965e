import Linea.Webhooks
import Mathlib.Data.List.Nodup
import Mathlib.Algebra.Order.Group.Nat

/-! Where a delivery is when its job is over. A worker that begins an attempt on an enabled endpoint
whose secret it can read always writes an outcome under the attempt's number, or finds that the
delivery has ended or that a later attempt has taken its place. -/
namespace Linea.Webhooks

/-- What holds of the row of a delivery, when it is there. -/
def Row (s : Store) (deliveryId : String) (property : WebhookDelivery → Prop) : Prop :=
  ∀ delivery ∈ s.deliveries, delivery.id = deliveryId → property delivery

/-- The rows were changed in place. -/
structure Rewrites (f : WebhookDelivery → WebhookDelivery) (s s' : Store) : Prop where
  deliveries : s'.deliveries = s.deliveries.map f
  id : ∀ delivery, (f delivery).id = delivery.id
  attempts : ∀ delivery, delivery.attempts ≤ (f delivery).attempts
  ended : ∀ delivery, terminal delivery = true → f delivery = delivery

section Rows
variable {f : WebhookDelivery → WebhookDelivery} {s s' : Store} {deliveryId : String}
  {property : WebhookDelivery → Prop}

lemma Rewrites.row (h : Rewrites f s s')
    (hrow : ∀ delivery ∈ s.deliveries, delivery.id = deliveryId → property (f delivery)) :
    Row s' deliveryId property := by
  intro delivery hdelivery hid
  rw [h.deliveries] at hdelivery
  obtain ⟨before,hbefore,rfl⟩ := List.mem_map.mp hdelivery
  exact hrow before hbefore ((h.id before).symm.trans hid)

lemma Rewrites.key (h : Rewrites f s s') (hkey : (s.deliveries.map (·.id)).Nodup) :
    (s'.deliveries.map (·.id)).Nodup := by
  have hsame : s'.deliveries.map (·.id) = s.deliveries.map (·.id) := by
    rw [h.deliveries,List.map_map]
    exact List.map_congr_left fun delivery _ => h.id delivery
  rw [hsame]
  exact hkey

/-- A delivery that has ended keeps its row as it is. -/
lemma Rewrites.kept (h : Rewrites f s s') {delivery : WebhookDelivery}
    (hdelivery : delivery ∈ s.deliveries) (hterminal : terminal delivery = true) :
    delivery ∈ s'.deliveries := by
  rw [h.deliveries]
  exact List.mem_map.mpr ⟨delivery,hdelivery,h.ended delivery hterminal⟩

lemma Rewrites.refl : Rewrites (fun delivery => delivery) s s :=
  ⟨(List.map_id' _).symm,fun _ => rfl,fun _ => le_rfl,fun _ _ => rfl⟩

lemma unfinished_eq (delivery : WebhookDelivery) : unfinished delivery = !terminal delivery := by
  cases hstatus : delivery.status <;> simp [unfinished,terminal,hstatus]

/-- A change of rows that have not ended. -/
lemma rewrites_unfinished {guard : WebhookDelivery → Bool}
    {change : WebhookDelivery → WebhookDelivery}
    (hguard : ∀ delivery, guard delivery = true → unfinished delivery = true)
    (hdeliveries : s'.deliveries = s.deliveries.map fun delivery =>
      if guard delivery then change delivery else delivery)
    (hid : ∀ delivery, (change delivery).id = delivery.id)
    (hattempts : ∀ delivery, delivery.attempts ≤ (change delivery).attempts) :
    Rewrites (fun delivery => if guard delivery then change delivery else delivery) s s' := by
  refine ⟨hdeliveries,fun delivery => ?_,fun delivery => ?_,fun delivery hterminal => ?_⟩
  · split
    · exact hid delivery
    · rfl
  · split
    · exact hattempts delivery
    · exact le_rfl
  · rw [if_neg]
    intro hguarded
    have hopen := hguard delivery hguarded
    rw [unfinished_eq,hterminal] at hopen
    cases hopen

/-! ## The transactions -/

def beginsRow (deliveryId : String) (delivery : WebhookDelivery) : Bool :=
  delivery.id = deliveryId && unfinished delivery

lemma begin_rewrites (now : ℕ)
    (hdeliveries : s'.deliveries = s.deliveries.map fun delivery =>
      if beginsRow deliveryId delivery then beginDelivery now delivery else delivery) :
    Rewrites (fun delivery =>
      if beginsRow deliveryId delivery then beginDelivery now delivery else delivery) s s' := by
  refine rewrites_unfinished (fun delivery hguard => ?_) hdeliveries (fun _ => rfl)
    fun _ => Nat.le_succ _
  simp only [beginsRow,Bool.and_eq_true] at hguard
  exact hguard.2

/-- Everything that a beginning can do. -/
lemma beginWebhookDelivery_cases {now : ℕ} {answer : Option (WebhookDelivery × WebhookEndpoint)}
    (h : beginWebhookDelivery s deliveryId now = (answer,s')) :
    (answer = none ∧ s' = s ∧ Row s deliveryId fun delivery => terminal delivery = true) ∨
    ∃ delivery ∈ s.deliveries, delivery.id = deliveryId ∧ unfinished delivery = true ∧
      answer = (enabledEndpoint s delivery.webhookId).map (beginDelivery now delivery,·) ∧
      Rewrites (fun row => if beginsRow deliveryId row then beginDelivery now row else row) s s' := by
  unfold beginWebhookDelivery at h
  split at h
  case h_1 hnone =>
    cases h
    refine .inl ⟨rfl,rfl,fun delivery hdelivery hid => ?_⟩
    have hover := List.find?_eq_none.mp hnone delivery hdelivery
    simpa [hid,unfinished_eq] using hover
  case h_2 delivery hfound =>
    cases h
    have hguard := List.find?_some hfound
    simp only [Bool.and_eq_true,decide_eq_true_eq] at hguard
    exact .inr ⟨delivery,List.mem_of_find?_eq_some hfound,hguard.1,hguard.2,rfl,
      begin_rewrites now rfl⟩

lemma updateCurrent_rewrites {attempt : ℕ} {change : WebhookDelivery → WebhookDelivery}
    (hid : ∀ delivery, (change delivery).id = delivery.id)
    (hattempts : ∀ delivery, (change delivery).attempts = delivery.attempts) :
    Rewrites (fun delivery =>
      if current deliveryId attempt delivery then change delivery else delivery) s
      (updateCurrent s deliveryId attempt change) := by
  refine rewrites_unfinished (fun delivery hguard => ?_) rfl hid fun delivery =>
    (hattempts delivery).ge
  simp only [current,Bool.and_eq_true,decide_eq_true_eq] at hguard
  simp [unfinished,hguard.1.2]

/-- An outcome under a number that the row has no longer changes nothing. -/
lemma updateCurrent_superseded {attempt : ℕ} {change : WebhookDelivery → WebhookDelivery}
    (h : Row s deliveryId fun delivery =>
      ¬ (delivery.status = .delivering ∧ delivery.attempts = attempt)) :
    updateCurrent s deliveryId attempt change = s := by
  have hsame : s.deliveries.map (fun delivery =>
      if current deliveryId attempt delivery then change delivery else delivery) = s.deliveries := by
    conv_rhs => rw [← List.map_id' s.deliveries]
    refine List.map_congr_left fun delivery hdelivery => if_neg fun hguard => ?_
    simp only [current,Bool.and_eq_true,decide_eq_true_eq] at hguard
    exact h delivery hdelivery hguard.1.1 ⟨hguard.1.2,hguard.2⟩
  simp only [updateCurrent,hsame]

lemma updateEndpoint_rewrites (webhookId url : String) :
    Rewrites (fun delivery => delivery) s (updateWebhookEndpoint s webhookId url) :=
  ⟨(List.map_id' _).symm,fun _ => rfl,fun _ => le_rfl,fun _ _ => rfl⟩

/-- What a rotation or a disabling does to a row: it keeps its number, and its status unless the
delivery fails. -/
structure Touches (f : WebhookDelivery → WebhookDelivery) : Prop where
  attempts : ∀ delivery, (f delivery).attempts = delivery.attempts
  status : ∀ delivery, (f delivery).status = delivery.status ∨ (f delivery).status = .failed

lemma rotate_rewrites (webhookId secret : String) (expiresAt now : ℕ) :
    ∃ f, Rewrites f s (rotateWebhookSecret s webhookId secret expiresAt now) ∧ Touches f := by
  unfold rotateWebhookSecret
  split
  · exact ⟨_,.refl,⟨fun _ => rfl,fun _ => .inl rfl⟩⟩
  · split
    · exact ⟨_,.refl,⟨fun _ => rfl,fun _ => .inl rfl⟩⟩
    · refine ⟨_,rewrites_unfinished (fun delivery hguard => ?_) rfl (fun _ => rfl)
        (fun _ => le_rfl),⟨fun delivery => ?_,fun delivery => .inl ?_⟩⟩
      · simp only [Bool.and_eq_true] at hguard
        exact hguard.2
      · split <;> rfl
      · split <;> rfl

lemma disable_rewrites (webhookId : String) (now : ℕ) :
    ∃ f, Rewrites f s (disableWebhookEndpoint s webhookId now) ∧ Touches f := by
  unfold disableWebhookEndpoint
  split
  · exact ⟨_,.refl,⟨fun _ => rfl,fun _ => .inl rfl⟩⟩
  · refine ⟨_,rewrites_unfinished (fun delivery hguard => ?_) rfl (fun _ => rfl)
      (fun _ => le_rfl),⟨fun delivery => ?_,fun delivery => ?_⟩⟩
    · simp only [Bool.and_eq_true] at hguard
      exact hguard.2
    · split <;> rfl
    · split
      · exact .inr rfl
      · exact .inl rfl

/-- Whether the columns take the text that the outcome leaves. -/
def Outcome.storable : Outcome → Bool
  | .response answer => Webhooks.storable answer.body
  | .networkError message | .permanentError message =>
    Webhooks.storable (slice message maximumErrorLength)

lemma storable_slice {text : String} (h : storable text = true) (limit : ℕ) :
    storable (slice text limit) = true := by
  have hunits : ∀ (chars : List Char) (limit : ℕ), '\x00' ∉ chars →
      '\x00' ∉ sliceUnits chars limit := by
    intro chars limit hchars
    induction chars, limit using sliceUnits.induct with
    | case1 => simp [sliceUnits]
    | case2 => simp [sliceUnits]
    | case3 char chars limit hsmall ih =>
      simp only [List.mem_cons,not_or] at hchars
      simp [sliceUnits,hsmall,hchars.1,ih hchars.2]
    | case4 char chars hlarge => simp [sliceUnits,hlarge]
    | case5 char chars hlarge limit ih =>
      simp only [List.mem_cons,not_or] at hchars
      simp [sliceUnits,hlarge,hchars.1,ih hchars.2]
  have hnone : '\x00' ∉ text.toList := by simpa [storable] using h
  have hslice := hunits text.toList limit hnone
  simpa [storable,slice] using hslice

lemma storable_httpError (status : ℕ) : storable (httpError status) = true := by
  have hnone : '\x00' ∉ (httpError status).toList := by
    unfold httpError
    rw [String.toList_append,List.mem_append,Nat.toString_eq_repr,Nat.toList_repr]
    rintro (htext | hdigits)
    · simp at htext
    · have hdigit := Nat.isDigit_of_mem_toDigits (by decide) (by decide) hdigits
      exact absurd hdigit (by decide)
  simp only [storable,List.contains_eq_mem,hnone,decide_false,Bool.not_false]

/-- What an attempt writes, it writes under its own number. -/
lemma finishAttempt_store (attempt : Attempt) (outcome : Outcome) (now : ℕ) :
    ∃ change, (finishAttempt s attempt outcome now).2
        = updateCurrent s attempt.delivery.id attempt.delivery.attempts change ∧
      (∀ delivery, (change delivery).id = delivery.id) ∧
      ∀ delivery, (change delivery).attempts = delivery.attempts := by
  have hsame : s = updateCurrent s attempt.delivery.id attempt.delivery.attempts id := by
    simp [updateCurrent]
  have hcatch : ∀ (message : String) (response : Option WebhookResponse) (permanent : Bool),
      ∃ change, (catchError s attempt message response permanent now).2
          = updateCurrent s attempt.delivery.id attempt.delivery.attempts change ∧
        (∀ delivery, (change delivery).id = delivery.id) ∧
        ∀ delivery, (change delivery).attempts = delivery.attempts := by
    intro message response permanent
    simp only [catchError,failWebhookDelivery]
    split
    case h_1 store hstore =>
      split at hstore <;> cases hstore
      exact ⟨_,rfl,fun _ => rfl,fun _ => rfl⟩
    case h_2 => exact ⟨id,hsame,fun _ => rfl,fun _ => rfl⟩
  unfold finishAttempt
  split
  case h_1 response =>
    split
    · split
      case h_1 store hstore =>
        unfold completeWebhookDelivery at hstore
        split at hstore <;> cases hstore
        exact ⟨_,rfl,fun _ => rfl,fun _ => rfl⟩
      case h_2 => exact hcatch ..
    · split
      · split
        case h_1 store hstore =>
          unfold failWebhookDelivery at hstore
          split at hstore <;> cases hstore
          exact ⟨_,rfl,fun _ => rfl,fun _ => rfl⟩
        case h_2 => exact hcatch ..
      · exact hcatch ..
  case h_2 => exact hcatch ..
  case h_3 => exact hcatch ..

/-- An attempt whose text the columns take either ends the delivery or asks for another attempt,
which it does only while the queue has one left. -/
lemma finishAttempt_spec (attempt : Attempt) {outcome : Outcome} (now : ℕ)
    (hstorable : outcome.storable = true) :
    ∃ change, (finishAttempt s attempt outcome now).2
        = updateCurrent s attempt.delivery.id attempt.delivery.attempts change ∧
      (∀ delivery, (change delivery).id = delivery.id) ∧
      (∀ delivery, (change delivery).attempts = delivery.attempts) ∧
      (∀ delivery, (change delivery).status ≠ .delivering) ∧
      ((finishAttempt s attempt outcome now).1 = true →
        attempt.attemptsMade + 1 < webhookDeliveryAttempts) ∧
      ((finishAttempt s attempt outcome now).1 = false →
        ∀ delivery, terminal (change delivery) = true) := by
  have hcatch : ∀ (message : String) (response : Option WebhookResponse) (permanent : Bool),
      storable (slice message maximumErrorLength) = true →
      response.all (storable ·.body) = true →
      ∃ change, (catchError s attempt message response permanent now).2
          = updateCurrent s attempt.delivery.id attempt.delivery.attempts change ∧
        (∀ delivery, (change delivery).id = delivery.id) ∧
        (∀ delivery, (change delivery).attempts = delivery.attempts) ∧
        (∀ delivery, (change delivery).status ≠ .delivering) ∧
        ((catchError s attempt message response permanent now).1 = true →
          attempt.attemptsMade + 1 < webhookDeliveryAttempts) ∧
        ((catchError s attempt message response permanent now).1 = false →
          ∀ delivery, terminal (change delivery) = true) := by
    intro message response permanent hmessage hresponse
    simp only [catchError,failWebhookDelivery,hmessage,hresponse,Bool.and_self,if_true]
    refine ⟨_,rfl,fun _ => rfl,fun _ => rfl,fun delivery => ?_,fun hthrew => ?_,
      fun hreturned delivery => ?_⟩
    · simp only
      split <;> simp
    · by_contra hlast
      simp [Nat.le_of_not_lt hlast] at hthrew
    · simp only [terminal,hreturned,Bool.false_eq_true,if_false]
      rfl
  have hhttp : ∀ status, storable (slice (httpError status) maximumErrorLength) = true :=
    fun status => storable_slice (storable_httpError status) _
  unfold finishAttempt
  split
  case h_1 response =>
    have hbody : storable response.body = true := hstorable
    simp only [completeWebhookDelivery,failWebhookDelivery,hbody,hhttp,Option.all_some,
      Bool.and_self,if_true]
    split
    · exact ⟨_,rfl,fun _ => rfl,fun _ => rfl,by simp,by simp,by simp [terminal]⟩
    · split
      · exact ⟨_,rfl,fun _ => rfl,fun _ => rfl,by simp,by simp,by simp [terminal]⟩
      · exact hcatch _ _ _ (hhttp _) (by simp [hbody])
  case h_2 message => exact hcatch message none false hstorable rfl
  case h_3 message => exact hcatch message none true hstorable rfl

end Rows

/-! ## The invariant -/

/-- Only the attempt that has the job may still write to the row; when no attempt has it, none. -/
structure Sound (w : World) : Prop where
  key : (w.store.deliveries.map (·.id)).Nodup
  own : ∀ (i : ℕ) (attempt : Attempt) (phase : AttemptPhase),
    w.attempts[i]? = some (attempt,phase) → attempt.delivery.id = w.deliveryId
  number : ∀ (i : ℕ) (attempt : Attempt) (phase : AttemptPhase),
    w.attempts[i]? = some (attempt,phase) → Row w.store w.deliveryId fun delivery => attempt.delivery.attempts ≤ delivery.attempts
  superseded : ∀ (i : ℕ) (attempt : Attempt) (phase : AttemptPhase),
    w.attempts[i]? = some (attempt,phase) → w.job ≠ .active i →
      Row w.store w.deliveryId fun delivery =>
        ¬ (delivery.status = .delivering ∧ delivery.attempts = attempt.delivery.attempts)
  holder : ∀ i, w.job = .active i → ∃ (attempt : Attempt) (phase : AttemptPhase),
    w.attempts[i]? = some (attempt,phase) ∧ attempt.attemptsMade = w.attemptsMade ∧
    Row w.store w.deliveryId fun delivery => delivery.attempts = attempt.delivery.attempts ∧
      (delivery.status = .delivering ∨ terminal delivery = true)
  last : ∀ i, w.job = .active i → i + 1 = w.attempts.length
  failed : w.job ≠ .failed
  completed : w.job = .completed →
    Row w.store w.deliveryId fun delivery => terminal delivery = true
  sent : ∀ request ∈ w.sent, request.1 < w.attempts.length

/-- A worker that starts on a delivery that has not ended finds its endpoint enabled and can read
the secret, and the columns take what the attempt that has the job leaves. -/
def Deliverable (decryptSecret : String → Except String String) (w : World) : Action → Prop
  | .start now => Row w.store w.deliveryId fun delivery => unfinished delivery = true →
      ∃ endpoint secret, enabledEndpoint w.store delivery.webhookId = some endpoint ∧
        decryptSecret (encryptedSecret delivery endpoint now) = .ok secret
  | .finish i _ => w.job = .active i → ∀ attempt outcome,
      w.attempts[i]? = some (attempt,.answered outcome) → outcome.storable = true
  | _ => True

section Step
variable {decryptSecret : String → Except String String}
  {signWebhook : String → ℕ → String → String → String} {w w' : World}

lemma Sound.touch {f : WebhookDelivery → WebhookDelivery} {store : Store} (h : Sound w)
    (hstore : Rewrites f w.store store) (htouch : Touches f) : Sound { w with store } where
  key := hstore.key h.key
  own := h.own
  number := fun i attempt phase hattempt => hstore.row fun delivery hdelivery hid => by
    rw [htouch.attempts]
    exact h.number i attempt phase hattempt delivery hdelivery hid
  superseded := fun i attempt phase hattempt hjob => hstore.row fun delivery hdelivery hid => by
    rintro ⟨hstatus,hnumber⟩
    rw [htouch.attempts] at hnumber
    refine h.superseded i attempt phase hattempt hjob delivery hdelivery hid ⟨?_,hnumber⟩
    rcases htouch.status delivery with hsame | hfailed
    · rw [← hsame,hstatus]
    · rw [hfailed] at hstatus
      cases hstatus
  holder := fun i hjob => by
    obtain ⟨attempt,phase,hattempt,hmade,hrow⟩ := h.holder i hjob
    refine ⟨attempt,phase,hattempt,hmade,hstore.row fun delivery hdelivery hid => ?_⟩
    obtain ⟨hnumber,hstatus⟩ := hrow delivery hdelivery hid
    refine ⟨by rw [htouch.attempts,hnumber],?_⟩
    rcases htouch.status delivery with hsame | hfailed
    · rcases hstatus with hstatus | hterminal
      · exact .inl (hsame.trans hstatus)
      · exact .inr (by rw [hstore.ended delivery hterminal]; exact hterminal)
    · exact .inr (by simp [terminal,hfailed])
  last := h.last
  failed := h.failed
  completed := fun hjob => hstore.row fun delivery hdelivery hid => by
    have hterminal : terminal delivery = true := h.completed hjob delivery hdelivery hid
    rw [hstore.ended delivery hterminal]
    exact hterminal
  sent := h.sent

lemma Sound.start (h : Sound w) {now : ℕ} (hready : Deliverable decryptSecret w (.start now)) :
    Sound (w.start decryptSecret now) := by
  unfold World.start
  cases hbegin : beginWebhookDelivery w.store w.deliveryId now with
  | mk answer store =>
    obtain ⟨rfl,rfl,hterminal⟩ | ⟨delivery,hdelivery,hid,hopen,rfl,hstore⟩ :=
      beginWebhookDelivery_cases hbegin
    · -- the delivery has ended
      refine ⟨h.key,h.own,h.number,?_,by simp,by simp,by simp,fun _ => hterminal,h.sent⟩
      intro i attempt phase _ _ row hrow hrid
      rintro ⟨hstatus,-⟩
      have hended : terminal row = true := hterminal row hrow hrid
      simp [terminal,hstatus] at hended
    · obtain ⟨endpoint,secret,hendpoint,hsecret⟩ := hready delivery hdelivery hid hopen
      have hsecret' : decryptSecret (encryptedSecret (beginDelivery now delivery) endpoint now)
          = .ok secret := hsecret
      simp only [hendpoint,Option.map_some,hsecret']
      -- the row of the job, which the key makes the only one
      have hrows : Row store w.deliveryId fun row => row = beginDelivery now delivery := by
        refine hstore.row fun row hrow hrid => ?_
        rw [List.inj_on_of_nodup_map h.key hrow hdelivery (hrid.trans hid.symm),
          if_pos (by simp [beginsRow,hid,hopen])]
      have hold : ∀ {i : ℕ} {attempt : Attempt} {phase : AttemptPhase},
          (w.attempts ++ [(⟨beginDelivery now delivery,secret,now,w.attemptsMade⟩,.ready)])[i]?
            = some (attempt,phase) → w.attempts[i]? = some (attempt,phase) ∨
          i = w.attempts.length ∧
            attempt = ⟨beginDelivery now delivery,secret,now,w.attemptsMade⟩ := by
        intro i attempt phase hget
        rw [List.getElem?_append] at hget
        split at hget
        case isTrue => exact .inl hget
        case isFalse hlen =>
          rw [List.getElem?_singleton] at hget
          split at hget
          case isFalse => cases hget
          case isTrue hzero =>
            cases hget
            exact .inr ⟨by omega,rfl⟩
      refine ⟨hstore.key h.key,?_,?_,?_,?_,by simp,by simp,by simp,?_⟩
      · intro i attempt phase hget
        obtain hget | ⟨-,rfl⟩ := hold hget
        · exact h.own i attempt phase hget
        · exact hid
      · intro i attempt phase hget row hrow hrid
        rw [hrows row hrow hrid]
        obtain hget | ⟨-,rfl⟩ := hold hget
        · exact (h.number i attempt phase hget delivery hdelivery hid).trans (Nat.le_succ _)
        · exact le_rfl
      · intro i attempt phase hget hjob row hrow hrid
        rintro ⟨-,hnumber⟩
        rw [hrows row hrow hrid] at hnumber
        obtain hget | ⟨hlast,-⟩ := hold hget
        · have hle := h.number i attempt phase hget delivery hdelivery hid
          simp only [beginDelivery] at hnumber
          omega
        · exact hjob (by rw [hlast])
      · intro i hjob
        cases hjob
        refine ⟨_,.ready,List.getElem?_concat_length,rfl,fun row hrow hrid => ?_⟩
        rw [hrows row hrow hrid]
        exact ⟨rfl,.inl rfl⟩
      · intro request hrequest
        rw [List.length_append]
        exact Nat.lt_add_right _ (h.sent request hrequest)

/-- Moving an attempt on leaves the attempts as they are but for its phase. -/
lemma attempts_set {i j : ℕ} {attempt other : Attempt} {phase phase' newPhase : AttemptPhase}
    (hattempt : w.attempts[i]? = some (attempt,phase))
    (hget : (w.attempts.set i (attempt,newPhase))[j]? = some (other,phase')) :
    ∃ before, w.attempts[j]? = some (other,before) := by
  rw [List.getElem?_set] at hget
  split at hget
  case isFalse => exact ⟨phase',hget⟩
  case isTrue hsame =>
    subst hsame
    split at hget
    case isFalse => cases hget
    case isTrue =>
      cases hget
      exact ⟨phase,hattempt⟩

lemma attempts_set_self {i : ℕ} {attempt : Attempt} {phase newPhase : AttemptPhase}
    (hattempt : w.attempts[i]? = some (attempt,phase)) :
    (w.attempts.set i (attempt,newPhase))[i]? = some (attempt,newPhase) := by
  obtain ⟨hlen,-⟩ := List.getElem?_eq_some_iff.mp hattempt
  rw [List.getElem?_set,if_pos rfl,if_pos hlen]

lemma attempts_set_of_get {i j : ℕ} {attempt other : Attempt} {phase phase' newPhase : AttemptPhase}
    (hattempt : w.attempts[i]? = some (attempt,phase)) (hget : w.attempts[j]? = some (other,phase')) :
    ∃ after, (w.attempts.set i (attempt,newPhase))[j]? = some (other,after) := by
  by_cases hsame : i = j
  · subst hsame
    rw [hattempt] at hget
    cases hget
    exact ⟨newPhase,attempts_set_self hattempt⟩
  · exact ⟨phase',by rw [List.getElem?_set_ne hsame,hget]⟩

/-- Only the phase of an attempt and the log of requests change. -/
lemma Sound.move {i : ℕ} {attempt : Attempt} {phase newPhase : AttemptPhase}
    {sent : List (ℕ × WebhookRequest)} (h : Sound w)
    (hattempt : w.attempts[i]? = some (attempt,phase))
    (hsent : ∀ request ∈ sent, request.1 < w.attempts.length) :
    Sound { w with attempts := w.attempts.set i (attempt,newPhase), sent } where
  key := h.key
  own := fun j other phase' hget => by
    obtain ⟨before,hbefore⟩ := attempts_set hattempt hget
    exact h.own j other before hbefore
  number := fun j other phase' hget => by
    obtain ⟨before,hbefore⟩ := attempts_set hattempt hget
    exact h.number j other before hbefore
  superseded := fun j other phase' hget => by
    obtain ⟨before,hbefore⟩ := attempts_set hattempt hget
    exact h.superseded j other before hbefore
  holder := fun j hjob => by
    obtain ⟨other,phase',hget,hmade,hrow⟩ := h.holder j hjob
    obtain ⟨after,hafter⟩ := attempts_set_of_get hattempt hget
    exact ⟨other,after,hafter,hmade,hrow⟩
  last := fun j hjob => by
    rw [List.length_set]
    exact h.last j hjob
  failed := h.failed
  completed := h.completed
  sent := fun request hrequest => by
    rw [List.length_set]
    exact hsent request hrequest

/-- The row once the attempt that has the job has written its outcome. -/
lemma Sound.released {i : ℕ} {attempt : Attempt} {phase : AttemptPhase} {store : Store}
    {job : JobState} {attemptsMade : ℕ} (h : Sound w)
    (hattempt : w.attempts[i]? = some (attempt,phase))
    (hkey : (store.deliveries.map (·.id)).Nodup)
    (hnumber : Row store w.deliveryId fun delivery =>
      delivery.attempts = attempt.delivery.attempts ∧ delivery.status ≠ .delivering)
    (hmax : ∀ (j : ℕ) (other : Attempt) (phase : AttemptPhase), w.attempts[j]? = some (other,phase) →
      Row store w.deliveryId fun delivery => other.delivery.attempts ≤ delivery.attempts)
    (hjob : ∀ j, job ≠ .active j) (hfailed : job ≠ .failed)
    (hcompleted : job = .completed →
      Row store w.deliveryId fun delivery => terminal delivery = true) :
    Sound { w with store, job, attemptsMade,
                   attempts := w.attempts.set i (attempt,.finished) } where
  key := hkey
  own := fun j other phase' hget => by
    obtain ⟨before,hbefore⟩ := attempts_set hattempt hget
    exact h.own j other before hbefore
  number := fun j other phase' hget => by
    obtain ⟨before,hbefore⟩ := attempts_set hattempt hget
    exact hmax j other before hbefore
  superseded := fun j other phase' hget _ delivery hdelivery hid => by
    rintro ⟨hstatus,-⟩
    exact (hnumber delivery hdelivery hid).2 hstatus
  holder := fun j hactive => absurd hactive (hjob j)
  last := fun j hactive => absurd hactive (hjob j)
  failed := hfailed
  completed := hcompleted
  sent := fun request hrequest => by
    rw [List.length_set]
    exact h.sent request hrequest

lemma Sound.finish (h : Sound w) {i : ℕ} {attempt : Attempt} {outcome : Outcome} {now : ℕ}
    (hattempt : w.attempts[i]? = some (attempt,.answered outcome))
    (hready : Deliverable decryptSecret w (.finish i now)) :
    Sound (w.finish i attempt outcome now) := by
  have hown := h.own i attempt _ hattempt
  unfold World.finish
  by_cases hjob : w.job = .active i
  · obtain ⟨change,hstore,hcid,hcattempts,hcstatus,hthrew,hreturned⟩ :=
      finishAttempt_spec (s := w.store) attempt now (hready hjob attempt outcome hattempt)
    rw [hown] at hstore
    -- the attempt that has the job finds the row under its number, or ended
    obtain ⟨holder,phase,hget,hmade,hrow⟩ := h.holder i hjob
    rw [hattempt] at hget
    cases hget
    have hwrites : Rewrites (fun delivery =>
        if current w.deliveryId attempt.delivery.attempts delivery then change delivery
        else delivery) w.store (finishAttempt w.store attempt outcome now).2 := by
      rw [hstore]
      exact updateCurrent_rewrites hcid hcattempts
    have hafter : ∀ delivery ∈ w.store.deliveries, delivery.id = w.deliveryId →
        (if current w.deliveryId attempt.delivery.attempts delivery then change delivery
          else delivery) = change delivery ∨ terminal delivery = true := by
      intro delivery hdelivery hid
      obtain ⟨hnumber,hstatus | hterminal⟩ := hrow delivery hdelivery hid
      · exact .inl (if_pos (by simp [current,hid,hstatus,hnumber]))
      · exact .inr hterminal
    have hnumber : Row (finishAttempt w.store attempt outcome now).2 w.deliveryId fun delivery =>
        delivery.attempts = attempt.delivery.attempts ∧ delivery.status ≠ .delivering := by
      refine hwrites.row fun delivery hdelivery hid => ?_
      have hbefore := (hrow delivery hdelivery hid).1
      rcases hafter delivery hdelivery hid with hchanged | hterminal
      · rw [hchanged,hcattempts]
        exact ⟨hbefore,hcstatus delivery⟩
      · have hsame := hwrites.ended delivery hterminal
        rw [hsame]
        refine ⟨hbefore,fun hstatus => ?_⟩
        simp [terminal,hstatus] at hterminal
    have hmax : ∀ (j : ℕ) (other : Attempt) (phase : AttemptPhase),
        w.attempts[j]? = some (other,phase) → Row (finishAttempt w.store attempt outcome now).2
          w.deliveryId fun delivery => other.delivery.attempts ≤ delivery.attempts := by
      intro j other phase hget
      refine hwrites.row fun delivery hdelivery hid => ?_
      exact (h.number j other phase hget delivery hdelivery hid).trans (hwrites.attempts delivery)
    simp only [hjob,if_true]
    split
    case isTrue hthrow =>
      have hleft := hthrew hthrow
      rw [hmade] at hleft
      simp only [World.threw,if_pos hleft]
      exact h.released hattempt (hwrites.key h.key) hnumber hmax (by simp) (by simp) (by simp)
    case isFalse hreturn =>
      refine h.released hattempt (hwrites.key h.key) hnumber hmax (by simp) (by simp) fun _ => ?_
      refine hwrites.row fun delivery hdelivery hid => ?_
      rcases hafter delivery hdelivery hid with hchanged | hterminal
      · rw [hchanged]
        exact hreturned (by simpa using hreturn) delivery
      · have hsame := hwrites.ended delivery hterminal
        rw [hsame]
        exact hterminal
  · -- any other attempt has been superseded
    obtain ⟨change,hstore,-⟩ := finishAttempt_store (s := w.store) attempt outcome now
    have hsame : (finishAttempt w.store attempt outcome now).2 = w.store := by
      rw [hstore,hown]
      exact updateCurrent_superseded (h.superseded i attempt _ hattempt hjob)
    simp only [hjob,if_false,hsame]
    exact h.move hattempt h.sent

lemma Sound.step (h : Sound w) {action : Action} (hready : Deliverable decryptSecret w action)
    (hstep : w.step decryptSecret signWebhook action = some w') : Sound w' := by
  cases action with
  | start now =>
    simp only [World.step] at hstep
    split at hstep
    · cases hstep
    · cases hstep
    · cases hstep
      exact h.start hready
    · cases hstep
      exact h.start hready
  | send i outcome =>
    simp only [World.step] at hstep
    split at hstep
    case h_2 => cases hstep
    case h_1 attempt hattempt =>
      cases hstep
      refine h.move hattempt fun request hrequest => ?_
      rcases List.mem_append.mp hrequest with hrequest | hrequest
      · exact h.sent request hrequest
      · rw [List.mem_singleton.mp hrequest]
        exact (List.getElem?_eq_some_iff.mp hattempt).1
  | finish i now =>
    simp only [World.step] at hstep
    split at hstep
    case h_2 => cases hstep
    case h_1 attempt outcome hattempt =>
      cases hstep
      exact h.finish hattempt hready
  | updateEndpoint webhookId url =>
    cases hstep
    exact h.touch (updateEndpoint_rewrites webhookId url) ⟨fun _ => rfl,fun _ => .inl rfl⟩
  | rotateSecret webhookId secret expiresAt now =>
    cases hstep
    obtain ⟨f,hstore,htouch⟩ := rotate_rewrites (s := w.store) webhookId secret expiresAt now
    exact h.touch hstore htouch
  | disableEndpoint webhookId now =>
    cases hstep
    obtain ⟨f,hstore,htouch⟩ := disable_rewrites (s := w.store) webhookId now
    exact h.touch hstore htouch

/-! ## A delivery that has ended -/

/-- The row of a delivery that has ended stays, no attempt is begun, and whatever is sent is sent by
an attempt that was under way. -/
structure Ended (delivery : WebhookDelivery) (attempts : ℕ) (w : World) : Prop where
  id : delivery.id = w.deliveryId
  terminal : terminal delivery = true
  key : (w.store.deliveries.map (·.id)).Nodup
  mem : delivery ∈ w.store.deliveries
  begun : w.attempts.length = attempts
  sent : ∀ request ∈ w.sent, request.1 < attempts

lemma Ended.store {delivery : WebhookDelivery} {attempts : ℕ}
    {f : WebhookDelivery → WebhookDelivery} {store : Store} (h : Ended delivery attempts w)
    (hstore : Rewrites f w.store store) : Ended delivery attempts { w with store } :=
  ⟨h.id,h.terminal,hstore.key h.key,hstore.kept h.mem h.terminal,h.begun,h.sent⟩

lemma Ended.start {delivery : WebhookDelivery} {attempts now : ℕ} (h : Ended delivery attempts w) :
    Ended delivery attempts (w.start decryptSecret now) := by
  unfold World.start
  cases hbegin : beginWebhookDelivery w.store w.deliveryId now with
  | mk answer store =>
    obtain ⟨rfl,rfl,-⟩ | ⟨row,hrow,hid,hopen,-⟩ := beginWebhookDelivery_cases hbegin
    · exact ⟨h.id,h.terminal,h.key,h.mem,h.begun,h.sent⟩
    · -- the key makes it the row that has ended
      rw [List.inj_on_of_nodup_map h.key hrow h.mem (hid.trans h.id.symm),unfinished_eq,
        h.terminal] at hopen
      cases hopen

lemma Ended.finish {delivery : WebhookDelivery} {attempts i now : ℕ} {attempt : Attempt}
    {outcome : Outcome} (h : Ended delivery attempts w) :
    Ended delivery attempts (w.finish i attempt outcome now) := by
  obtain ⟨change,hstore,hcid,hcattempts⟩ := finishAttempt_store (s := w.store) attempt outcome now
  have hwrites : Rewrites (fun row =>
      if current attempt.delivery.id attempt.delivery.attempts row then change row else row)
      w.store (finishAttempt w.store attempt outcome now).2 := by
    rw [hstore]
    exact updateCurrent_rewrites hcid hcattempts
  have hlength : (w.attempts.set i (attempt,AttemptPhase.finished)).length = attempts := by
    rw [List.length_set]
    exact h.begun
  unfold World.finish
  simp only
  split
  · split <;> exact ⟨h.id,h.terminal,hwrites.key h.key,hwrites.kept h.mem h.terminal,hlength,h.sent⟩
  · exact ⟨h.id,h.terminal,hwrites.key h.key,hwrites.kept h.mem h.terminal,hlength,h.sent⟩

lemma Ended.step {delivery : WebhookDelivery} {attempts : ℕ} (h : Ended delivery attempts w)
    {action : Action} (hstep : w.step decryptSecret signWebhook action = some w') :
    Ended delivery attempts w' := by
  cases action with
  | start now =>
    simp only [World.step] at hstep
    split at hstep
    · cases hstep
    · cases hstep
    · cases hstep
      exact h.start
    · cases hstep
      exact h.start
  | send i outcome =>
    simp only [World.step] at hstep
    split at hstep
    case h_2 => cases hstep
    case h_1 attempt hattempt =>
      cases hstep
      refine ⟨h.id,h.terminal,h.key,h.mem,by rw [List.length_set]; exact h.begun,?_⟩
      intro request hrequest
      rcases List.mem_append.mp hrequest with hrequest | hrequest
      · exact h.sent request hrequest
      · rw [List.mem_singleton.mp hrequest,← h.begun]
        exact (List.getElem?_eq_some_iff.mp hattempt).1
  | finish i now =>
    simp only [World.step] at hstep
    split at hstep
    case h_2 => cases hstep
    case h_1 attempt outcome hattempt =>
      cases hstep
      exact h.finish
  | updateEndpoint webhookId url =>
    cases hstep
    exact h.store (updateEndpoint_rewrites webhookId url)
  | rotateSecret webhookId secret expiresAt now =>
    cases hstep
    obtain ⟨f,hstore,-⟩ := rotate_rewrites (s := w.store) webhookId secret expiresAt now
    exact h.store hstore
  | disableEndpoint webhookId now =>
    cases hstep
    obtain ⟨f,hstore,-⟩ := disable_rewrites (s := w.store) webhookId now
    exact h.store hstore

end Step

/-! ## Runs -/

/-- Every worker that starts in the run finds the delivery deliverable or ended, and every attempt
that has the job can write what it found. -/
def DeliverableRun (decryptSecret : String → Except String String)
    (signWebhook : String → ℕ → String → String → String) : World → List Action → Prop
  | _, [] => True
  | w, action :: actions => Deliverable decryptSecret w action ∧
      ∀ w', w.step decryptSecret signWebhook action = some w' →
        DeliverableRun decryptSecret signWebhook w' actions

section Run
variable {decryptSecret : String → Except String String}
  {signWebhook : String → ℕ → String → String → String} {w' : World} {actions : List Action}

lemma Sound.run : ∀ {w : World}, Sound w →
    DeliverableRun decryptSecret signWebhook w actions →
    World.run decryptSecret signWebhook w actions = some w' → Sound w' := by
  induction actions with
  | nil =>
    intro w h _ hrun
    cases hrun
    exact h
  | cons action actions ih =>
    intro w h hready hrun
    obtain ⟨next,hstep,hrest⟩ := Option.bind_eq_some_iff.mp hrun
    exact ih (h.step hready.1 hstep) (hready.2 next hstep) hrest

lemma Ended.run {delivery : WebhookDelivery} {attempts : ℕ} : ∀ {w : World},
    Ended delivery attempts w → World.run decryptSecret signWebhook w actions = some w' →
    Ended delivery attempts w' := by
  induction actions with
  | nil =>
    intro w h hrun
    cases hrun
    exact h
  | cons action actions ih =>
    intro w h hrun
    obtain ⟨next,hstep,hrest⟩ := Option.bind_eq_some_iff.mp hrun
    exact ih (h.step hstep) hrest

end Run

end Linea.Webhooks
