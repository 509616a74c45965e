import Mathlib.Algebra.Order.Group.Nat
import Mathlib.Data.List.Nodup

/-! Messages read page by page, the newest first, while more of them are sent: what a reading has at its
end is what the log held when it began. -/
namespace Linea.ConversationView

structure Message (Conversation : Type) where
  id : ℕ
  conversationId : Conversation
  deriving DecidableEq, Repr

structure Page (Conversation : Type) where
  data : List (Message Conversation)
  nextCursor : Option ℕ
  deriving DecidableEq, Repr

variable {Conversation : Type}

/-- The log before a cursor. -/
def before (log : List (Message Conversation)) (cursor : Option ℕ) : List (Message Conversation) :=
  match cursor with
  | none => log
  | some count => log.take count

/-- The newest messages before the cursor, at most `limit` of them. -/
def listMessages (log : List (Message Conversation)) (cursor : Option ℕ) (limit : ℕ) :
    Page Conversation where
  data := (before log cursor).drop ((before log cursor).length - limit)
  nextCursor := if limit < (before log cursor).length then
    some ((before log cursor).length - limit) else none

/-- Where a refresh stands: at its first request, at a page that the server has not read yet, or at the
answer of one on its way. -/
inductive Reading (Conversation : Type) where
  | conversation
  | page (cursor : Option ℕ) (nextMessages : List (Message Conversation))
  | answer (page : Page Conversation) (nextMessages : List (Message Conversation))
  deriving DecidableEq, Repr

/-! ## What a refresh will have read -/

/-- The messages a refresh has at its end if no more are sent. -/
def Reading.remaining (log : List (Message Conversation)) :
    Reading Conversation → List (Message Conversation)
  | .conversation => log
  | .page none nextMessages => nextMessages ++ log
  | .page (some cursor) nextMessages => nextMessages ++ log.take cursor
  | .answer ⟨data,none⟩ nextMessages => nextMessages ++ data
  | .answer ⟨data,some cursor⟩ nextMessages => nextMessages ++ data ++ log.take cursor

def Reading.cursor : Reading Conversation → ℕ
  | .page (some cursor) _ | .answer ⟨_,some cursor⟩ _ => cursor
  | _ => 0

/-- A refresh reads no message twice and none that is not in the log. -/
structure Reading.Sound (reading : Reading Conversation) (log : List (Message Conversation)) :
    Prop where
  nodup : (reading.remaining log).Nodup
  subset : ∀ m ∈ reading.remaining log, m ∈ log
  cursor_le : reading.cursor ≤ log.length

lemma remaining_page (log : List (Message Conversation)) (cursor : Option ℕ)
    (nextMessages : List (Message Conversation)) :
    (Reading.page cursor nextMessages).remaining log = nextMessages ++ before log cursor := by
  cases cursor <;> rfl

/-- A page and what is before it are what was before its cursor. -/
lemma listMessages_remaining (log : List (Message Conversation)) (cursor : Option ℕ) (limit : ℕ)
    (nextMessages : List (Message Conversation)) :
    ((Reading.answer (listMessages log cursor limit) nextMessages).remaining log).Perm
      (nextMessages ++ before log cursor) := by
  rw [listMessages]
  by_cases hlimit : limit < (before log cursor).length
  · rw [if_pos hlimit,Reading.remaining,List.append_assoc]
    have htake : log.take ((before log cursor).length - limit) =
        (before log cursor).take ((before log cursor).length - limit) := by
      cases cursor with
      | none => rfl
      | some count =>
        rw [before,List.take_take,min_eq_left]
        have hle : (log.take count).length ≤ count := List.length_take_le count log
        omega
    rw [htake]
    refine List.Perm.append_left nextMessages (List.perm_append_comm.trans ?_)
    rw [List.take_append_drop]
  · rw [if_neg hlimit,Reading.remaining,Nat.sub_eq_zero_of_le (not_lt.mp hlimit),List.drop_zero]

lemma cursor_listMessages_le (log : List (Message Conversation)) (cursor : Option ℕ) (limit : ℕ)
    (nextMessages : List (Message Conversation)) :
    (Reading.answer (listMessages log cursor limit) nextMessages).cursor ≤ log.length := by
  have hle : (before log cursor).length ≤ log.length := by
    cases cursor with
    | none => exact le_refl _
    | some count =>
      rw [before,List.length_take]
      exact min_le_right _ _
  have hcursor : (Reading.answer (listMessages log cursor limit) nextMessages).cursor ≤
      (before log cursor).length := by
    unfold listMessages
    split_ifs <;> simp [Reading.cursor]
  exact hcursor.trans hle

lemma Reading.Sound.read {log : List (Message Conversation)} {cursor : Option ℕ}
    {nextMessages : List (Message Conversation)}
    (h : (Reading.page cursor nextMessages).Sound log) (limit : ℕ) :
    (Reading.answer (listMessages log cursor limit) nextMessages).Sound log := by
  have hperm := listMessages_remaining log cursor limit nextMessages
  rw [← remaining_page] at hperm
  exact ⟨hperm.nodup_iff.mpr h.nodup,fun m hm => h.subset m (hperm.subset hm),
    cursor_listMessages_le log cursor limit nextMessages⟩

/-- A message that comes after keeps a reading sound and takes nothing from it. -/
lemma Reading.remaining_append {reading : Reading Conversation}
    {log : List (Message Conversation)} (h : reading.Sound log) (m : Message Conversation) :
    reading.remaining (log ++ [m]) = reading.remaining log ∨
      reading.remaining (log ++ [m]) = reading.remaining log ++ [m] := by
  have htake : ∀ cursor, cursor ≤ log.length → (log ++ [m]).take cursor = log.take cursor :=
    fun cursor hle => List.take_append_of_le_length hle
  match reading, h.cursor_le with
  | .conversation, _ => exact .inr rfl
  | .page none _, _ => exact .inr (List.append_assoc _ _ _).symm
  | .page (some cursor) _, hle => exact .inl (by rw [remaining,remaining,htake cursor hle])
  | .answer ⟨_,none⟩ _, _ => exact .inl rfl
  | .answer ⟨_,some cursor⟩ _, hle => exact .inl (by rw [remaining,remaining,htake cursor hle])

lemma Reading.Sound.append {reading : Reading Conversation} {log : List (Message Conversation)}
    (h : reading.Sound log) {m : Message Conversation} (hm : m ∉ log) :
    reading.Sound (log ++ [m]) := by
  have hle : reading.cursor ≤ (log ++ [m]).length := by
    rw [List.length_append]
    exact h.cursor_le.trans (Nat.le_add_right _ _)
  rcases Reading.remaining_append h m with heq | heq
  · exact ⟨heq ▸ h.nodup,fun x hx => List.mem_append_left _ (h.subset x (heq ▸ hx)),hle⟩
  · refine ⟨?_,?_,hle⟩
    · rw [heq]
      exact List.nodup_append.mpr ⟨h.nodup,List.nodup_singleton m,fun x hx y hy hxy =>
        hm (List.mem_singleton.mp hy ▸ hxy ▸ h.subset x hx)⟩
    · intro x hx
      rw [heq,List.mem_append] at hx
      exact hx.elim (fun hx => List.mem_append_left _ (h.subset x hx))
        fun hx => List.mem_append_right _ hx

lemma Reading.Sound.kept {reading : Reading Conversation} {log : List (Message Conversation)}
    (h : reading.Sound log) {m x : Message Conversation} (hx : x ∈ reading.remaining log) :
    x ∈ reading.remaining (log ++ [m]) := by
  rcases Reading.remaining_append h m with heq | heq <;> rw [heq]
  · exact hx
  · exact List.mem_append_left _ hx

end Linea.ConversationView
