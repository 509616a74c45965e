import Mathlib.Data.List.Sort
import Mathlib.Tactic.Common

/-! The messages of a conversation, in the order in which `listChatMessages` returns them: a reply
stands with the message it answers, whenever it was stored. -/
namespace Linea.Replays

inductive ChatMessageRole
  | user
  | assistant
  deriving DecidableEq, Repr

structure ChatMessage where
  id : String
  respondsToMessageId : Option String
  sequence : ℕ
  role : ChatMessageRole
  content : String
  deriving DecidableEq, Repr

/-- The joined row of `respondsTo`. -/
def respondsTo (rows : List ChatMessage) (m : ChatMessage) : Option ChatMessage :=
  m.respondsToMessageId.bind fun id => rows.find? fun r => r.id = id

/-- `coalesce(respondsTo.sequence, sequence)`. -/
def position (rows : List ChatMessage) (m : ChatMessage) : ℕ :=
  ((respondsTo rows m).map ChatMessage.sequence).getD m.sequence

/-- `case when role = 'user' then 0 else 1 end`. -/
def roleRank : ChatMessageRole → ℕ
  | .user => 0
  | .assistant => 1

def Precedes (rows : List ChatMessage) (m m' : ChatMessage) : Prop :=
  position rows m < position rows m' ∨
    position rows m = position rows m' ∧ roleRank m.role ≤ roleRank m'.role

instance (rows : List ChatMessage) : DecidableRel (Precedes rows) :=
  fun _ _ => inferInstanceAs (Decidable (_ ∨ _))

/-- The rows are those of one conversation; what ties is left in the order of the scan. -/
def listChatMessages (rows : List ChatMessage) : List ChatMessage :=
  rows.insertionSort (Precedes rows)

/-- What the writers of messages keep: the keys of the table, and replies that answer, if a message
is recorded for them at all, a user's message of the same conversation. -/
structure Conversation where
  rows : List ChatMessage
  ids : (rows.map ChatMessage.id).Nodup
  sequences : (rows.map ChatMessage.sequence).Nodup
  links : ∀ r ∈ rows, ∀ id, r.respondsToMessageId = some id →
    r.role = .assistant ∧ ∃ m ∈ rows, m.id = id ∧ m.role = .user

instance (rows : List ChatMessage) : Std.Total (Precedes rows) where
  total m m' := by
    unfold Precedes
    omega

instance (rows : List ChatMessage) : IsTrans ChatMessage (Precedes rows) where
  trans m m' m'' h h' := by
    unfold Precedes at *
    omega

@[simp] lemma mem_listChatMessages {rows : List ChatMessage} {m : ChatMessage} :
    m ∈ listChatMessages rows ↔ m ∈ rows :=
  List.mem_insertionSort _

lemma listChatMessages_sorted (rows : List ChatMessage) :
    (listChatMessages rows).Pairwise (Precedes rows) :=
  List.pairwise_insertionSort _ rows

/-- A list that leaves out only what comes later begins in the same way. -/
lemma prefix_of_sublist {α : Type*} {l p s : List α} {b : α} (h : l.Sublist (p ++ b :: s))
    (hp : ∀ a ∈ p, a ∈ l) (hb : b ∈ l) (hd : (p ++ b :: s).Nodup) : ∃ s', l = p ++ b :: s' := by
  induction p generalizing l with
  | nil =>
    cases h with
    | cons _ h => exact absurd (h.subset hb) (List.nodup_cons.mp hd).1
    | cons_cons _ _ => exact ⟨_,rfl⟩
  | cons a p ih =>
    rw [List.cons_append,List.nodup_cons] at hd
    cases h with
    | cons _ h => exact absurd (h.subset (hp a (by simp))) hd.1
    | @cons_cons l _ _ h =>
      have hne (c : α) (hc : c ∈ p ++ b :: s) : c ≠ a := fun hca => hd.1 (hca ▸ hc)
      have hmem (c : α) (hc : c ∈ p ++ b :: s) (hl : c ∈ a :: l) : c ∈ l :=
        (List.mem_cons.mp hl).resolve_left (hne c hc)
      obtain ⟨s',rfl⟩ := ih h (fun c hc => hmem c (by simp [hc]) (hp c (by simp [hc])))
        (hmem b (by simp) hb) hd.2
      exact ⟨s',rfl⟩

/-- Sorting keeps what a list leaves out of another. -/
lemma insertionSort_sublist {α : Type*} {r : α → α → Prop} [DecidableRel r] [Std.Total r]
    [IsTrans α r] {l l' : List α} (h : l.Sublist l') :
    (l.insertionSort r).Sublist (l'.insertionSort r) := by
  induction h with
  | slnil => exact .refl _
  | @cons l l' a _ ih =>
    rw [List.insertionSort_cons]
    exact ih.trans (List.sublist_orderedInsert ..)
  | @cons_cons l l' a _ ih =>
    rw [List.insertionSort_cons,List.insertionSort_cons]
    exact ih.orderedInsert_sublist _ (List.pairwise_insertionSort _ _)

namespace Conversation
variable {conversation earlier : Conversation} {m r : ChatMessage}

lemma eq_of_id (hm : m ∈ conversation.rows) (hr : r ∈ conversation.rows) (h : m.id = r.id) :
    m = r :=
  List.inj_on_of_nodup_map conversation.ids hm hr h

lemma eq_of_sequence (hm : m ∈ conversation.rows) (hr : r ∈ conversation.rows)
    (h : m.sequence = r.sequence) : m = r :=
  List.inj_on_of_nodup_map conversation.sequences hm hr h

lemma find_id (hm : m ∈ conversation.rows) {messages : List ChatMessage}
    (hsub : ∀ r ∈ messages, r ∈ conversation.rows) (hmem : m ∈ messages) :
    messages.find? (fun r => r.id = m.id) = some m := by
  cases hf : messages.find? fun r => r.id = m.id with
  | none => exact absurd (decide_eq_true rfl) (List.find?_eq_none.mp hf m hmem)
  | some r =>
    have hid := List.find?_some hf
    rw [eq_of_id (hsub r (List.mem_of_find?_eq_some hf)) hm (by simpa using hid)]

lemma respondsTo_eq (hm : m ∈ conversation.rows) (hr : r.respondsToMessageId = some m.id) :
    respondsTo conversation.rows r = some m := by
  rw [respondsTo,hr,Option.bind_some,find_id hm (fun _ h => h) hm]

lemma position_reply (hm : m ∈ conversation.rows) (hr : r.respondsToMessageId = some m.id) :
    position conversation.rows r = m.sequence := by
  rw [position,respondsTo_eq hm hr,Option.map_some,Option.getD_some]

lemma position_unlinked (hm : m.respondsToMessageId = none) :
    position conversation.rows m = m.sequence := by
  rw [position,respondsTo,hm,Option.bind_none,Option.map_none,Option.getD_none]

lemma unlinked_of_user (hm : m ∈ conversation.rows) (hu : m.role = .user) :
    m.respondsToMessageId = none := by
  cases hl : m.respondsToMessageId with
  | none => rfl
  | some id =>
    have := (conversation.links m hm id hl).1
    rw [hu] at this
    cases this

lemma position_user (hm : m ∈ conversation.rows) (hu : m.role = .user) :
    position conversation.rows m = m.sequence :=
  position_unlinked (unlinked_of_user hm hu)

lemma listed_nodup (conversation : Conversation) : (listChatMessages conversation.rows).Nodup :=
  (List.perm_insertionSort _ _).nodup_iff.mpr (List.Nodup.of_map _ conversation.ids)

/-- What lies strictly before a message in the order is listed before it. -/
lemma mem_before {before after : List ChatMessage}
    (hl : listChatMessages conversation.rows = before ++ m :: after) (hr : r ∈ conversation.rows)
    (hne : ¬Precedes conversation.rows m r) : r ∈ before := by
  have hs := listChatMessages_sorted conversation.rows
  rw [hl] at hs
  have hmem : r ∈ before ++ m :: after := hl ▸ mem_listChatMessages.mpr hr
  rcases List.mem_append.mp hmem with h | h
  · exact h
  rcases List.mem_cons.mp h with rfl | h
  · exact absurd (.inr ⟨rfl,le_rfl⟩) hne
  · exact absurd ((List.pairwise_cons.mp (List.pairwise_append.mp hs).2.1).1 r h) hne

/-- Messages of which both stand at their own numbers are listed by them. -/
lemma mem_before_iff {before after : List ChatMessage}
    (hl : listChatMessages conversation.rows = before ++ m :: after)
    (hm : position conversation.rows m = m.sequence) (hr : r ∈ conversation.rows)
    (hru : position conversation.rows r = r.sequence) : r ∈ before ↔ r.sequence < m.sequence := by
  have hin : m ∈ conversation.rows := mem_listChatMessages.mp (by simp [hl])
  constructor
  · intro hb
    have hs := listChatMessages_sorted conversation.rows
    have hd := listed_nodup conversation
    rw [hl,List.pairwise_append] at hs
    rw [hl,List.nodup_append] at hd
    have hrm := hs.2.2 r hb m (by simp)
    have hne : r.sequence ≠ m.sequence := fun h =>
      hd.2.2 r hb m (by simp) (eq_of_sequence hr hin h)
    unfold Precedes at hrm
    omega
  · intro hlt
    refine mem_before hl hr ?_
    unfold Precedes
    omega

/-- `earlier` is the conversation at a time when the messages before `b`, and `b`, were stored. -/
structure StartedAfter (conversation earlier : Conversation) (b : ChatMessage) : Prop where
  rows : earlier.rows.Sublist conversation.rows
  own : b ∈ earlier.rows
  before : ∀ m ∈ (listChatMessages conversation.rows).takeWhile (· ≠ b), m ∈ earlier.rows

lemma StartedAfter.refl (hm : m ∈ conversation.rows) : StartedAfter conversation conversation m :=
  ⟨.refl _,hm,fun _ hr => mem_listChatMessages.mp ((List.takeWhile_sublist _).subset hr)⟩

lemma position_earlier (hsub : earlier.rows.Sublist conversation.rows) (hm : m ∈ earlier.rows) :
    position earlier.rows m = position conversation.rows m := by
  cases hl : m.respondsToMessageId with
  | none => rw [position_unlinked hl,position_unlinked hl]
  | some id =>
    obtain ⟨_,q,hq,rfl,_⟩ := earlier.links m hm id hl
    rw [position_reply hq hl,position_reply (hsub.subset hq) hl]

/-- The list was the same then, less messages that were not stored yet. -/
lemma listed_sublist (hsub : earlier.rows.Sublist conversation.rows) :
    (listChatMessages earlier.rows).Sublist (listChatMessages conversation.rows) := by
  have hsame := List.map_insertionSort (Precedes earlier.rows) (Precedes conversation.rows) id
    earlier.rows fun a ha b hb => by
      simp only [Precedes,position_earlier hsub ha,position_earlier hsub hb,id]
  rw [List.map_id,List.map_id] at hsame
  rw [listChatMessages,hsame]
  exact insertionSort_sublist hsub

/-- Up to the message it answers, an execution reads what the snapshot reads. -/
lemma StartedAfter.listed {b : ChatMessage} (h : StartedAfter conversation earlier b)
    {before after : List ChatMessage}
    (hl : listChatMessages conversation.rows = before ++ b :: after) :
    ∃ after', listChatMessages earlier.rows = before ++ b :: after' := by
  have hd := listed_nodup conversation
  rw [hl] at hd
  have hbefore : ∀ m ∈ before, m ≠ b := fun m hm =>
    (List.nodup_append.mp hd).2.2 m hm b (by simp)
  have htake : (listChatMessages conversation.rows).takeWhile (· ≠ b) = before := by
    rw [hl,List.takeWhile_append_of_pos (by simpa using hbefore)]
    simp
  refine prefix_of_sublist (hl ▸ listed_sublist h.rows) (fun m hm => ?_)
    (mem_listChatMessages.mpr h.own) hd
  exact mem_listChatMessages.mpr (h.before m (htake ▸ hm))

end Conversation
end Linea.Replays
