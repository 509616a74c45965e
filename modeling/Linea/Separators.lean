import Mathlib.Data.List.Basic

/-! Texts put together from parts, and when the parts can be told again: codes of which none starts
another, and lists joined with a separator of two units. -/
namespace Linea.Separators

variable {α β : Type*}

/-- No code is empty or starts another. -/
structure PrefixFree (code : α → List β) : Prop where
  ne_nil : ∀ x, code x ≠ []
  apart : ∀ x y s t, code x ++ s = code y ++ t → x = y

/-- A text of codes is read in one way. -/
theorem PrefixFree.flatMap_injective {code : α → List β} (h : PrefixFree code) :
    Function.Injective (List.flatMap code) := by
  intro xs
  induction xs with
  | nil =>
    intro ys hys
    cases ys with
    | nil => rfl
    | cons y ys => simp [h.ne_nil y] at hys
  | cons x xs ih =>
    intro ys hys
    cases ys with
    | nil => simp [h.ne_nil x] at hys
    | cons y ys =>
      simp only [List.flatMap_cons] at hys
      obtain rfl := h.apart x y _ _ hys
      rw [ih (List.append_cancel_left hys)]

/-- `Array.prototype.join`. -/
def join (separator : List α) (parts : List (List α)) : List α :=
  (parts.intersperse separator).flatten

@[simp] lemma join_nil (separator : List α) : join separator [] = [] := rfl

@[simp] lemma join_singleton (separator part : List α) : join separator [part] = part := by
  simp [join]

lemma join_cons {parts : List (List α)} (hne : parts ≠ []) (separator part : List α) :
    join separator (part :: parts) = part ++ (separator ++ join separator parts) := by
  obtain ⟨next,rest,rfl⟩ := List.exists_cons_of_ne_nil hne
  simp [join,List.intersperse_cons_cons]

lemma join_append {parts parts' : List (List α)} (hne : parts ≠ []) (hne' : parts' ≠ [])
    (separator : List α) :
    join separator (parts ++ parts') = join separator parts ++ (separator ++ join separator parts') := by
  induction parts with
  | nil => exact absurd rfl hne
  | cons part parts ih =>
    by_cases hp : parts = []
    · subst hp
      rw [List.singleton_append,join_cons hne',join_singleton]
    · rw [List.cons_append,join_cons (List.append_ne_nil_of_left_ne_nil hp _),ih hp,join_cons hp,
        List.append_assoc,List.append_assoc]

lemma mem_join {separator : List α} {parts : List (List α)} {u : α} (h : u ∈ join separator parts) :
    u ∈ separator ∨ ∃ part ∈ parts, u ∈ part := by
  induction parts with
  | nil => cases h
  | cons part parts ih =>
    by_cases hp : parts = []
    · subst hp
      rw [join_singleton] at h
      exact .inr ⟨part,List.mem_cons_self,h⟩
    · rw [join_cons hp,List.mem_append,List.mem_append] at h
      rcases h with h | h | h
      · exact .inr ⟨part,List.mem_cons_self,h⟩
      · exact .inl h
      · exact (ih h).imp_right fun ⟨t,ht,hu⟩ => ⟨t,List.mem_cons_of_mem _ ht,hu⟩

lemma mem_join_of_mem {parts : List (List α)} {part : List α} {u : α} (hpart : part ∈ parts)
    (hu : u ∈ part) (separator : List α) : u ∈ join separator parts := by
  induction parts with
  | nil => cases hpart
  | cons first parts ih =>
    by_cases hp : parts = []
    · subst hp
      rw [join_singleton,← List.mem_singleton.mp hpart]
      exact hu
    · rw [join_cons hp,List.mem_append,List.mem_append]
      rcases List.mem_cons.mp hpart with rfl | hpart
      · exact .inl hu
      · exact .inr (.inr (ih hpart))

/-- A part without the separator is read back from the text up to it. -/
lemma append_separator_inj {separator : α} {s t u v : List α} (hs : separator ∉ s)
    (ht : separator ∉ t) (h : s ++ separator :: u = t ++ separator :: v) : s = t ∧ u = v := by
  induction s generalizing t with
  | nil =>
    cases t with
    | nil => exact ⟨rfl,(List.cons.inj h).2⟩
    | cons c t =>
      have hhead : separator = c := (List.cons.inj h).1
      simp [hhead] at ht
  | cons c s ih =>
    cases t with
    | nil =>
      have hhead : c = separator := (List.cons.inj h).1
      simp [hhead] at hs
    | cons d t =>
      obtain ⟨rfl,htail⟩ := List.cons.inj h
      obtain ⟨rfl,rfl⟩ := ih (fun hmem => hs (List.mem_cons_of_mem _ hmem))
        (fun hmem => ht (List.mem_cons_of_mem _ hmem)) htail
      exact ⟨rfl,rfl⟩

/-- Puts a unit before the first piece. -/
def extend (u : α) : List (List α) → List (List α)
  | [] => [[u]]
  | piece :: pieces => (u :: piece) :: pieces

lemma extend_ne_nil (u : α) (pieces : List (List α)) : extend u pieces ≠ [] := by
  cases pieces <;> exact List.cons_ne_nil _ _

lemma join_extend (separator : List α) (u : α) {pieces : List (List α)} (hne : pieces ≠ []) :
    join separator (extend u pieces) = u :: join separator pieces := by
  obtain ⟨piece,rest,rfl⟩ := List.exists_cons_of_ne_nil hne
  cases rest with
  | nil => simp [extend]
  | cons next rest => simp [extend,join_cons]

lemma extend_append {u : α} {pieces rest : List (List α)} (hne : pieces ≠ []) :
    extend u (pieces ++ rest) = extend u pieces ++ rest := by
  obtain ⟨piece,pieces,rfl⟩ := List.exists_cons_of_ne_nil hne
  rfl

section Cut
variable [DecidableEq α]

/-- The pieces of a text between the separators `a b`. -/
def cut (a b : α) : List α → List (List α)
  | [] => [[]]
  | [u] => [[u]]
  | u :: v :: rest =>
    if u = a ∧ v = b then [] :: cut a b rest else extend u (cut a b (v :: rest))

lemma cut_ne_nil (a b : α) (s : List α) : cut a b s ≠ [] := by
  rcases s with _ | ⟨u,_ | ⟨v,rest⟩⟩
  · exact List.cons_ne_nil _ _
  · exact List.cons_ne_nil _ _
  · rw [cut]
    split
    · exact List.cons_ne_nil _ _
    · exact extend_ne_nil u _

/-- The pieces give the text back. -/
lemma join_cut (a b : α) (s : List α) : join [a,b] (cut a b s) = s := by
  fun_induction cut a b s with
  | case1 => simp
  | case2 u => simp
  | case3 u v rest h ih =>
    rw [join_cons (cut_ne_nil a b rest),ih,h.1,h.2]
    rfl
  | case4 u v rest h ih => rw [join_extend _ _ (cut_ne_nil a b _),ih]

/-- A separator cuts the text in two: its units differ, so none begins before it and ends in it. -/
lemma cut_append {a b : α} (hab : a ≠ b) (s t : List α) :
    cut a b (s ++ a :: b :: t) = cut a b s ++ cut a b t := by
  fun_induction cut a b s with
  | case1 => simp [cut]
  | case2 u =>
    simp only [List.singleton_append]
    rw [cut,if_neg fun h => hab h.2,cut,if_pos ⟨rfl,rfl⟩]
    rfl
  | case3 u v rest h ih =>
    rw [List.cons_append,List.cons_append,cut,if_pos h,ih,List.cons_append]
  | case4 u v rest h ih =>
    rw [List.cons_append,List.cons_append,cut,if_neg h,← List.cons_append,ih,
      extend_append (cut_ne_nil a b _)]

lemma cut_join {a b : α} (hab : a ≠ b) {parts : List (List α)} (hne : parts ≠ []) :
    cut a b (join [a,b] parts) = parts.flatMap (cut a b) := by
  induction parts with
  | nil => exact absurd rfl hne
  | cons part parts ih =>
    cases parts with
    | nil => simp
    | cons next rest =>
      rw [join_cons (List.cons_ne_nil _ _),List.flatMap_cons,← ih (List.cons_ne_nil _ _)]
      exact cut_append hab _ _

/-- Two lists are joined to one text just when they are cut into the same pieces. -/
theorem join_eq_iff {a b : α} (hab : a ≠ b) {parts parts' : List (List α)} (hne : parts ≠ [])
    (hne' : parts' ≠ []) :
    join [a,b] parts = join [a,b] parts' ↔ parts.flatMap (cut a b) = parts'.flatMap (cut a b) := by
  constructor
  · intro h
    rw [← cut_join hab hne,← cut_join hab hne',h]
  · intro h
    rw [← cut_join hab hne,← cut_join hab hne'] at h
    have hjoin := congrArg (join [a,b]) h
    rwa [join_cut,join_cut] at hjoin

/-- The first separator ends the first piece; none may begin before it and end in it. -/
lemma cut_first {a b : α} {s : List α} (h : ∀ u v, s ++ [a] ≠ u ++ a :: b :: v) (t : List α) :
    cut a b (s ++ a :: b :: t) = s :: cut a b t := by
  induction s with
  | nil => rw [List.nil_append,cut,if_pos ⟨rfl,rfl⟩]
  | cons c s ih =>
    have hrest : cut a b (s ++ a :: b :: t) = s :: cut a b t := ih fun u v heq =>
      h (c :: u) v (by rw [List.cons_append,heq,List.cons_append])
    cases s with
    | nil =>
      rw [List.singleton_append,cut,if_neg]
      · exact congrArg (extend c) hrest
      · exact fun hc => h [] [] (by rw [hc.1,← hc.2]; rfl)
    | cons d s =>
      rw [List.cons_append,List.cons_append,cut,if_neg]
      · exact congrArg (extend c) hrest
      · exact fun hc => h [] (s ++ [a]) (by rw [hc.1,hc.2]; rfl)

/-- A text without the separator is one piece. -/
lemma cut_plain {a b : α} {s : List α} (h : ∀ u v, s ≠ u ++ a :: b :: v) : cut a b s = [s] := by
  fun_induction cut a b s with
  | case1 => rfl
  | case2 u => rfl
  | case3 u v rest huv ih => exact absurd (by rw [huv.1,huv.2]; rfl) (h [] rest)
  | case4 u v rest huv ih =>
    rw [ih fun s t hst => h (u :: s) t (by rw [hst]; rfl)]
    rfl

end Cut

end Linea.Separators
