import Linea.Keyset

/-! Pages of two tables at once: both are asked for the rows behind one cursor, each of them cut off
behind the same number of rows, and the rows of both are sorted and cut off again. Requests may fail,
and with them the pages. -/
namespace Linea.Keyset

section Sorting
variable {α β κ κ' : Type*} [LinearOrder κ] [LinearOrder κ'] {key : α → κ}

lemma orderedInsert_congr {r s : α → α → Prop} [DecidableRel r] [DecidableRel s] {a : α}
    {l : List α} (h : ∀ b ∈ l, r a b ↔ s a b) : l.orderedInsert r a = l.orderedInsert s a := by
  induction l with
  | nil => rfl
  | cons b l ih =>
    rw [List.orderedInsert_cons,List.orderedInsert_cons,
      ih fun b' hb' => h b' (List.mem_cons_of_mem b hb')]
    exact if_congr (h b List.mem_cons_self) rfl rfl

/-- Insertion only compares rows in the order in which they came. -/
lemma insertionSort_congr {r s : α → α → Prop} [DecidableRel r] [DecidableRel s] {l : List α}
    (h : l.Pairwise fun a b => r a b ↔ s a b) : l.insertionSort r = l.insertionSort s := by
  induction l with
  | nil => rfl
  | cons a l ih =>
    obtain ⟨hhead,htail⟩ := List.pairwise_cons.mp h
    rw [List.insertionSort_cons,List.insertionSort_cons,ih htail]
    refine orderedInsert_congr fun b hb => hhead b ?_
    exact (List.perm_insertionSort s l).mem_iff.mp hb

lemma orderBy_map {key' : β → κ'} {f : β → α} {rows : List β}
    (h : ∀ a ∈ rows, ∀ b ∈ rows, key' b ≤ key' a ↔ key (f b) ≤ key (f a)) :
    (orderBy key' rows).map f = orderBy key (rows.map f) :=
  List.map_insertionSort _ _ f rows h

variable {first second : List α}

/-- What is cut off behind `n` rows of one list does not belong to the first `n` rows of both. -/
lemma mem_take_of_rank {n : ℕ} {row : α} (hkeys : ((first ++ second).map key).Nodup)
    (hrow : row ∈ first) (hrank : rank key (first ++ second) row ≤ n) :
    row ∈ (orderBy key first).take n := by
  have hfirst : (first.map key).Nodup := by
    rw [List.map_append] at hkeys
    exact (List.nodup_append.mp hkeys).1
  have hperm : (orderBy key first).Perm first := orderBy_perm
  obtain ⟨i,hi⟩ := List.getElem?_of_mem (hperm.mem_iff.mpr hrow)
  have hat := rank_eq (orderBy_descending hfirst) hperm hi
  have hle : rank key first row ≤ rank key (first ++ second) row := by
    unfold rank
    rw [List.countP_append]
    omega
  refine List.mem_of_getElem? (i := i) ?_
  rw [List.getElem?_take,if_pos (by omega)]
  exact hi

/-- The first `n` rows of both lists are found in the first `n` rows of each of them. -/
lemma take_orderBy_append (n : ℕ) (hkeys : ((first ++ second).map key).Nodup) :
    (orderBy key ((orderBy key first).take n ++ (orderBy key second).take n)).take n =
      (orderBy key (first ++ second)).take n := by
  classical
  -- The rows that are kept are those of a filter of all rows.
  let kept : α → Bool := fun row =>
    row ∈ (orderBy key first).take n ∨ row ∈ (orderBy key second).take n
  have hall := orderBy_descending hkeys
  have hsub : ((orderBy key first).take n ++ (orderBy key second).take n).Perm
      ((first ++ second).filter kept) := by
    have hnodup : (first ++ second).Nodup := List.Nodup.of_map key hkeys
    have hperm : ((orderBy key first) ++ (orderBy key second)).Perm (first ++ second) :=
      orderBy_perm.append orderBy_perm
    have hcut : ((orderBy key first).take n ++ (orderBy key second).take n).Nodup := by
      refine (hperm.nodup_iff.mpr hnodup).sublist ?_
      exact (List.take_sublist n _).append (List.take_sublist n _)
    rw [List.perm_ext_iff_of_nodup hcut (hnodup.filter kept)]
    intro row
    simp only [kept,List.mem_append,List.mem_filter,decide_eq_true_eq]
    constructor
    · rintro (h | h)
      · exact ⟨.inl (orderBy_perm.mem_iff.mp (List.mem_of_mem_take h)),.inl h⟩
      · exact ⟨.inr (orderBy_perm.mem_iff.mp (List.mem_of_mem_take h)),.inr h⟩
    · exact And.right
  have hordered : orderBy key ((orderBy key first).take n ++ (orderBy key second).take n) =
      (orderBy key (first ++ second)).filter kept := by
    have hkept : (((first ++ second).filter kept).map key).Nodup :=
      hkeys.sublist (List.filter_sublist.map key)
    have hcut : (((orderBy key first).take n ++ (orderBy key second).take n).map key).Nodup :=
      (hsub.map key).nodup_iff.mpr hkept
    refine (orderBy_descending hcut).eq (hall.filter kept) ?_
    exact orderBy_perm.trans (hsub.trans (orderBy_perm.filter kept).symm)
  -- Of the first rows, none is cut off.
  have htop : ∀ row ∈ (orderBy key (first ++ second)).take n, kept row = true := by
    intro row hrow
    obtain ⟨i,hi,hat⟩ := List.mem_take_iff_getElem.mp hrow
    have hplace : (orderBy key (first ++ second))[i]? = some row :=
      List.getElem?_eq_some_iff.mpr ⟨by omega,hat⟩
    have hrank := rank_eq hall orderBy_perm hplace
    have hmem : row ∈ first ++ second := orderBy_perm.mem_iff.mp (List.mem_of_mem_take hrow)
    refine decide_eq_true ?_
    rcases List.mem_append.mp hmem with h | h
    · exact .inl (mem_take_of_rank hkeys h (by omega))
    · have hkeys' : ((second ++ first).map key).Nodup :=
        ((List.perm_append_comm).map key).nodup_iff.mpr hkeys
      have hsame : rank key (second ++ first) row = rank key (first ++ second) row :=
        List.perm_append_comm.countP_eq _
      exact .inr (mem_take_of_rank hkeys' h (by omega))
  rw [hordered]
  conv_lhs => rw [← List.take_append_drop n (orderBy key (first ++ second))]
  rw [List.filter_append,List.filter_eq_self.mpr htop]
  rcases Nat.lt_or_ge (orderBy key (first ++ second)).length n with hshort | hlong
  · rw [List.drop_of_length_le hshort.le,List.filter_nil,List.append_nil,List.take_take,Nat.min_self]
  · rw [List.take_append_of_le_length (by rw [List.length_take,Nat.min_eq_left hlong]),
      List.take_take,Nat.min_self]

lemma paginate_take {γ : Type*} {limit : ℕ} {cursorOf : α → γ} (found : List α) :
    paginate limit cursorOf (found.take (limit + 1)) = paginate limit cursorOf found := by
  have htake : (found.take (limit + 1)).take limit = found.take limit := by
    rw [List.take_take,Nat.min_eq_left (Nat.le_succ limit)]
  have hlength : (found.take (limit + 1)).length > limit ↔ found.length > limit := by
    rw [List.length_take]
    omega
  unfold paginate
  simp only [htake,hlength]

end Sorting

section Requests
variable {α γ ε : Type*}

/-- `follow`, where a request that fails ends the listing. -/
def tryFollow (request : Option γ → Except ε (Page α γ)) : ℕ → Option γ →
    Option (Except ε (List α))
  | 0, _ => none
  | fuel + 1, cursor =>
    match request cursor with
    | .error e => some (.error e)
    | .ok page =>
      match page.nextCursor with
      | none => some (.ok page.data)
      | some next => (tryFollow request fuel (some next)).map fun rest => rest.map (page.data ++ ·)

/-- Following the cursors from the first page on succeeds, and returns `data`. -/
def Lists (request : Option γ → Except ε (Page α γ)) (data : List α) : Prop :=
  ∃ pages, ∀ fuel, pages ≤ fuel → tryFollow request fuel none = some (.ok data)

variable {request : Option γ → Except ε (Page α γ)} {page : Option γ → Page α γ}
  {good : Option γ → Prop}

/-- Requests that succeed, and only give out cursors whose requests succeed, never fail. -/
lemma tryFollow_eq (hstep : ∀ cursor, good cursor → request cursor = .ok (page cursor))
    (hnext : ∀ cursor next, good cursor → (page cursor).nextCursor = some next → good (some next))
    (fuel number : ℕ) {cursor : Option γ} (h : good cursor) :
    tryFollow request fuel cursor = (follow (fun _ => page) fuel number cursor).map .ok := by
  induction fuel generalizing number cursor with
  | zero => rfl
  | succ fuel ih =>
    rw [tryFollow,hstep cursor h,follow]
    cases hcursor : (page cursor).nextCursor with
    | none => simp only [hcursor,Option.map_some]
    | some next =>
      simp only [hcursor,ih (number + 1) (hnext cursor next h hcursor),Option.map_map]
      rfl

lemma Follows.lists {data : List α} (hfollows : Follows (fun _ => page) data)
    (hstep : ∀ cursor, good cursor → request cursor = .ok (page cursor))
    (hnext : ∀ cursor next, good cursor → (page cursor).nextCursor = some next → good (some next))
    (hfirst : good none) : Lists request data := by
  obtain ⟨pages,hpages⟩ := hfollows
  refine ⟨pages,fun fuel hfuel => ?_⟩
  rw [tryFollow_eq hstep hnext fuel 0 hfirst,hpages fuel hfuel]
  rfl

end Requests

end Linea.Keyset
