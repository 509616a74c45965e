import Mathlib.Data.List.Sort
import Mathlib.Data.Prod.Lex

/-! Keyset pagination: rows are listed in descending order of a key, and a page is continued from a
bound that the last row of the page before it left behind. Such a bound may be coarser than the key
it was made from, and then a page can begin too late; the pages say everything exactly when none of
the rows at their ends leaves a bound that the row after it does not stay below. -/
namespace Linea.Keyset

structure Page (α γ : Type*) where
  data : List α
  nextCursor : Option γ
  deriving DecidableEq, Repr

section Requests
variable {α γ : Type*}

/-- The page of a query that asked for one row more than the limit. -/
def paginate (limit : ℕ) (cursorOf : α → γ) (found : List α) : Page α γ :=
  { data := found.take limit
    nextCursor := if found.length > limit then (found.take limit).getLast?.map cursorOf else none }

/-- All rows of the pages from `cursor` on, each page requested with the cursor of the one before it
until there is none; `number` counts the requests. -/
def follow (request : ℕ → Option γ → Page α γ) : ℕ → ℕ → Option γ → Option (List α)
  | 0, _, _ => none
  | fuel + 1, number, cursor =>
    let page := request number cursor
    match page.nextCursor with
    | none => some page.data
    | some next => (follow request fuel (number + 1) (some next)).map (page.data ++ ·)

/-- Following the cursors from the first page on ends, and returns `data`. -/
def Follows (request : ℕ → Option γ → Page α γ) (data : List α) : Prop :=
  ∃ pages, ∀ fuel, pages ≤ fuel → follow request fuel 0 none = some data

end Requests

section Order
variable {α κ : Type*} [LinearOrder κ] (key : α → κ)

def Descending (rows : List α) : Prop :=
  rows.Pairwise fun first second => key second < key first

def orderBy (rows : List α) : List α :=
  rows.insertionSort fun first second => key second ≤ key first

/-- How many rows stand at or before `row`. -/
def rank (rows : List α) (row : α) : ℕ := rows.countP fun other => key row ≤ key other

/-- Every row once, and in order. -/
def Returned (rows data : List α) : Prop := data.Perm rows ∧ Descending key data

variable {key} {rows : List α}

lemma orderBy_perm : (orderBy key rows).Perm rows := List.perm_insertionSort _ _

lemma orderBy_descending (hkeys : (rows.map key).Nodup) : Descending key (orderBy key rows) := by
  have htotal : Std.Total fun first second : α => key second ≤ key first :=
    ⟨fun first second => le_total (key second) (key first)⟩
  have htrans : IsTrans α fun first second => key second ≤ key first :=
    ⟨fun _ _ _ hfirst hsecond => hsecond.trans hfirst⟩
  have hsorted : (orderBy key rows).Pairwise fun first second => key second ≤ key first :=
    List.pairwise_insertionSort _ _
  have hnodup : ((orderBy key rows).map key).Nodup := (orderBy_perm.map key).nodup_iff.mpr hkeys
  have hdistinct : (orderBy key rows).Pairwise fun first second => key first ≠ key second :=
    List.pairwise_map.mp hnodup
  exact (hsorted.and hdistinct).imp fun h => lt_of_le_of_ne h.1 (Ne.symm h.2)

/-- Two lists of the same rows in the same order are equal. -/
lemma Descending.eq {first second : List α} (hfirst : Descending key first)
    (hsecond : Descending key second) (hperm : first.Perm second) : first = second := by
  refine List.Perm.eq_of_pairwise (fun a b _ _ hab hba => ?_) hfirst hsecond hperm
  exact absurd (lt_trans hab hba) (lt_irrefl _)

lemma returned_iff (hkeys : (rows.map key).Nodup) {data : List α} :
    Returned key rows data ↔ data = orderBy key rows := by
  constructor
  · intro h
    exact h.2.eq (orderBy_descending hkeys) (h.1.trans orderBy_perm.symm)
  · rintro rfl
    exact ⟨orderBy_perm,orderBy_descending hkeys⟩

lemma orderBy_filter (hkeys : (rows.map key).Nodup) (p : α → Bool) :
    orderBy key (rows.filter p) = (orderBy key rows).filter p := by
  have hfiltered : ((rows.filter p).map key).Nodup := hkeys.sublist (List.filter_sublist.map key)
  refine (orderBy_descending hfiltered).eq ((orderBy_descending hkeys).filter p) ?_
  exact orderBy_perm.trans (orderBy_perm.filter p).symm

/-- The rank of a row is its place in the order. -/
lemma rank_eq {rows' : List α} (hsorted : Descending key rows') (hperm : rows'.Perm rows) {i : ℕ}
    {row : α} (hrow : rows'[i]? = some row) : rank key rows row = i + 1 := by
  obtain ⟨hi,hat⟩ := List.getElem?_eq_some_iff.mp hrow
  have hall : ∀ other ∈ rows'.take (i + 1), key row ≤ key other := by
    intro other hother
    obtain ⟨j,hj,rfl⟩ := List.mem_take_iff_getElem.mp hother
    rw [← hat]
    have hle : j ≤ i := by omega
    rcases Nat.lt_or_eq_of_le hle with hlt | rfl
    · exact (List.pairwise_iff_getElem.mp hsorted j i (by omega) hi hlt).le
    · exact le_refl _
  have hnone : ∀ other ∈ rows'.drop (i + 1), ¬ key row ≤ key other := by
    intro other hother
    obtain ⟨j,hj,rfl⟩ := List.mem_drop_iff_getElem.mp hother
    rw [← hat]
    exact not_le.mpr (List.pairwise_iff_getElem.mp hsorted i (i + 1 + j) hi (by omega) (by omega))
  unfold rank
  rw [← hperm.countP_eq,← List.take_append_drop (i + 1) rows',List.countP_append,
    List.countP_eq_length.mpr fun other hother => decide_eq_true (hall other hother),
    List.countP_eq_zero.mpr fun other hother => by simpa using hnone other hother]
  simp only [List.length_take]
  omega

end Order

section Follow
variable {α γ κ : Type*} [LinearOrder κ] (key : α → κ) (bound : γ → κ) (cursorOf : α → γ)

/-- The rows that a cursor has left to list, in order. -/
def remaining (rows : List α) (cursor : Option γ) : List α :=
  orderBy key (rows.filter fun row => cursor.all fun c => key row < bound c)

/-- No row that ends a page leaves a bound which a later row does not stay below. -/
def Resolved (limit : ℕ) (rows : List α) : Prop :=
  ∀ last ∈ rows, ∀ row ∈ rows, limit ∣ rank key rows last → key row < key last →
    key row < bound (cursorOf last)

/-- `Resolved` of rows in order: only the row right after the end of a page matters. -/
def ResolvedAt (limit : ℕ) (rows : List α) : Prop :=
  ∀ i last next, rows[i]? = some last → rows[i + 1]? = some next → limit ∣ i + 1 →
    key next < bound (cursorOf last)

variable {key} {bound} {cursorOf} {limit : ℕ} {rows : List α}

lemma resolved_iff (hkeys : (rows.map key).Nodup) :
    Resolved key bound cursorOf limit rows ↔
      ResolvedAt key bound cursorOf limit (orderBy key rows) := by
  have hsorted := orderBy_descending hkeys
  have hrank : ∀ {i : ℕ} {row : α}, (orderBy key rows)[i]? = some row →
      rank key rows row = i + 1 := fun hrow => rank_eq hsorted orderBy_perm hrow
  constructor
  · intro h i last next hlast hnext hdvd
    refine h last (orderBy_perm.mem_iff.mp (List.mem_of_getElem? hlast)) next
      (orderBy_perm.mem_iff.mp (List.mem_of_getElem? hnext)) ?_ ?_
    · rw [hrank hlast]
      exact hdvd
    · obtain ⟨hi,rfl⟩ := List.getElem?_eq_some_iff.mp hlast
      obtain ⟨hi',rfl⟩ := List.getElem?_eq_some_iff.mp hnext
      exact List.pairwise_iff_getElem.mp hsorted i (i + 1) hi hi' (by omega)
  · intro h last hlast row hrow hdvd hlt
    have hperm : (orderBy key rows).Perm rows := orderBy_perm
    obtain ⟨i,hi⟩ := List.getElem?_of_mem (hperm.mem_iff.mpr hlast)
    obtain ⟨j,hj⟩ := List.getElem?_of_mem (hperm.mem_iff.mpr hrow)
    rw [hrank hi] at hdvd
    obtain ⟨hi',rfl⟩ := List.getElem?_eq_some_iff.mp hi
    obtain ⟨hj',rfl⟩ := List.getElem?_eq_some_iff.mp hj
    have hij : i < j := by
      by_contra hle
      rcases Nat.lt_or_eq_of_le (not_lt.mp hle) with hji | rfl
      · exact lt_asymm hlt (List.pairwise_iff_getElem.mp hsorted j i hj' hi' hji)
      · exact lt_irrefl _ hlt
    have hnext := h i _ _ hi (List.getElem?_eq_getElem (by omega)) hdvd
    rcases Nat.lt_or_eq_of_le (Nat.succ_le_of_lt hij) with hlt' | heq
    · exact lt_trans (List.pairwise_iff_getElem.mp hsorted (i + 1) j (by omega) hj' hlt') hnext
    · simp only [Nat.succ_eq_add_one] at heq
      simpa only [heq] using hnext

/-- The rows of a page that is not the last one, and what is left for the pages after it. -/
lemma resolvedAt_drop (hlimit : 0 < limit) {last : α} (hlast : rows[limit - 1]? = some last) :
    ResolvedAt key bound cursorOf limit rows ↔
      (∀ next, rows[limit]? = some next → key next < bound (cursorOf last)) ∧
        ResolvedAt key bound cursorOf limit (rows.drop limit) := by
  constructor
  · intro h
    refine ⟨fun next hnext => ?_,fun i last' next hlast' hnext hdvd => ?_⟩
    · refine h (limit - 1) last next hlast ?_ ?_
      · rwa [Nat.sub_add_cancel hlimit]
      · exact ⟨1,by omega⟩
    · rw [List.getElem?_drop] at hlast' hnext
      exact h (limit + i) last' next hlast' hnext
        (by rw [Nat.add_assoc]; exact Nat.dvd_add_self_left.mpr hdvd)
  · rintro ⟨hhead,hrest⟩ i last' next hlast' hnext hdvd
    have hle := Nat.le_of_dvd (by omega) hdvd
    rcases Nat.lt_or_eq_of_le hle with hlt | heq
    · obtain ⟨j,rfl⟩ : ∃ j, i = limit + j := ⟨i - limit,by omega⟩
      refine hrest j last' next ?_ ?_ ?_
      · rwa [List.getElem?_drop]
      · rwa [List.getElem?_drop]
      · rw [Nat.add_assoc] at hdvd
        exact Nat.dvd_add_self_left.mp hdvd
    · obtain rfl : i = limit - 1 := by omega
      rw [hlast] at hlast'
      cases hlast'
      exact hhead next (by rwa [heq])

lemma resolvedAt_short (hshort : rows.length ≤ limit) :
    ResolvedAt key bound cursorOf limit rows := by
  intro i last next _ hnext hdvd
  obtain ⟨hi,-⟩ := List.getElem?_eq_some_iff.mp hnext
  have hle := Nat.le_of_dvd (by omega) hdvd
  omega

/-- Rows in order all stay below a bound as soon as the first one does. -/
lemma Descending.filter_eq_iff (hsorted : Descending key rows) {c : κ} :
    (rows.filter fun row => key row < c) = rows ↔ ∀ next, rows[0]? = some next → key next < c := by
  rw [List.filter_eq_self]
  constructor
  · intro h next hnext
    exact of_decide_eq_true (h next (List.mem_of_getElem? hnext))
  · intro h row hrow
    refine decide_eq_true ?_
    cases rows with
    | nil => exact absurd hrow List.not_mem_nil
    | cons next rest =>
      have hnext := h next rfl
      rcases List.mem_cons.mp hrow with rfl | hrest
      · exact hnext
      · exact lt_trans (List.rel_of_pairwise_cons hsorted hrest) hnext

lemma remaining_descending (hkeys : (rows.map key).Nodup) (cursor : Option γ) :
    Descending key (remaining key bound rows cursor) :=
  orderBy_descending (hkeys.sublist (List.filter_sublist.map key))

lemma remaining_none : remaining key bound rows none = orderBy key rows := by
  simp [remaining]

/-- What is left after a full page: of the rows behind it, those below the bound of its last row. -/
lemma remaining_next (hkeys : (rows.map key).Nodup)
    (hbound : ∀ row ∈ rows, bound (cursorOf row) ≤ key row) (hlimit : 0 < limit)
    {cursor : Option γ} {last : α}
    (hlast : (remaining key bound rows cursor)[limit - 1]? = some last) :
    remaining key bound rows (some (cursorOf last)) =
      ((remaining key bound rows cursor).drop limit).filter
        fun row => key row < bound (cursorOf last) := by
  have hsorted : Descending key (remaining key bound rows cursor) :=
    remaining_descending hkeys cursor
  have hmem := List.mem_filter.mp (orderBy_perm.mem_iff.mp (List.mem_of_getElem? hlast))
  have hle : bound (cursorOf last) ≤ key last := hbound last hmem.1
  -- The bounds descend, so the rows below this one were below the one before it.
  have hbelow : (rows.filter fun row => (some (cursorOf last)).all fun c => key row < bound c) =
      (rows.filter fun row => cursor.all fun c => key row < bound c).filter
        fun row => key row < bound (cursorOf last) := by
    rw [List.filter_filter]
    refine List.filter_congr fun row _ => ?_
    cases cursor with
    | none => simp
    | some c =>
      have hc : key last < bound c := by simpa using hmem.2
      rw [Bool.eq_iff_iff]
      simp only [Option.all_some,decide_eq_true_eq,Bool.and_eq_true]
      exact ⟨fun h => ⟨h,lt_trans (lt_of_lt_of_le h hle) hc⟩,And.left⟩
  have hpage : ((remaining key bound rows cursor).take limit).filter
      (fun row => key row < bound (cursorOf last)) = [] := by
    rw [List.filter_eq_nil_iff]
    intro row hrow
    obtain ⟨i,hi,rfl⟩ := List.mem_take_iff_getElem.mp hrow
    obtain ⟨hl,rfl⟩ := List.getElem?_eq_some_iff.mp hlast
    simp only [decide_eq_true_eq,not_lt]
    refine hle.trans ?_
    have hi' : i ≤ limit - 1 := by omega
    rcases Nat.lt_or_eq_of_le hi' with hlt | rfl
    · exact (List.pairwise_iff_getElem.mp hsorted i (limit - 1) (by omega) hl hlt).le
    · exact le_refl _
  have hfiltered : ((rows.filter fun row => cursor.all fun c => key row < bound c).map key).Nodup :=
    hkeys.sublist (List.filter_sublist.map key)
  calc remaining key bound rows (some (cursorOf last))
      = (remaining key bound rows cursor).filter fun row => key row < bound (cursorOf last) := by
        unfold remaining
        rw [hbelow,orderBy_filter hfiltered]
    _ = _ := by
        conv_lhs => rw [← List.take_append_drop limit (remaining key bound rows cursor)]
        rw [List.filter_append,hpage,List.nil_append]

variable {request : ℕ → Option γ → Page α γ}

lemma follow_short
    (hrequest : ∀ number cursor, request number cursor =
      paginate limit cursorOf ((remaining key bound rows cursor).take (limit + 1)))
    {number : ℕ} {cursor : Option γ} (hshort : (remaining key bound rows cursor).length ≤ limit)
    {fuel : ℕ} (hfuel : 0 < fuel) :
    follow request fuel number cursor = some (remaining key bound rows cursor) := by
  obtain ⟨fuel,rfl⟩ := Nat.exists_eq_add_of_lt hfuel
  have htake : (remaining key bound rows cursor).take (limit + 1) =
      remaining key bound rows cursor := List.take_of_length_le (by omega)
  simp [follow,hrequest,htake,paginate,List.take_of_length_le hshort,not_lt.mpr hshort]

lemma follow_long
    (hrequest : ∀ number cursor, request number cursor =
      paginate limit cursorOf ((remaining key bound rows cursor).take (limit + 1)))
    {number : ℕ} {cursor : Option γ} {last : α}
    (hlong : limit < (remaining key bound rows cursor).length)
    (hlast : (remaining key bound rows cursor)[limit - 1]? = some last) (hlimit : 0 < limit)
    (fuel : ℕ) :
    follow request (fuel + 1) number cursor =
      (follow request fuel (number + 1) (some (cursorOf last))).map
        ((remaining key bound rows cursor).take limit ++ ·) := by
  have htake : ((remaining key bound rows cursor).take (limit + 1)).take limit =
      (remaining key bound rows cursor).take limit := by
    rw [List.take_take,Nat.min_eq_left (Nat.le_succ limit)]
  have hend : ((remaining key bound rows cursor).take limit).getLast? = some last := by
    rw [List.getLast?_eq_getElem?,List.length_take,Nat.min_eq_left hlong.le,List.getElem?_take,
      if_pos (by omega)]
    exact hlast
  have hlength : ((remaining key bound rows cursor).take (limit + 1)).length > limit := by
    rw [List.length_take]
    omega
  simp only [follow,hrequest,paginate,htake,hend,if_pos hlength,Option.map_some]

/-- The pages from a cursor on end, list rows in order and leave out none of them exactly if no
bound at the end of a page is too coarse. -/
lemma follow_remaining (hkeys : (rows.map key).Nodup)
    (hbound : ∀ row ∈ rows, bound (cursorOf row) ≤ key row) (hlimit : 0 < limit)
    (hrequest : ∀ number cursor, request number cursor =
      paginate limit cursorOf ((remaining key bound rows cursor).take (limit + 1)))
    (n number : ℕ) (cursor : Option γ) (hn : (remaining key bound rows cursor).length ≤ n) :
    ∃ data, (∀ fuel, n < fuel → follow request fuel number cursor = some data) ∧
      data.Sublist (remaining key bound rows cursor) ∧
      (data = remaining key bound rows cursor ↔
        ResolvedAt key bound cursorOf limit (remaining key bound rows cursor)) := by
  induction n generalizing number cursor with
  | zero =>
    have hshort : (remaining key bound rows cursor).length ≤ limit := by omega
    exact ⟨_,fun fuel hfuel => follow_short hrequest hshort hfuel,List.Sublist.refl _,
      fun _ => resolvedAt_short hshort,fun _ => rfl⟩
  | succ n ih =>
    by_cases hshort : (remaining key bound rows cursor).length ≤ limit
    · exact ⟨_,fun fuel hfuel => follow_short hrequest hshort (by omega),List.Sublist.refl _,
        fun _ => resolvedAt_short hshort,fun _ => rfl⟩
    have hlong := not_le.mp hshort
    obtain ⟨last,hlast⟩ : ∃ last, (remaining key bound rows cursor)[limit - 1]? = some last :=
      ⟨_,List.getElem?_eq_getElem (by omega)⟩
    have hnext := remaining_next hkeys hbound hlimit hlast
    have hless : (remaining key bound rows (some (cursorOf last))).length ≤ n := by
      rw [hnext]
      refine (List.length_filter_le _ _).trans ?_
      rw [List.length_drop]
      omega
    obtain ⟨data,hdata,hsub,hiff⟩ := ih (number + 1) (some (cursorOf last)) hless
    rw [hnext] at hsub hiff
    have hsorted : Descending key ((remaining key bound rows cursor).drop limit) :=
      (remaining_descending hkeys cursor).sublist (List.drop_sublist _ _)
    have hhead : (remaining key bound rows cursor)[limit]? =
        ((remaining key bound rows cursor).drop limit)[0]? := by
      rw [List.getElem?_drop,Nat.add_zero]
    refine ⟨(remaining key bound rows cursor).take limit ++ data,fun fuel hfuel => ?_,?_,?_⟩
    · obtain ⟨fuel,rfl⟩ : ∃ k, fuel = k + 1 := ⟨fuel - 1,by omega⟩
      rw [follow_long hrequest hlong hlast hlimit,hdata fuel (by omega),Option.map_some]
    · conv_rhs => rw [← List.take_append_drop limit (remaining key bound rows cursor)]
      exact (hsub.trans List.filter_sublist).append_left _
    · rw [resolvedAt_drop hlimit hlast,hhead,← hsorted.filter_eq_iff]
      -- All rows come back exactly if the next page starts with the row behind this one and the
      -- pages after it leave out nothing.
      have hwhole : (remaining key bound rows cursor).take limit ++ data =
          remaining key bound rows cursor ↔ data = (remaining key bound rows cursor).drop limit := by
        conv_lhs =>
          rhs
          rw [← List.take_append_drop limit (remaining key bound rows cursor)]
        exact List.append_right_inj _
      rw [hwhole]
      constructor
      · intro h
        have hkept := (List.filter_sublist).antisymm (h ▸ hsub)
        exact ⟨hkept,by rw [hkept] at hiff; exact hiff.mp h⟩
      · rintro ⟨hkept,hrest⟩
        rw [hkept] at hiff
        exact hiff.mpr hrest

/-- Following the cursors from the first page to the last one ends, and returns every row once and
in order exactly if no bound at the end of a page is too coarse. -/
theorem follow_returns_iff (hkeys : (rows.map key).Nodup)
    (hbound : ∀ row ∈ rows, bound (cursorOf row) ≤ key row) (hlimit : 0 < limit)
    (hrequest : ∀ number cursor, request number cursor =
      paginate limit cursorOf ((remaining key bound rows cursor).take (limit + 1))) :
    ∃ data, Follows request data ∧
      (Returned key rows data ↔ Resolved key bound cursorOf limit rows) := by
  have hlength : (remaining key bound rows none).length ≤ rows.length := by
    rw [remaining_none]
    exact orderBy_perm.length_eq.le
  obtain ⟨data,hdata,-,hiff⟩ := follow_remaining hkeys hbound hlimit hrequest _ 0 none hlength
  rw [remaining_none] at hiff
  refine ⟨data,⟨rows.length + 1,hdata⟩,?_⟩
  rw [returned_iff hkeys,resolved_iff hkeys]
  exact hiff

/-- A bound as fine as the key loses nothing. -/
lemma resolved_exact (hbound : ∀ row ∈ rows, bound (cursorOf row) = key row) :
    Resolved key bound cursorOf limit rows := by
  intro last hlast row _ _ hlt
  rw [hbound last hlast]
  exact hlt

end Follow

end Linea.Keyset
