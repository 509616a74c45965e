import Linea.JsonStrings
import Mathlib.Data.List.Sort
import Mathlib.Data.List.Perm.Subperm

/-! JSON trees over any keys and leaves: when two of them differ in the order of keys only, how
rearranging the fields of every object decides that, and why the text of a tree determines it. -/
namespace Linea.JsonText

inductive Tree (K L : Type)
  | leaf (l : L)
  | arr (items : List (Tree K L))
  | obj (fields : List (K × Tree K L))

namespace Tree
variable {K L M : Type}

theorem induct {motive : Tree K L → Prop} (leaf : ∀ l, motive (.leaf l))
    (arr : ∀ items, (∀ v ∈ items, motive v) → motive (.arr items))
    (obj : ∀ fields, (∀ p ∈ fields, motive p.2) → motive (.obj fields)) : ∀ v, motive v
  | .leaf l => leaf l
  | .arr items => arr items fun v _ => induct leaf arr obj v
  | .obj fields => obj fields fun p _ => induct leaf arr obj p.2
decreasing_by
  · rename_i h
    have := List.sizeOf_lt_of_mem h
    simp only [Tree.arr.sizeOf_spec]
    omega
  · rename_i h
    have := List.sizeOf_lt_of_mem h
    obtain ⟨k,v⟩ := p
    simp only [Tree.obj.sizeOf_spec,Prod.mk.sizeOf_spec] at this ⊢
    omega

/-- A leaf or a key somewhere in the tree. -/
inductive Contains (P : L → Prop) (Q : K → Prop) : Tree K L → Prop
  | leaf {l : L} (h : P l) : Contains P Q (.leaf l)
  | item {items : List (Tree K L)} {v : Tree K L} (hv : v ∈ items) (h : Contains P Q v) :
    Contains P Q (.arr items)
  | key {fields : List (K × Tree K L)} {p : K × Tree K L} (hp : p ∈ fields) (h : Q p.1) :
    Contains P Q (.obj fields)
  | field {fields : List (K × Tree K L)} {p : K × Tree K L} (hp : p ∈ fields)
    (h : Contains P Q p.2) : Contains P Q (.obj fields)

lemma Contains.mono {P P' : L → Prop} {Q Q' : K → Prop} {v : Tree K L} (h : Contains P Q v)
    (hP : ∀ l, P l → P' l) (hQ : ∀ k, Q k → Q' k) : Contains P' Q' v := by
  induction h with
  | leaf h => exact .leaf (hP _ h)
  | item hv _ ih => exact .item hv ih
  | key hp h => exact .key hp (hQ _ h)
  | field hp _ ih => exact .field hp ih

lemma not_contains {P : L → Prop} {Q : K → Prop} (hP : ∀ l, ¬P l) (hQ : ∀ k, ¬Q k) {v : Tree K L} :
    ¬Contains P Q v := fun h => by
  induction h with
  | leaf h => exact hP _ h
  | key _ h => exact hQ _ h
  | item _ _ ih => exact ih
  | field _ _ ih => exact ih

/-- No object has a key twice. -/
inductive KeysDistinct : Tree K L → Prop
  | leaf (l : L) : KeysDistinct (.leaf l)
  | arr {items : List (Tree K L)} (h : ∀ v ∈ items, KeysDistinct v) : KeysDistinct (.arr items)
  | obj {fields : List (K × Tree K L)} (hkeys : (fields.map Prod.fst).Nodup)
    (h : ∀ p ∈ fields, KeysDistinct p.2) : KeysDistinct (.obj fields)

mutual
/-- Equality up to the order of keys, for an equality of leaves. -/
def Same (r : L → L → Prop) : Tree K L → Tree K L → Prop
  | .leaf a, .leaf b => r a b
  | .arr items, .arr items' => SameItems r items items'
  | .obj fields, .obj fields' => fields.length = fields'.length ∧ SameFields r fields fields'
  | _, _ => False

def SameItems (r : L → L → Prop) : List (Tree K L) → List (Tree K L) → Prop
  | [], [] => True
  | v :: items, w :: items' => Same r v w ∧ SameItems r items items'
  | _, _ => False

/-- Each field has one of the same key and value among the others. -/
def SameFields (r : L → L → Prop) : List (K × Tree K L) → List (K × Tree K L) → Prop
  | [], _ => True
  | (k,v) :: fields, fields' => (∃ w, (k,w) ∈ fields' ∧ Same r v w) ∧ SameFields r fields fields'
end

mutual
/-- The leaves are written out, and the fields of every object rearranged. -/
def normal (arrange : List (K × Tree K M) → List (K × Tree K M)) (f : L → M) : Tree K L → Tree K M
  | .leaf l => .leaf (f l)
  | .arr items => .arr (normalItems arrange f items)
  | .obj fields => .obj (arrange (normalFields arrange f fields))

def normalItems (arrange : List (K × Tree K M) → List (K × Tree K M)) (f : L → M) :
    List (Tree K L) → List (Tree K M)
  | [] => []
  | v :: items => normal arrange f v :: normalItems arrange f items

def normalFields (arrange : List (K × Tree K M) → List (K × Tree K M)) (f : L → M) :
    List (K × Tree K L) → List (K × Tree K M)
  | [] => []
  | (k,v) :: fields => (k,normal arrange f v) :: normalFields arrange f fields
end

lemma normalItems_eq_map (arrange : List (K × Tree K M) → List (K × Tree K M)) (f : L → M)
    (items : List (Tree K L)) : normalItems arrange f items = items.map (normal arrange f) := by
  induction items with
  | nil => rfl
  | cons v items ih => rw [normalItems,ih,List.map_cons]

lemma normalFields_eq_map (arrange : List (K × Tree K M) → List (K × Tree K M)) (f : L → M)
    (fields : List (K × Tree K L)) :
    normalFields arrange f fields = fields.map fun p => (p.1,normal arrange f p.2) := by
  induction fields with
  | nil => rfl
  | cons p fields ih =>
    obtain ⟨k,v⟩ := p
    rw [normalFields,ih,List.map_cons]

lemma sameFields_iff {r : L → L → Prop} {fields fields' : List (K × Tree K L)} :
    SameFields r fields fields' ↔ ∀ p ∈ fields, ∃ w, (p.1,w) ∈ fields' ∧ Same r p.2 w := by
  induction fields with
  | nil => simp [SameFields]
  | cons p fields ih =>
    obtain ⟨k,v⟩ := p
    rw [SameFields,ih,List.forall_mem_cons]

lemma sameItems_iff {r : L → L → Prop} {items items' : List (Tree K L)} :
    SameItems r items items' ↔ items.length = items'.length ∧
      ∀ i (h : i < items.length) (h' : i < items'.length),
        Same r (items.get ⟨i,h⟩) (items'.get ⟨i,h'⟩) := by
  have hforall : SameItems r items items' ↔ List.Forall₂ (Same r) items items' := by
    induction items generalizing items' with
    | nil => cases items' <;> simp [SameItems]
    | cons v items ih => cases items' <;> simp [SameItems,ih]
  rw [hforall,List.forall₂_iff_get]

lemma Same.refl {r : L → L → Prop} (hr : ∀ l, r l l) (v : Tree K L) : Same r v v := by
  induction v using Tree.induct with
  | leaf l => exact hr l
  | arr items ih =>
    rw [Same,sameItems_iff]
    exact ⟨rfl,fun i hi _ => ih _ (items.get_mem ⟨i,hi⟩)⟩
  | obj fields ih =>
    rw [Same,sameFields_iff]
    exact ⟨rfl,fun p hp => ⟨p.2,hp,ih p hp⟩⟩

/-- Fields of one key are the same in objects that are. -/
lemma Same.field {r : L → L → Prop} {fields fields' : List (K × Tree K L)}
    (h : Same r (.obj fields) (.obj fields')) (hkeys : (fields'.map Prod.fst).Nodup) {k : K}
    {v w : Tree K L} (hv : (k,v) ∈ fields) (hw : (k,w) ∈ fields') : Same r v w := by
  rw [Same,sameFields_iff] at h
  obtain ⟨w',hw',hsame⟩ := h.2 (k,v) hv
  obtain rfl : w' = w := congrArg Prod.snd (List.inj_on_of_nodup_map hkeys hw' hw rfl)
  exact hsame

/-! ## Rearranged fields -/

/-- The fields of an object are put into an order that their keys determine. -/
structure Arranges (arrange : List (K × Tree K M) → List (K × Tree K M)) : Prop where
  perm : ∀ fields, (arrange fields).Perm fields
  congr : ∀ {fields fields'}, (fields.map Prod.fst).Nodup → fields.Perm fields' →
    arrange fields = arrange fields'

section Normal

variable {arrange : List (K × Tree K M) → List (K × Tree K M)} {f : L → M}

lemma Arranges.eq_iff (h : Arranges arrange) {fields fields' : List (K × Tree K M)}
    (hkeys : (fields.map Prod.fst).Nodup) :
    arrange fields = arrange fields' ↔ fields.Perm fields' :=
  ⟨fun heq => ((h.perm fields).symm.trans (heq ▸ h.perm fields')),h.congr hkeys⟩

lemma Arranges.mem (h : Arranges arrange) {fields : List (K × Tree K M)} {p : K × Tree K M}
    (hp : p ∈ arrange fields) : p ∈ fields :=
  (h.perm fields).subset hp

/-- Lists of fields with distinct keys are permutations when they are as long and the one has all
fields of the other. -/
lemma perm_iff_of_keys {α : Type} {l l' : List (K × α)} (hkeys : (l.map Prod.fst).Nodup) :
    l.Perm l' ↔ l.length = l'.length ∧ ∀ p ∈ l, p ∈ l' := by
  refine ⟨fun h => ⟨h.length_eq,fun p => h.subset (a := p)⟩,fun ⟨hlen,hsub⟩ => ?_⟩
  exact (List.subperm_of_subset (List.Nodup.of_map _ hkeys) hsub).perm_of_length_le hlen.ge

lemma mem_fields {fields : List (K × Tree K L)} {k : K} {w : Tree K M} :
    (k,w) ∈ fields.map (fun p => (p.1,normal arrange f p.2)) ↔
      ∃ v, (k,v) ∈ fields ∧ normal arrange f v = w := by
  simp only [List.mem_map,Prod.mk.injEq]
  constructor
  · rintro ⟨⟨k',v⟩,hp,rfl,hw⟩
    exact ⟨v,hp,hw⟩
  · rintro ⟨v,hp,hw⟩
    exact ⟨(k,v),hp,rfl,hw⟩

/-- Trees with distinct keys have the same normal form just when they are equal up to the order of
keys. -/
theorem normal_eq_iff (h : Arranges arrange) {v w : Tree K L} (hv : KeysDistinct v)
    (hw : KeysDistinct w) :
    normal arrange f v = normal arrange f w ↔ Same (fun a b => f a = f b) v w := by
  induction v using induct generalizing w with
  | leaf a => cases w <;> simp [normal,Same]
  | arr items ih =>
    cases w with
    | leaf | obj => simp [normal,Same]
    | arr items' =>
      cases hv with | arr hv =>
      cases hw with | arr hw =>
      rw [normal,normal,Same,Tree.arr.injEq]
      induction items generalizing items' with
      | nil => cases items' <;> simp [normalItems,SameItems]
      | cons v items ihs =>
        cases items' with
        | nil => simp [normalItems,SameItems]
        | cons w items' =>
          rw [normalItems,normalItems,SameItems,List.cons.injEq,
            ih v (by simp) (hv v (by simp)) (hw w (by simp)),
            ihs (fun u hu => ih u (by simp [hu])) items' (fun u hu => hv u (by simp [hu]))
              (fun u hu => hw u (by simp [hu]))]
  | obj fields ih =>
    cases w with
    | leaf | arr => simp [normal,Same]
    | obj fields' =>
      cases hv with | obj hkeys hv =>
      cases hw with | obj _ hw =>
      have hnodup : ((normalFields arrange f fields).map Prod.fst).Nodup := by
        rw [normalFields_eq_map,List.map_map]
        exact hkeys
      rw [normal,normal,Same,Tree.obj.injEq,h.eq_iff hnodup,perm_iff_of_keys hnodup,
        normalFields_eq_map,normalFields_eq_map,List.length_map,List.length_map,sameFields_iff,
        List.forall_mem_map]
      refine and_congr_right fun _ => forall₂_congr fun p hp => ?_
      rw [mem_fields]
      refine exists_congr fun w => and_congr_right fun hmem => ?_
      rw [eq_comm,ih p hp (hv p hp) (hw _ hmem)]

/-- Trees that are equal up to the order of keys have the same normal form, also where fields are
left out. -/
lemma normal_eq_of_same {r : L → L → Prop} (hr : ∀ {a b}, r a b → f a = f b)
    (harrange : ∀ {fields fields' : List (K × Tree K M)}, (fields.map Prod.fst).Nodup →
      fields.Perm fields' → arrange fields = arrange fields') {v w : Tree K L}
    (hv : KeysDistinct v) (hw : KeysDistinct w) (h : Same r v w) :
    normal arrange f v = normal arrange f w := by
  induction v using induct generalizing w with
  | leaf a =>
    cases w with
    | leaf b => exact congrArg Tree.leaf (hr h)
    | arr | obj => simp [Same] at h
  | arr items ih =>
    cases w with
    | leaf | obj => simp [Same] at h
    | arr items' =>
      cases hv with | arr hv =>
      cases hw with | arr hw =>
      rw [Same] at h
      rw [normal,normal,Tree.arr.injEq]
      induction items generalizing items' with
      | nil =>
        cases items' with
        | nil => rfl
        | cons => simp [SameItems] at h
      | cons v items ihs =>
        cases items' with
        | nil => simp [SameItems] at h
        | cons w items' =>
          rw [SameItems] at h
          rw [normalItems,normalItems,ih v (by simp) (hv v (by simp)) (hw w (by simp)) h.1,
            ihs (fun u hu => ih u (by simp [hu])) items' h.2 (fun u hu => hv u (by simp [hu]))
              (fun u hu => hw u (by simp [hu]))]
  | obj fields ih =>
    cases w with
    | leaf | arr => simp [Same] at h
    | obj fields' =>
      cases hv with | obj hkeys hv =>
      cases hw with | obj _ hw =>
      have hnodup : ((normalFields arrange f fields).map Prod.fst).Nodup := by
        rw [normalFields_eq_map,List.map_map]
        exact hkeys
      rw [Same,sameFields_iff] at h
      rw [normal,normal,harrange hnodup ((perm_iff_of_keys hnodup).mpr ?_)]
      rw [normalFields_eq_map,normalFields_eq_map,List.length_map,List.length_map,
        List.forall_mem_map]
      refine ⟨h.1,fun p hp => mem_fields.mpr ?_⟩
      obtain ⟨w,hmem,hsame⟩ := h.2 p hp
      exact ⟨w,hmem,(ih p hp (hv p hp) (hw _ hmem) hsame).symm⟩

/-- Leaves of a normal form are images of leaves, and its keys are keys. -/
lemma contains_of_normal (hsub : ∀ {fields : List (K × Tree K M)} {p}, p ∈ arrange fields → p ∈ fields)
    {P : M → Prop} {Q : K → Prop} {v : Tree K L}
    (hc : Contains P Q (normal arrange f v)) : Contains (fun l => P (f l)) Q v := by
  induction v using induct with
  | leaf a =>
    cases hc with | leaf hp => exact .leaf hp
  | arr items ih =>
    rw [normal,normalItems_eq_map] at hc
    cases hc with | item hv hc =>
    obtain ⟨u,hu,rfl⟩ := List.mem_map.mp hv
    exact .item hu (ih u hu hc)
  | obj fields ih =>
    rw [normal,normalFields_eq_map] at hc
    cases hc with
    | key hp hq =>
      obtain ⟨p,hmem,rfl⟩ := List.mem_map.mp (hsub hp)
      exact .key hmem hq
    | field hp hc =>
      obtain ⟨p,hmem,rfl⟩ := List.mem_map.mp (hsub hp)
      exact .field hmem (ih p hmem hc)

end Normal

/-- Equalities of leaves that agree on the leaves at hand. -/
lemma same_congr {r r' : L → L → Prop} {P : L → Prop} {Q : K → Prop}
    (hr : ∀ {a b}, P a → P b → (r a b ↔ r' a b)) {v w : Tree K L}
    (hv : ¬Contains (¬P ·) Q v) (hw : ¬Contains (¬P ·) Q w) : Same r v w ↔ Same r' v w := by
  have hleaf {a : L} (ha : ¬Contains (¬P ·) Q (.leaf a : Tree K L)) : P a :=
    not_not.mp fun hn => ha (.leaf hn)
  induction v using induct generalizing w with
  | leaf a =>
    cases w with
    | leaf b => exact hr (hleaf hv) (hleaf hw)
    | arr | obj => simp [Same]
  | arr items ih =>
    cases w with
    | leaf | obj => simp [Same]
    | arr items' =>
      rw [Same,Same]
      induction items generalizing items' with
      | nil => cases items' <;> simp [SameItems]
      | cons v items ihs =>
        cases items' with
        | nil => simp [SameItems]
        | cons w items' =>
          have htail {u : Tree K L} {us : List (Tree K L)}
              (h : ¬Contains (¬P ·) Q (.arr (u :: us))) : ¬Contains (¬P ·) Q (.arr us) := fun hc => by
            cases hc with | item hu hc => exact h (.item (List.mem_cons_of_mem _ hu) hc)
          have hhead : Same r v w ↔ Same r' v w := ih v (by simp)
            (fun hc => hv (.item List.mem_cons_self hc)) (fun hc => hw (.item List.mem_cons_self hc))
          have hrest := ihs (fun u hu => ih u (List.mem_cons_of_mem _ hu)) (htail hv) items' (htail hw)
          rw [SameItems,SameItems]
          exact and_congr hhead hrest
  | obj fields ih =>
    cases w with
    | leaf | arr => simp [Same]
    | obj fields' =>
      rw [Same,Same,sameFields_iff,sameFields_iff]
      refine and_congr_right fun _ => forall₂_congr fun p hp => exists_congr fun u =>
        and_congr_right fun hu => ?_
      exact ih p hp (fun hc => hv (.field hp hc)) (fun hc => hw (.field hu hc))

/-! ## The text of a tree -/

/-- Each text after the first with a comma before it. -/
def joinTail : List Text → Text
  | [] => []
  | t :: texts => 44 :: (t ++ joinTail texts)

/-- `texts.join(",")`. -/
def join : List Text → Text
  | [] => []
  | t :: texts => t ++ joinTail texts

mutual
/-- The leaves are texts, and the keys strings. -/
def print : Tree Text Text → Text
  | .leaf t => t
  | .arr items => 91 :: (join (printItems items) ++ [93])
  | .obj fields => 123 :: (join (printFields fields) ++ [125])

def printItems : List (Tree Text Text) → List Text
  | [] => []
  | v :: items => print v :: printItems items

def printFields : List (Text × Tree Text Text) → List Text
  | [] => []
  | (k,v) :: fields => (quote k ++ 58 :: print v) :: printFields fields
end

lemma printItems_eq_map (items : List (Tree Text Text)) : printItems items = items.map print := by
  induction items with
  | nil => rfl
  | cons v items ih => rw [printItems,ih,List.map_cons]

def printField (p : Text × Tree Text Text) : Text := quote p.1 ++ 58 :: print p.2

lemma printFields_eq_map (fields : List (Text × Tree Text Text)) :
    printFields fields = fields.map printField := by
  induction fields with
  | nil => rfl
  | cons p fields ih =>
    obtain ⟨k,v⟩ := p
    rw [printFields,ih,List.map_cons,printField]

/-- What can stand after a value. -/
def Stop (c : UInt16) : Prop := c = 44 ∨ c = 93 ∨ c = 125

def Stops (s : Text) : Prop := ∀ c ∈ s.head?, Stop c

/-- `t` begins, and not with what ends a value. -/
def Starts (t : Text) : Prop := ∃ c rest, t = c :: rest ∧ ¬Stop c

lemma stops_joinTail {texts : List Text} {c : UInt16} {s : Text} (hc : c = 93 ∨ c = 125) :
    Stops (joinTail texts ++ c :: s) := by
  cases texts with
  | nil =>
    intro d hd
    obtain rfl : c = d := by simpa [joinTail] using hd
    exact .inr hc
  | cons t texts =>
    intro d hd
    obtain rfl : 44 = d := by simpa [joinTail] using hd
    exact .inl rfl

section Lists

variable {α : Type} {p : α → Text} {xs ys : List α} {c : UInt16} {s t : Text}

/-- Elements whose texts can be told apart up to what follows a value. -/
def Apart (p : α → Text) (x y : α) : Prop :=
  ∀ {s t}, Stops s → Stops t → p x ++ s = p y ++ t → x = y ∧ s = t

lemma joinTail_inj (hc : c = 93 ∨ c = 125) (h : ∀ x ∈ xs, ∀ y ∈ ys, Apart p x y)
    (heq : joinTail (xs.map p) ++ c :: s = joinTail (ys.map p) ++ c :: t) : xs = ys ∧ s = t := by
  have hcomma : c ≠ 44 := by rcases hc with rfl | rfl <;> decide
  induction xs generalizing ys with
  | nil =>
    cases ys with
    | nil => exact ⟨rfl,by simpa [joinTail] using heq⟩
    | cons y ys => exact absurd (by simpa [joinTail] using congrArg List.head? heq) hcomma
  | cons x xs ih =>
    cases ys with
    | nil => exact absurd (by simpa [joinTail] using (congrArg List.head? heq).symm) hcomma
    | cons y ys =>
      simp only [List.map_cons,joinTail,List.cons_append,List.append_assoc,List.cons.injEq,
        true_and] at heq
      obtain ⟨rfl,hrest⟩ := h x (by simp) y (by simp) (stops_joinTail hc) (stops_joinTail hc) heq
      obtain ⟨rfl,rfl⟩ := ih (fun x hx y hy => h x (by simp [hx]) y (by simp [hy])) hrest
      exact ⟨rfl,rfl⟩

lemma join_inj (hc : c = 93 ∨ c = 125) (h : ∀ x ∈ xs, ∀ y ∈ ys, Apart p x y)
    (hxs : ∀ x ∈ xs, Starts (p x)) (hys : ∀ y ∈ ys, Starts (p y))
    (heq : join (xs.map p) ++ c :: s = join (ys.map p) ++ c :: t) : xs = ys ∧ s = t := by
  cases xs with
  | nil =>
    cases ys with
    | nil => exact ⟨rfl,by simpa [join] using heq⟩
    | cons y ys =>
      obtain ⟨d,rest,hd,hstop⟩ := hys y (by simp)
      have : c = d := by simpa [join,hd] using congrArg List.head? heq
      exact absurd (this ▸ .inr hc) hstop
  | cons x xs =>
    cases ys with
    | nil =>
      obtain ⟨d,rest,hd,hstop⟩ := hxs x (by simp)
      have : d = c := by simpa [join,hd] using congrArg List.head? heq
      exact absurd (this ▸ .inr hc) hstop
    | cons y ys =>
      simp only [List.map_cons,join,List.append_assoc] at heq
      obtain ⟨rfl,hrest⟩ := h x (by simp) y (by simp) (stops_joinTail hc) (stops_joinTail hc) heq
      obtain ⟨rfl,rfl⟩ := joinTail_inj hc (fun x hx y hy => h x (by simp [hx]) y (by simp [hy])) hrest
      exact ⟨rfl,rfl⟩

end Lists

/-- Texts for leaves: they do not begin like an array, an object or the end of a value, and are told
apart up to what follows them. -/
structure LeafTexts (P : Text → Prop) : Prop where
  starts : ∀ {a}, P a → ∃ c rest, a = c :: rest ∧ ¬Stop c ∧ c ≠ 91 ∧ c ≠ 123
  apart : ∀ {a b}, P a → P b → ∀ {s t}, Stops s → Stops t → a ++ s = b ++ t → a = b ∧ s = t

section Print

variable {P : Text → Prop}

lemma print_starts (h : LeafTexts P) {v : Tree Text Text} (hv : ∀ a, v = .leaf a → P a) :
    Starts (print v) := by
  cases v with
  | leaf a =>
    obtain ⟨c,rest,ha,hstop,_⟩ := h.starts (hv a rfl)
    exact ⟨c,rest,ha,hstop⟩
  | arr items => exact ⟨91,_,by rw [print],by unfold Stop; decide⟩
  | obj fields => exact ⟨123,_,by rw [print],by unfold Stop; decide⟩

/-- A leaf is not taken for an array or an object. -/
lemma LeafTexts.head_ne (h : LeafTexts P) {a x y : Text} {c : UInt16} (ha : P a)
    (hc : c = 91 ∨ c = 123) : a ++ x ≠ c :: y := by
  obtain ⟨d,rest,rfl,_,harr,hobj⟩ := h.starts ha
  intro heq
  obtain rfl : d = c := by simpa using congrArg List.head? heq
  rcases hc with rfl | rfl
  · exact harr rfl
  · exact hobj rfl

/-- The text of a tree determines it, and where it ends. -/
theorem print_append_inj (h : LeafTexts P) {v w : Tree Text Text} {s t : Text}
    (hv : ¬Contains (¬P ·) (fun _ => False) v) (hw : ¬Contains (¬P ·) (fun _ => False) w)
    (hs : Stops s) (ht : Stops t) (heq : print v ++ s = print w ++ t) : v = w ∧ s = t := by
  have hleaf {a : Text} (ha : ¬Contains (¬P ·) (fun _ => False) (.leaf a : Tree Text Text)) : P a :=
    not_not.mp fun hn => ha (.leaf hn)
  have hstarts {v : Tree Text Text} (hv : ¬Contains (¬P ·) (fun _ => False) v) : Starts (print v) :=
    print_starts h fun a ha => hleaf (ha ▸ hv)
  induction v using induct generalizing w s t with
  | leaf a =>
    cases w with
    | leaf b =>
      obtain ⟨rfl,rfl⟩ := h.apart (hleaf hv) (hleaf hw) hs ht heq
      exact ⟨rfl,rfl⟩
    | arr items => exact absurd heq (h.head_ne (hleaf hv) (.inl rfl))
    | obj fields => exact absurd heq (h.head_ne (hleaf hv) (.inr rfl))
  | arr items ih =>
    cases w with
    | leaf b => exact absurd heq.symm (h.head_ne (hleaf hw) (.inl rfl))
    | obj fields => simp [print] at heq
    | arr items' =>
      simp only [print,printItems_eq_map,List.cons_append,List.append_assoc,List.nil_append,
        List.cons.injEq,true_and] at heq
      have hsub {u : Tree Text Text} (hu : u ∈ items) : ¬Contains (¬P ·) (fun _ => False) u :=
        fun hc => hv (.item hu hc)
      have hsub' {u : Tree Text Text} (hu : u ∈ items') : ¬Contains (¬P ·) (fun _ => False) u :=
        fun hc => hw (.item hu hc)
      obtain ⟨rfl,rfl⟩ := join_inj (.inl rfl) (fun x hx y hy _ _ hs ht heq =>
        ih x hx (hsub hx) (hsub' hy) hs ht heq) (fun x hx => hstarts (hsub hx))
        (fun y hy => hstarts (hsub' hy)) heq
      exact ⟨rfl,rfl⟩
  | obj fields ih =>
    cases w with
    | leaf b => exact absurd heq.symm (h.head_ne (hleaf hw) (.inr rfl))
    | arr items => simp [print] at heq
    | obj fields' =>
      simp only [print,printFields_eq_map,List.cons_append,List.append_assoc,List.nil_append,
        List.cons.injEq,true_and] at heq
      have hquote (p : Text × Tree Text Text) : Starts (printField p) :=
        ⟨34,_,by rw [printField,quote,List.cons_append],by unfold Stop; decide⟩
      have hapart : ∀ p ∈ fields, ∀ q ∈ fields', Apart printField p q := by
        intro p hp q hq x y hx hy hpq
        rw [printField,printField,List.append_assoc,List.append_assoc] at hpq
        obtain ⟨hkey,hrest⟩ := quote_append_inj hpq
        rw [List.cons_append,List.cons_append,List.cons.injEq] at hrest
        obtain ⟨hvalue,hxy⟩ := ih p hp (fun hc => hv (.field hp hc)) (fun hc => hw (.field hq hc))
          hx hy hrest.2
        exact ⟨Prod.ext hkey hvalue,hxy⟩
      obtain ⟨rfl,rfl⟩ := join_inj (.inr rfl) hapart (fun p _ => hquote p) (fun q _ => hquote q) heq
      exact ⟨rfl,rfl⟩

end Print

section Paired

lemma paired_cons {c : UInt16} {t : Text} (hc : isHigh c = false ∧ isLow c = false) :
    hasLoneSurrogate (c :: t) = hasLoneSurrogate t :=
  hasLoneSurrogate_append (s := [c]) (by simp [hasLoneSurrogate,hc])

lemma paired_snoc {c : UInt16} {t : Text} (hc : isHigh c = false ∧ isLow c = false)
    (h : hasLoneSurrogate t = false) : hasLoneSurrogate (t ++ [c]) = false := by
  rw [hasLoneSurrogate_append h,paired_cons hc]
  rfl

lemma paired_join {texts : List Text} (h : ∀ t ∈ texts, hasLoneSurrogate t = false) :
    hasLoneSurrogate (join texts) = false := by
  have htail : ∀ {texts : List Text}, (∀ t ∈ texts, hasLoneSurrogate t = false) →
      hasLoneSurrogate (joinTail texts) = false := by
    intro texts h
    induction texts with
    | nil => rfl
    | cons t texts ih =>
      rw [joinTail,paired_cons (by decide),hasLoneSurrogate_append (h t (by simp))]
      exact ih fun u hu => h u (by simp [hu])
  cases texts with
  | nil => rfl
  | cons t texts =>
    rw [join,hasLoneSurrogate_append (h t (by simp))]
    exact htail fun u hu => h u (by simp [hu])

/-- The text of a tree has no surrogate that stands alone if its leaves have none. -/
theorem print_paired {v : Tree Text Text}
    (h : ¬Contains (hasLoneSurrogate · = true) (fun _ => False) v) :
    hasLoneSurrogate (print v) = false := by
  induction v using induct with
  | leaf a => exact Bool.eq_false_iff.mpr fun ha => h (.leaf ha)
  | arr items ih =>
    rw [print,paired_cons (by decide),printItems_eq_map]
    refine paired_snoc (by decide) (paired_join fun t ht => ?_)
    obtain ⟨v,hv,rfl⟩ := List.mem_map.mp ht
    exact ih v hv fun hc => h (.item hv hc)
  | obj fields ih =>
    rw [print,paired_cons (by decide),printFields_eq_map]
    refine paired_snoc (by decide) (paired_join fun t ht => ?_)
    obtain ⟨p,hp,rfl⟩ := List.mem_map.mp ht
    rw [printField,hasLoneSurrogate_append (quote_paired p.1),paired_cons (by decide)]
    exact ih p hp fun hc => h (.field hp hc)

end Paired

end Tree
end Linea.JsonText
