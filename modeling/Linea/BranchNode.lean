import Linea.WorkflowHash

/-! The branch node of `nodes/branch.node.ts`: the deep equality that matches a case, which reads the
keys of one object in the other through the prototype. -/
namespace Linea.BranchNode
open JsonText JsonText.Tree WorkflowHash

/-- The methods that an object inherits from `Object.prototype`. -/
def prototypeMethods : List Text :=
  ["constructor","__defineGetter__","__defineSetter__","hasOwnProperty","__lookupGetter__",
    "__lookupSetter__","isPrototypeOf","propertyIsEnumerable","toString","valueOf",
    "toLocaleString"].map ascii

/-- What reading a property of an object gives. -/
inductive Property
  | own (value : Json)
  | prototype
  | method
  | undefined

/-- `record[key]`: a key that the object does not have is looked up in `Object.prototype`, where
`__proto__` is an accessor that gives the prototype itself. -/
def getProperty (record : List (Text × Json)) (key : Text) : Property :=
  match record.find? fun p => p.1 = key with
  | some p => .own p.2
  | none =>
    if key = protoKey then .prototype
    else if prototypeMethods.contains key then .method
    else .undefined

def isNaN (bits : UInt64) : Bool := !isFinite bits && bits.toNat % 2 ^ 52 ≠ 0

/-- `a === b` of values that are no objects. -/
def strictEqual : Atom → Atom → Bool
  | .number x,.number y => !isNaN x && !isNaN y && decide (SameNumber x y)
  | a,b => decide (a = b)

/-- `deepEqual(value, Object.prototype)`, which has no enumerable property. -/
def equalsPrototype : Json → Bool
  | .obj fields => fields.length = 0
  | _ => false

mutual
/-- One object met twice is `===` to itself; that the recursion finds it equal too is
`deepEqual_refl`. -/
def deepEqual : Json → Json → Bool
  | .leaf a,.leaf b => strictEqual a b
  | .arr items,.arr items' => items.length = items'.length && everyItem items items'
  | .obj fields,.obj fields' => fields.length = fields'.length && everyEntry fields fields'
  | _,_ => false

def everyItem : List Json → List Json → Bool
  | [],_ => true
  | v :: items,w :: items' => deepEqual v w && everyItem items items'
  | _ :: _,[] => false

def everyEntry : List (Text × Json) → List (Text × Json) → Bool
  | [],_ => true
  | (key,value) :: entries,record =>
    (match getProperty record key with
      | .own w => deepEqual value w
      | .prototype => equalsPrototype value
      | .method => false
      | .undefined => false) && everyEntry entries record
end

/-- `Object.entries(cases).find(...)`. -/
def matched (cases : List (Text × Json)) (value : Json) : Option (Text × Json) :=
  (ownKeys cases).find? fun p => deepEqual p.2 value

/-- The branch that `execute` returns; `none` where it throws. -/
def execute (cases : Option (List (Text × Json))) (defaultBranch : Option Text) (value : Json) :
    Option Text :=
  match ((matched (cases.getD []) value).map Prod.fst).or defaultBranch with
  | some branch => if branch = [] then none else some branch
  | none => none

/-! ### What the comparison decides -/

/-- A value that `JSON.parse` gives. -/
inductive Parsed : Json → Prop
  | leaf {a : Atom} (h : a.isFinite = true) : Parsed (.leaf a)
  | arr {items : List Json} (h : ∀ v ∈ items, Parsed v) : Parsed (.arr items)
  | obj {fields : List (Text × Json)} (hkeys : (fields.map Prod.fst).Nodup)
    (h : ∀ p ∈ fields, Parsed p.2) : Parsed (.obj fields)

mutual
/-- Equality up to the order of keys, except that an entry `__proto__: {}` of the left may stand
against any entry of an object without that key. -/
def Passes : Json → Json → Prop
  | .leaf a,.leaf b => SameAtom a b
  | .arr items,.arr items' => PassesItems items items'
  | .obj fields,.obj fields' => fields.length = fields'.length ∧ PassesFields fields fields'
  | _,_ => False

def PassesItems : List Json → List Json → Prop
  | [],[] => True
  | v :: items,w :: items' => Passes v w ∧ PassesItems items items'
  | _,_ => False

def PassesFields : List (Text × Json) → List (Text × Json) → Prop
  | [],_ => True
  | (k,v) :: fields,fields' =>
    ((∃ w, (k,w) ∈ fields' ∧ Passes v w) ∨
      k = protoKey ∧ v = .obj [] ∧ protoKey ∉ fields'.map Prod.fst) ∧ PassesFields fields fields'
end

/-- One value is the other up to the order of keys, but for entries `__proto__: {}` in the place of
which the other has an entry of another key. -/
def Replaced (a b : Json) : Prop := Passes a b ∧ ¬Same SameAtom a b

lemma passesFields_iff {fields fields' : List (Text × Json)} :
    PassesFields fields fields' ↔ ∀ p ∈ fields, (∃ w, (p.1,w) ∈ fields' ∧ Passes p.2 w) ∨
      p.1 = protoKey ∧ p.2 = .obj [] ∧ protoKey ∉ fields'.map Prod.fst := by
  induction fields with
  | nil => simp [PassesFields]
  | cons p fields ih =>
    obtain ⟨k,v⟩ := p
    rw [PassesFields,ih,List.forall_mem_cons]

/-- Lists of values pass item by item. -/
lemma passesItems_iff {items items' : List Json} : PassesItems items items' ↔
    items.length = items'.length ∧ ∀ i (h : i < items.length) (h' : i < items'.length),
      Passes (items.get ⟨i,h⟩) (items'.get ⟨i,h'⟩) := by
  have hforall : PassesItems items items' ↔ List.Forall₂ Passes items items' := by
    induction items generalizing items' with
    | nil => cases items' <;> simp [PassesItems]
    | cons v items ih => cases items' <;> simp [PassesItems,ih]
  rw [hforall,List.forall₂_iff_get]

lemma everyItem_iff {items items' : List Json} :
    (items.length = items'.length && everyItem items items') = true ↔
      items.length = items'.length ∧ ∀ i (h : i < items.length) (h' : i < items'.length),
        deepEqual (items.get ⟨i,h⟩) (items'.get ⟨i,h'⟩) = true := by
  have hforall : (items.length = items'.length && everyItem items items') = true ↔
      List.Forall₂ (fun v w => deepEqual v w = true) items items' := by
    induction items generalizing items' with
    | nil => cases items' <;> simp [everyItem]
    | cons v items ih =>
      cases items' with
      | nil => simp [everyItem]
      | cons w items' =>
        rw [List.forall₂_cons,← ih]
        simp [everyItem,and_left_comm]
  rw [hforall,List.forall₂_iff_get]

lemma strictEqual_iff {a b : Atom} (ha : a.isFinite = true) (hb : b.isFinite = true) :
    strictEqual a b = true ↔ SameAtom a b := by
  have hnan {x : UInt64} (h : isFinite x = true) : isNaN x = false := by
    rw [isNaN,h]
    rfl
  cases a with
  | number x =>
    cases b with
    | number y =>
      change isFinite x = true at ha
      change isFinite y = true at hb
      simp [strictEqual,SameAtom,hnan ha,hnan hb]
    | null | bool | string => simp [strictEqual,SameAtom]
  | null | bool | string => cases b <;> simp [strictEqual,SameAtom]

lemma mem_keys {fields : List (Text × Json)} {k : Text} {v : Json} (h : (k,v) ∈ fields) :
    k ∈ fields.map Prod.fst := List.mem_map.mpr ⟨(k,v),h,rfl⟩

lemma find_own {fields : List (Text × Json)} (hkeys : (fields.map Prod.fst).Nodup) {k : Text} {w : Json}
    (hw : (k,w) ∈ fields) : fields.find? (fun p => p.1 = k) = some (k,w) := by
  cases hf : fields.find? fun p => p.1 = k with
  | none => exact absurd (decide_eq_true rfl) (List.find?_eq_none.mp hf _ hw)
  | some p =>
    have hk : p.1 = k := by simpa using List.find?_some hf
    rw [List.inj_on_of_nodup_map hkeys (List.mem_of_find?_eq_some hf) hw hk]

lemma getProperty_own {fields : List (Text × Json)} (hkeys : (fields.map Prod.fst).Nodup) {k : Text}
    {w : Json} (hw : (k,w) ∈ fields) : getProperty fields k = .own w := by
  rw [getProperty,find_own hkeys hw]

lemma getProperty_absent {fields : List (Text × Json)} {k : Text} (hk : k ∉ fields.map Prod.fst) :
    getProperty fields k = if k = protoKey then .prototype
      else if prototypeMethods.contains k then .method else .undefined := by
  have hf : fields.find? (fun p => p.1 = k) = none := by
    rw [List.find?_eq_none]
    intro p hp
    simpa using fun h : p.1 = k => hk (h ▸ List.mem_map_of_mem hp)
  rw [getProperty,hf]

lemma equalsPrototype_iff {v : Json} : equalsPrototype v = true ↔ v = .obj [] := by
  cases v <;> simp [equalsPrototype]

/-- What the comparison of one entry tests. -/
lemma entry_iff {fields : List (Text × Json)} (hkeys : (fields.map Prod.fst).Nodup) {k : Text} {v : Json}
    (hv : ∀ w, (k,w) ∈ fields → (deepEqual v w = true ↔ Passes v w)) :
    (match getProperty fields k with
      | .own w => deepEqual v w
      | .prototype => equalsPrototype v
      | .method => false
      | .undefined => false) = true ↔
    (∃ w, (k,w) ∈ fields ∧ Passes v w) ∨
      k = protoKey ∧ v = .obj [] ∧ protoKey ∉ fields.map Prod.fst := by
  by_cases hk : k ∈ fields.map Prod.fst
  · obtain ⟨⟨k,w⟩,hw,rfl⟩ := List.mem_map.mp hk
    rw [getProperty_own hkeys hw]
    refine (hv w hw).trans ⟨fun h => .inl ⟨w,hw,h⟩,?_⟩
    rintro (⟨w',hw',h⟩ | ⟨rfl,-,hno⟩)
    · obtain rfl : w' = w := congrArg Prod.snd (List.inj_on_of_nodup_map hkeys hw' hw rfl)
      exact h
    · exact absurd hk hno
  · have hno : ¬∃ w, (k,w) ∈ fields ∧ Passes v w := fun ⟨w,hw,_⟩ => hk (mem_keys hw)
    rw [getProperty_absent hk]
    by_cases hp : k = protoKey
    · subst hp
      rw [if_pos rfl]
      simp only [equalsPrototype_iff,hno,hk,not_false_eq_true,and_true,true_and,false_or]
    · rw [if_neg hp]
      split_ifs <;> simp [hno,hp]

lemma everyEntry_iff {fields fields' : List (Text × Json)} (hkeys : (fields'.map Prod.fst).Nodup)
    (h : ∀ p ∈ fields, ∀ w, (p.1,w) ∈ fields' → (deepEqual p.2 w = true ↔ Passes p.2 w)) :
    everyEntry fields fields' = true ↔ PassesFields fields fields' := by
  induction fields with
  | nil => simp [everyEntry,PassesFields]
  | cons p fields ih =>
    obtain ⟨k,v⟩ := p
    rw [everyEntry,PassesFields,Bool.and_eq_true,entry_iff hkeys (h (k,v) List.mem_cons_self),
      ih fun q hq => h q (List.mem_cons_of_mem _ hq)]

/-- The comparison decides `Passes`. -/
lemma deepEqual_iff_passes {a b : Json} (ha : Parsed a) (hb : Parsed b) :
    deepEqual a b = true ↔ Passes a b := by
  induction a using induct generalizing b with
  | leaf x =>
    cases b with
    | leaf y =>
      cases ha with | leaf hx =>
      cases hb with | leaf hy => exact strictEqual_iff hx hy
    | arr | obj => simp [deepEqual,Passes]
  | arr items ih =>
    cases b with
    | leaf | obj => simp [deepEqual,Passes]
    | arr items' =>
      cases ha with | arr ha =>
      cases hb with | arr hb =>
      rw [deepEqual,Passes,everyItem_iff,passesItems_iff]
      exact and_congr_right fun _ => forall₃_congr fun i h h' =>
        ih _ (items.get_mem ⟨i,h⟩) (ha _ (items.get_mem ⟨i,h⟩)) (hb _ (items'.get_mem ⟨i,h'⟩))
  | obj fields ih =>
    cases b with
    | leaf | arr => simp [deepEqual,Passes]
    | obj fields' =>
      cases ha with | obj _ ha =>
      cases hb with | obj hkeys hb =>
      rw [deepEqual,Passes,Bool.and_eq_true,decide_eq_true_eq]
      exact and_congr_right fun _ => everyEntry_iff hkeys fun p hp w hw =>
        ih p hp (ha p hp) (hb (p.1,w) hw)

/-! ### Equality up to the order of keys -/

lemma sameAtom_refl (a : Atom) : SameAtom a a := by
  cases a with
  | number x => exact .inl rfl
  | null | bool | string => rfl

/-- What is no number is the same only as itself. -/
lemma sameAtom_eq {a b : Atom} (ha : ∀ x, a ≠ .number x) (h : SameAtom a b) : a = b := by
  cases a with
  | number x => exact absurd rfl (ha x)
  | null | bool | string => exact h

lemma sameAtom_symm {a b : Atom} (h : SameAtom a b) : SameAtom b a := by
  cases a with
  | number x =>
    cases b with
    | number y => exact h.imp Eq.symm And.symm
    | null | bool | string => cases h
  | null | bool | string =>
    obtain rfl := sameAtom_eq (by simp) h
    exact h

lemma sameAtom_trans {a b c : Atom} (h : SameAtom a b) (h' : SameAtom b c) : SameAtom a c := by
  cases a with
  | number x =>
    cases b with
    | number y =>
      cases c with
      | number z =>
        rcases h with rfl | h
        · exact h'
        · rcases h' with rfl | h'
          · exact .inr h
          · exact .inr ⟨h.1,h'.2⟩
      | null | bool | string => cases h'
    | null | bool | string => cases h
  | null | bool | string =>
    obtain rfl := sameAtom_eq (by simp) h
    exact h'

/-- Values that are equal up to the order of keys pass the comparison. -/
lemma passes_of_same {a b : Json} (h : Same SameAtom a b) : Passes a b := by
  induction a using induct generalizing b with
  | leaf x =>
    cases b with
    | leaf y => exact h
    | arr | obj => simp [Same] at h
  | arr items ih =>
    cases b with
    | leaf | obj => simp [Same] at h
    | arr items' =>
      rw [Same,sameItems_iff] at h
      rw [Passes,passesItems_iff]
      exact ⟨h.1,fun i hi hi' => ih _ (items.get_mem ⟨i,hi⟩) (h.2 i hi hi')⟩
  | obj fields ih =>
    cases b with
    | leaf | arr => simp [Same] at h
    | obj fields' =>
      rw [Same,sameFields_iff] at h
      rw [Passes,passesFields_iff]
      refine ⟨h.1,fun p hp => .inl ?_⟩
      obtain ⟨w,hw,hs⟩ := h.2 p hp
      exact ⟨w,hw,ih p hp hs⟩

/-- Distinct keys of as many fields are the same keys when the one object has all of the other. -/
lemma keys_subset {fields fields' : List (Text × Json)} (hkeys : (fields.map Prod.fst).Nodup)
    (hlength : fields.length = fields'.length)
    (hsub : fields.map Prod.fst ⊆ fields'.map Prod.fst) :
    fields'.map Prod.fst ⊆ fields.map Prod.fst := by
  refine ((List.subperm_of_subset hkeys hsub).perm_of_length_le ?_).symm.subset
  rw [List.length_map,List.length_map]
  exact hlength.ge

/-- If both pass, no entry is replaced. -/
lemma same_of_passes {a b : Json} (ha : Parsed a) (hb : Parsed b) (h : Passes a b) (h' : Passes b a) :
    Same SameAtom a b := by
  induction a using induct generalizing b with
  | leaf x =>
    cases b with
    | leaf y => exact h
    | arr | obj => simp [Passes] at h
  | arr items ih =>
    cases b with
    | leaf | obj => simp [Passes] at h
    | arr items' =>
      cases ha with | arr ha =>
      cases hb with | arr hb =>
      rw [Passes,passesItems_iff] at h h'
      rw [Same,sameItems_iff]
      exact ⟨h.1,fun i hi hi' => ih _ (items.get_mem ⟨i,hi⟩) (ha _ (items.get_mem ⟨i,hi⟩))
        (hb _ (items'.get_mem ⟨i,hi'⟩)) (h.2 i hi hi') (h'.2 i hi' hi)⟩
  | obj fields ih =>
    cases b with
    | leaf | arr => simp [Passes] at h
    | obj fields' =>
      cases ha with | obj hkeys ha =>
      cases hb with | obj hkeys' hb =>
      rw [Passes,passesFields_iff] at h h'
      rw [Same,sameFields_iff]
      refine ⟨h.1,fun p hp => ?_⟩
      rcases h.2 p hp with ⟨w,hw,hpass⟩ | ⟨hk,-,hno⟩
      · refine ⟨w,hw,ih p hp (ha p hp) (hb _ hw) hpass ?_⟩
        rcases h'.2 (p.1,w) hw with ⟨v,hv,hback⟩ | ⟨hk,-,hno⟩
        · obtain rfl : v = p.2 := congrArg Prod.snd (List.inj_on_of_nodup_map hkeys hv hp rfl)
          exact hback
        · exact absurd (show p.1 = protoKey from hk) fun hk => hno (hk ▸ List.mem_map_of_mem hp)
      · -- All keys of the other object are keys of this one, which is as long.
        have hsub : fields'.map Prod.fst ⊆ fields.map Prod.fst := by
          intro k hk
          obtain ⟨q,hq,rfl⟩ := List.mem_map.mp hk
          rcases h'.2 q hq with ⟨v,hv,-⟩ | ⟨hq',-⟩
          · exact mem_keys hv
          · exact absurd (hq' ▸ hk) hno
        exact absurd (keys_subset hkeys' h'.1 hsub (hk ▸ List.mem_map_of_mem hp)) hno

lemma same_symm {a b : Json} (ha : Parsed a) (hb : Parsed b) (h : Same SameAtom a b) :
    Same SameAtom b a := by
  induction a using induct generalizing b with
  | leaf x =>
    cases b with
    | leaf y => exact sameAtom_symm h
    | arr | obj => simp [Same] at h
  | arr items ih =>
    cases b with
    | leaf | obj => simp [Same] at h
    | arr items' =>
      cases ha with | arr ha =>
      cases hb with | arr hb =>
      rw [Same,sameItems_iff] at h
      rw [Same,sameItems_iff]
      exact ⟨h.1.symm,fun i hi' hi => ih _ (items.get_mem ⟨i,hi⟩) (ha _ (items.get_mem ⟨i,hi⟩))
        (hb _ (items'.get_mem ⟨i,hi'⟩)) (h.2 i hi hi')⟩
  | obj fields ih =>
    cases b with
    | leaf | arr => simp [Same] at h
    | obj fields' =>
      cases ha with | obj hkeys ha =>
      cases hb with | obj hkeys' hb =>
      have hsame := h
      rw [Same,sameFields_iff] at h
      rw [Same,sameFields_iff]
      have hsub : fields.map Prod.fst ⊆ fields'.map Prod.fst := by
        intro k hk
        obtain ⟨p,hp,rfl⟩ := List.mem_map.mp hk
        obtain ⟨w,hw,-⟩ := h.2 p hp
        exact mem_keys hw
      refine ⟨h.1.symm,fun q hq => ?_⟩
      obtain ⟨p,hp,hk⟩ := List.mem_map.mp (keys_subset hkeys h.1 hsub (List.mem_map_of_mem hq))
      have hp' : (q.1,p.2) ∈ fields := hk ▸ hp
      exact ⟨p.2,hp',ih p hp (ha p hp) (hb q hq) (hsame.field hkeys' hp' hq)⟩

lemma passes_trans {a b c : Json} (ha : Parsed a) (hb : Parsed b) (hc : Parsed c) (h : Passes a b)
    (h' : Passes b c) : Passes a c := by
  induction a using induct generalizing b c with
  | leaf x =>
    cases b with
    | leaf y =>
      cases c with
      | leaf z => exact sameAtom_trans h h'
      | arr | obj => simp [Passes] at h'
    | arr | obj => simp [Passes] at h
  | arr items ih =>
    cases b with
    | leaf | obj => simp [Passes] at h
    | arr items' =>
      cases c with
      | leaf | obj => simp [Passes] at h'
      | arr items'' =>
        cases ha with | arr ha =>
        cases hb with | arr hb =>
        cases hc with | arr hc =>
        rw [Passes,passesItems_iff] at h h'
        rw [Passes,passesItems_iff]
        refine ⟨h.1.trans h'.1,fun i hi hi'' => ?_⟩
        have hi' : i < items'.length := h.1 ▸ hi
        exact ih _ (items.get_mem ⟨i,hi⟩) (ha _ (items.get_mem ⟨i,hi⟩))
          (hb _ (items'.get_mem ⟨i,hi'⟩)) (hc _ (items''.get_mem ⟨i,hi''⟩)) (h.2 i hi hi')
          (h'.2 i hi' hi'')
  | obj fields ih =>
    cases b with
    | leaf | arr => simp [Passes] at h
    | obj fields' =>
      cases c with
      | leaf | arr => simp [Passes] at h'
      | obj fields'' =>
        cases ha with | obj hkeys ha =>
        cases hb with | obj hkeys' hb =>
        cases hc with | obj hkeys'' hc =>
        rw [Passes,passesFields_iff] at h h'
        rw [Passes,passesFields_iff]
        refine ⟨h.1.trans h'.1,fun p hp => ?_⟩
        rcases h.2 p hp with ⟨w,hw,hpass⟩ | ⟨hk,hv,hno⟩
        · rcases h'.2 (p.1,w) hw with ⟨u,hu,hpass'⟩ | ⟨hk,hempty,hno⟩
          · exact .inl ⟨u,hu,ih p hp (ha p hp) (hb _ hw) (hc _ hu) hpass hpass'⟩
          · refine .inr ⟨hk,?_,hno⟩
            rw [show w = .obj [] from hempty] at hpass
            cases hcase : p.2 with
            | leaf | arr => rw [hcase] at hpass; simp [Passes] at hpass
            | obj inner =>
              rw [hcase,Passes] at hpass
              rw [List.length_eq_zero_iff.mp hpass.1]
        · -- Without `__proto__` every key of the second object is one of the third.
          refine .inr ⟨hk,hv,fun hmem => hno ?_⟩
          refine keys_subset hkeys' h'.1 (fun k hk => ?_) hmem
          obtain ⟨q,hq,rfl⟩ := List.mem_map.mp hk
          rcases h'.2 q hq with ⟨u,hu,-⟩ | ⟨hq',-⟩
          · exact mem_keys hu
          · exact absurd (hq' ▸ hk) hno

/-! ### The comparison is equality, and the node picks by it -/

lemma deepEqual_iff_same {a b : Json} (ha : Parsed a) (hb : Parsed b) :
    (deepEqual a b = true ↔ Same SameAtom a b) ↔ ¬Replaced a b := by
  rw [deepEqual_iff_passes ha hb,Replaced,not_and,not_not]
  exact ⟨fun h => h.mp,fun h => ⟨h,passes_of_same⟩⟩

lemma deepEqual_refl {a : Json} (ha : Parsed a) : deepEqual a a = true :=
  (deepEqual_iff_passes ha ha).mpr (passes_of_same (.refl sameAtom_refl a))

lemma deepEqual_comm_iff {a b : Json} (ha : Parsed a) (hb : Parsed b) :
    deepEqual a b = deepEqual b a ↔ ¬Replaced a b ∧ ¬Replaced b a := by
  rw [Bool.eq_iff_iff,deepEqual_iff_passes ha hb,deepEqual_iff_passes hb ha]
  constructor
  · intro h
    exact ⟨fun hr => hr.2 (same_of_passes ha hb hr.1 (h.mp hr.1)),
      fun hr => hr.2 (same_of_passes hb ha hr.1 (h.mpr hr.1))⟩
  · rintro ⟨hab,hba⟩
    exact ⟨fun h => passes_of_same (same_symm ha hb (not_not.mp fun hs => hab ⟨h,hs⟩)),
      fun h => passes_of_same (same_symm hb ha (not_not.mp fun hs => hba ⟨h,hs⟩))⟩

lemma mem_ownKeys {fields : List (Text × Json)} {p : Text × Json} : p ∈ ownKeys fields ↔ p ∈ fields :=
  (ownKeys_perm fields).mem_iff

/-- The first case that passes against the value has that value, and a name. -/
def FirstCaseEqual (cases : List (Text × Json)) (value : Json) : Prop :=
  ∀ before p after, ownKeys cases = before ++ p :: after → (∀ q ∈ before, ¬Passes q.2 value) →
    Passes p.2 value → Same SameAtom p.2 value ∧ p.1 ≠ []

/-- A case is picked only if its value is the input, and none only if no case has it. -/
def PicksRight (cases : Option (List (Text × Json))) (defaultBranch : Option Text) (value : Json) :
    Prop :=
  (∀ p, matched (cases.getD []) value = some p → Same SameAtom p.2 value) ∧
  (matched (cases.getD []) value = none ∨ execute cases defaultBranch value = none →
    ∀ p ∈ cases.getD [], ¬Same SameAtom p.2 value)

lemma matched_iff {cases : List (Text × Json)} {value : Json} (hcases : ∀ p ∈ cases, Parsed p.2)
    (hvalue : Parsed value) {p : Text × Json} : matched cases value = some p ↔
      Passes p.2 value ∧ ∃ before after, ownKeys cases = before ++ p :: after ∧
        ∀ q ∈ before, ¬Passes q.2 value := by
  have hpass {q : Text × Json} (hq : q ∈ ownKeys cases) :
      deepEqual q.2 value = true ↔ Passes q.2 value :=
    deepEqual_iff_passes (hcases q (mem_ownKeys.mp hq)) hvalue
  rw [matched,List.find?_eq_some_iff_append]
  constructor
  · rintro ⟨hp,before,after,hsplit,hbefore⟩
    refine ⟨(hpass (hsplit ▸ by simp)).mp hp,before,after,hsplit,fun q hq hq' => ?_⟩
    have := hbefore q hq
    rw [(hpass (hsplit ▸ List.mem_append_left _ hq)).mpr hq'] at this
    cases this
  · rintro ⟨hp,before,after,hsplit,hbefore⟩
    refine ⟨(hpass (hsplit ▸ by simp)).mpr hp,before,after,hsplit,fun q hq => ?_⟩
    rw [Bool.not_eq_true',Bool.eq_false_iff]
    exact fun hq' => hbefore q hq ((hpass (hsplit ▸ List.mem_append_left _ hq)).mp hq')

/-- Without a match no case is equal to the value. -/
lemma no_case {cases : List (Text × Json)} {value : Json} (hcases : ∀ p ∈ cases, Parsed p.2)
    (hvalue : Parsed value) (h : matched cases value = none) :
    ∀ p ∈ cases, ¬Same SameAtom p.2 value := by
  intro p hp hs
  refine List.find?_eq_none.mp h p (mem_ownKeys.mpr hp) ?_
  exact (deepEqual_iff_passes (hcases p hp) hvalue).mpr (passes_of_same hs)

lemma execute_matched {cases : Option (List (Text × Json))} {defaultBranch : Option Text} {value : Json}
    {p : Text × Json} (h : matched (cases.getD []) value = some p) :
    execute cases defaultBranch value = if p.1 = [] then none else some p.1 := by
  rw [execute,h]
  rfl

lemma picksRight_iff {cases : Option (List (Text × Json))} {defaultBranch : Option Text} {value : Json}
    (hcases : ∀ p ∈ cases.getD [], Parsed p.2) (hvalue : Parsed value) :
    PicksRight cases defaultBranch value ↔ FirstCaseEqual (cases.getD []) value := by
  constructor
  · rintro ⟨hpicked,hnone⟩ before p after hsplit hbefore hp
    have hm := (matched_iff hcases hvalue).mpr ⟨hp,before,after,hsplit,hbefore⟩
    refine ⟨hpicked p hm,fun hname => ?_⟩
    refine hnone (.inr ?_) p (mem_ownKeys.mp (hsplit ▸ by simp)) (hpicked p hm)
    rw [execute_matched hm,if_pos hname]
  · intro h
    refine ⟨fun p hm => ?_,fun hnone => ?_⟩
    · obtain ⟨hp,before,after,hsplit,hbefore⟩ := (matched_iff hcases hvalue).mp hm
      exact (h before p after hsplit hbefore hp).1
    · cases hm : matched (cases.getD []) value with
      | none => exact no_case hcases hvalue hm
      | some p =>
        obtain ⟨hp,before,after,hsplit,hbefore⟩ := (matched_iff hcases hvalue).mp hm
        rw [hm,execute_matched hm,if_neg (h before p after hsplit hbefore hp).2] at hnone
        simp at hnone

/-- The comparison is equality up to the order of keys, and symmetric, but for replaced entries; it
is reflexive and transitive without exception. The node picks by equality where the first case that
passes is equal to the input and has a name. -/
theorem branch_matching (a b c : Json) (cases : Option (List (Text × Json)))
    (defaultBranch : Option Text) (value : Json) :
    (Parsed a → Parsed b →
      ((deepEqual a b = true ↔ Same SameAtom a b) ↔ ¬Replaced a b) ∧
      (deepEqual a b = deepEqual b a ↔ ¬Replaced a b ∧ ¬Replaced b a)) ∧
    (Parsed a → deepEqual a a = true) ∧
    (Parsed a → Parsed b → Parsed c → deepEqual a b = true → deepEqual b c = true →
      deepEqual a c = true) ∧
    ((∀ p ∈ cases.getD [], Parsed p.2) → Parsed value →
      (PicksRight cases defaultBranch value ↔ FirstCaseEqual (cases.getD []) value)) := by
  refine ⟨fun ha hb => ⟨deepEqual_iff_same ha hb,deepEqual_comm_iff ha hb⟩,deepEqual_refl,
    fun ha hb hc hab hbc => ?_,picksRight_iff⟩
  rw [deepEqual_iff_passes ha hb] at hab
  rw [deepEqual_iff_passes hb hc] at hbc
  exact (deepEqual_iff_passes ha hc).mpr (passes_trans ha hb hc hab hbc)

section Instances

def yes : Json := .leaf (.bool true)

/-- `{"__proto__": {}}` -/
def emptyProto : Json := .obj [(protoKey,.obj [])]

/-- `{"x": true}` -/
def other : Json := .obj [(ascii "x",yes)]

/-- `{"x": true, "y": true}` -/
def both : Json := .obj [(ascii "x",yes),(ascii "y",yes)]

/-- The same with its keys the other way round. -/
def turned : Json := .obj [(ascii "y",yes),(ascii "x",yes)]

lemma fields_parsed {k k' : Text} (h : k ≠ k') : Parsed (.obj [(k,yes),(k',yes)]) := by
  refine .obj (by simpa using h) fun p hp => ?_
  simp only [List.mem_cons,List.not_mem_nil,or_false] at hp
  rcases hp with rfl | rfl <;> exact .leaf rfl

lemma fields_same (k k' : Text) : Same SameAtom (.obj [(k,yes),(k',yes)]) (.obj [(k',yes),(k,yes)]) := by
  rw [Same,sameFields_iff]
  refine ⟨rfl,fun p hp => ⟨yes,?_,?_⟩⟩ <;>
    simp only [List.mem_cons,List.not_mem_nil,or_false] at hp <;> rcases hp with rfl | rfl
  · simp
  · simp
  · exact .refl sameAtom_refl yes
  · exact .refl sameAtom_refl yes

/-- Objects that differ in the order of their keys alone are equal, and the node picks the case of the
one for the other. -/
theorem branch_matching_turned : deepEqual both turned = true ∧ deepEqual turned both = true ∧
    deepEqual both both = true ∧ PicksRight (some [(ascii "same",turned)]) none both := by
  have hne : ascii "x" ≠ ascii "y" := by decide
  have hboth : Parsed both := fields_parsed hne
  have hturned : Parsed turned := fields_parsed hne.symm
  have hsame : Same SameAtom both turned := fields_same _ _
  have hsame' : Same SameAtom turned both := fields_same _ _
  have hkept : ¬Replaced both turned := fun h => h.2 hsame
  obtain ⟨hpair,hrefl,htrans,hnode⟩ :=
    branch_matching both turned both (some [(ascii "same",turned)]) none both
  obtain ⟨hequal,hcomm⟩ := hpair hboth hturned
  have heq : deepEqual both turned = true := (hequal.mpr hkept).mpr hsame
  have hback := hcomm.mpr ⟨hkept,fun h => h.2 hsame'⟩
  refine ⟨heq,hback.symm.trans heq,htrans hboth hturned hboth heq (hback.symm.trans heq),?_⟩
  refine (hnode (List.forall_mem_singleton.mpr hturned) hboth).mpr ?_
  intro before p after hsplit _ _
  have hmem : p ∈ ownKeys ((some [(ascii "same",turned)]).getD []) := by
    rw [hsplit]
    simp
  obtain rfl := List.mem_singleton.mp (mem_ownKeys.mp hmem)
  exact ⟨hsame',by decide⟩

/-- An object with an empty `__proto__` of its own equals any object of one other key, and not the
other way round. -/
theorem deepEqual_emptyProto : deepEqual emptyProto other = true ∧
    ¬Same SameAtom emptyProto other ∧ deepEqual other emptyProto = false := by
  refine ⟨by decide +kernel,?_,by decide +kernel⟩
  have hne : protoKey ≠ ascii "x" := by decide +kernel
  intro h
  rw [emptyProto,other,Same,sameFields_iff] at h
  obtain ⟨w,hw,-⟩ := h.2 _ List.mem_cons_self
  exact hne (congrArg Prod.fst (List.mem_singleton.mp hw))

end Instances

end Linea.BranchNode
