import Linea.BranchNode
import Linea.OrderedMap

/-! The merge node of `nodes/merge.node.ts`: a merge that reads and assigns the keys of an object
which inherits from `Object.prototype`, and from what is assigned to its `__proto__`. -/
namespace Linea.MergeNode
open JsonText JsonText.Tree WorkflowHash BranchNode

/-- The members that an array inherits from `Array.prototype`, and its length. -/
def arrayMembers : List Text :=
  ["length","constructor","at","concat","copyWithin","entries","every","fill","filter","find",
    "findIndex","findLast","findLastIndex","flat","flatMap","forEach","includes","indexOf","join",
    "keys","lastIndexOf","map","pop","push","reduce","reduceRight","reverse","shift","slice","some",
    "sort","splice","toLocaleString","toReversed","toSorted","toSpliced","toString","unshift",
    "values","with"].map ascii

/-- An object between the merged one and `Object.prototype`. -/
inductive Link
  | object (own : OrderedMap Text Json)
  | array (items : List Json)

/-- The object that is merged into: its own properties as they were created, and its prototypes up to
`Object.prototype`, or to `null` where it is not rooted. -/
structure Merging where
  own : OrderedMap Text Json
  links : List Link
  rooted : Bool

/-- What reading a property gives: a JSON value, something else, or `undefined`. -/
inductive Found
  | value (v : Json)
  | other
  | undefined

/-- `{ ...fields }` -/
def spread (fields : List (Text × Json)) : OrderedMap Text Json := .ofList (ownKeys fields)

def Link.read (key : Text) : Link → Found
  | .object own =>
    match own.get? key with
    | some v => .value v
    | none => .undefined
  | .array items =>
    match (arrayIndex key).bind fun i => items[i]? with
    | some v => .value v
    | none => if arrayMembers.contains key then .other else .undefined

/-- The first prototype that has the key gives its value. -/
def inherited (key : Text) : List Link → Found
  | [] => .undefined
  | link :: links =>
    match link.read key with
    | .undefined => inherited key links
    | found => found

/-- `Object.getPrototypeOf(result)`. `Object.prototype` stands as an empty object: only the enumerable
properties of a prototype are merged. -/
def Merging.prototype (result : Merging) : Json :=
  match result.links with
  | [] => .obj []
  | .object own :: _ => .obj own.entries
  | .array items :: _ => .arr items

/-- `result[key]`; on `Object.prototype`, `__proto__` is an accessor. -/
def Merging.read (result : Merging) (key : Text) : Found :=
  match result.own.get? key with
  | some v => .value v
  | none =>
    match inherited key result.links with
    | .undefined =>
      if result.rooted = false then .undefined
      else if key = protoKey then .value result.prototype
      else if prototypeMethods.contains key then .other
      else .undefined
    | found => found

/-- A value that is assigned: one of the second object, or a merged object. -/
inductive Assigned
  | json (v : Json)
  | merged (object : Merging)

def Assigned.value : Assigned → Json
  | .json v => v
  | .merged object => .obj object.own.entries

/-- The prototypes that the setter of `__proto__` gives an object; it ignores what is neither an
object nor `null`. -/
def Assigned.links : Assigned → Option (List Link × Bool)
  | .json (.obj fields) => some ([.object (spread fields)],true)
  | .json (.arr items) => some ([.array items],true)
  | .json (.leaf .null) => some ([],false)
  | .json (.leaf _) => none
  | .merged object => some (.object object.own :: object.links,object.rooted)

def Found.isUndefined : Found → Bool
  | .undefined => true
  | _ => false

/-- `result[key] = value`: the setter acts where no nearer object has a `__proto__` of its own. -/
def Merging.assign (result : Merging) (key : Text) (a : Assigned) : Merging :=
  if key = protoKey ∧ result.own.get? key = none ∧
      (inherited key result.links).isUndefined ∧ result.rooted then
    match a.links with
    | some (links,rooted) => ⟨result.own,links,rooted⟩
    | none => result
  else ⟨result.own.set key a.value,result.links,result.rooted⟩

/-- One turn of the loop, for what `deepMerge` gives with the second value. -/
def mergeEntry (preferSecond : Bool) (merge : List (Text × Json) → Merging) (result : Merging)
    (entry : Text × Json) : Merging :=
  match result.read entry.1,entry.2 with
  | .value (.obj first),.obj _ => result.assign entry.1 (.merged (merge first))
  | firstValue,secondValue =>
    if firstValue.isUndefined || preferSecond then result.assign entry.1 (.json secondValue)
    else result

/-- `deepMerge` by its second argument. -/
def mergeInto (preferSecond : Bool) : Json → List (Text × Json) → Merging
  | .obj second,first => (ownKeys second).attach.foldl (fun result entry =>
      mergeEntry preferSecond (mergeInto preferSecond entry.1.2) result entry.1)
      ⟨spread first,[],true⟩
  | _,first => ⟨spread first,[],true⟩
termination_by second => second
decreasing_by
  have hmem := (ownKeys_perm second).mem_iff.mp entry.2
  have hlt := List.sizeOf_lt_of_mem hmem
  obtain ⟨⟨k,v⟩,_⟩ := entry
  simp only [Tree.obj.sizeOf_spec,Prod.mk.sizeOf_spec] at hlt ⊢
  omega

def deepMerge (first second : List (Text × Json)) (preferSecond : Bool) : Merging :=
  mergeInto preferSecond (.obj second) first

lemma deepMerge_eq (first second : List (Text × Json)) (preferSecond : Bool) :
    deepMerge first second preferSecond =
      (ownKeys second).foldl (fun result entry =>
        mergeEntry preferSecond (mergeInto preferSecond entry.2) result entry)
        ⟨spread first,[],true⟩ := by
  rw [deepMerge,mergeInto]
  exact List.foldl_attach (l := ownKeys second)
    (f := fun result entry => mergeEntry preferSecond (mergeInto preferSecond entry.2) result entry)

def isPlainObject : Json → Bool
  | .obj _ => true
  | _ => false

inductive Mode
  | concat
  | deepMerge
  | zip

inductive ConflictStrategy
  | preferFirst
  | preferSecond
  deriving DecidableEq

/-- What spreading a value into an object copies: an array or a string has its indices as keys. -/
def ownProperties : Json → List (Text × Json)
  | .obj fields => ownKeys fields
  | .arr items => items.zipIdx.map fun p => (ascii (toString p.2),p.1)
  | .leaf (.string s) => s.zipIdx.map fun p => (ascii (toString p.2),.leaf (.string [p.1]))
  | .leaf _ => []

/-- `{ ...left, ...right }` -/
def spreadBoth (left right : Json) : Json :=
  .obj (OrderedMap.ofList (ownProperties left ++ ownProperties right)).entries

/-- The `result` of `execute`, or the message of the error it throws. -/
def execute (mode : Mode) (conflictStrategy : Option ConflictStrategy) (first second : Json) :
    Except String Json :=
  let preferSecond : Bool := conflictStrategy = some .preferSecond
  match mode with
  | .concat =>
    match first,second with
    | .arr items,.arr items' => .ok (.arr (items ++ items'))
    | _,_ => .error "Merge node (concat) requires both inputs to be arrays"
  | .deepMerge =>
    match first,second with
    | .obj fields,.obj fields' => .ok (.obj (deepMerge fields fields' preferSecond).own.entries)
    | _,_ => .error "Merge node (deepMerge) requires both inputs to be objects"
  | .zip =>
    match first,second with
    | .arr items,.arr items' => .ok (.arr (List.zipWith
        (fun left right => if preferSecond then spreadBoth left right else spreadBoth right left)
        items items'))
    | _,_ => .error "Merge node (zip) requires both inputs to be arrays"

/-! ### The loop -/

lemma spread_entries {fields : List (Text × Json)} (hkeys : (fields.map Prod.fst).Nodup) :
    (spread fields).entries = ownKeys fields :=
  OrderedMap.entries_ofList (((ownKeys_perm fields).map _).nodup_iff.mpr hkeys)

lemma spread_get? {fields : List (Text × Json)} (hkeys : (fields.map Prod.fst).Nodup) {k : Text}
    {v : Json} : (spread fields).get? k = some v ↔ (k,v) ∈ fields := by
  rw [OrderedMap.get?_iff_mem,spread_entries hkeys,(ownKeys_perm fields).mem_iff]

lemma spread_get?_none {fields : List (Text × Json)} (hkeys : (fields.map Prod.fst).Nodup) {k : Text} :
    (spread fields).get? k = none ↔ k ∉ fields.map Prod.fst := by
  rw [OrderedMap.get?_eq_none_iff,OrderedMap.keys,spread_entries hkeys,
    ((ownKeys_perm fields).map Prod.fst).mem_iff]

section Loop
variable {preferSecond : Bool} {result : Merging} {key k : Text}

/-- An assignment changes the own value of its key only. -/
lemma assign_get?_of_ne (a : Assigned) (h : k ≠ key) :
    (result.assign key a).own.get? k = result.own.get? k := by
  unfold Merging.assign
  split_ifs
  · split <;> rfl
  · exact OrderedMap.get?_set_of_ne _ h _

/-- The setter of `__proto__` aside, a value that is assigned is an own property. -/
lemma assign_own (a : Assigned) (h : key ≠ protoKey ∨ ∃ v, result.own.get? key = some v) :
    result.assign key a = ⟨result.own.set key a.value,result.links,result.rooted⟩ := by
  rw [Merging.assign,if_neg]
  rintro ⟨hkey,hnone,-⟩
  rcases h with h | ⟨v,h⟩
  · exact h hkey
  · rw [hnone] at h
    cases h

/-- The setter changes no own property. -/
lemma assign_proto (a : Assigned) (hown : result.own.get? protoKey = none) (hlinks : result.links = [])
    (hrooted : result.rooted = true) : (result.assign protoKey a).own = result.own := by
  rw [Merging.assign,if_pos ⟨rfl,hown,by rw [hlinks]; rfl,hrooted⟩]
  split <;> rfl

/-- One turn leaves the result or assigns to the key of the entry. -/
lemma mergeEntry_cases (preferSecond : Bool) (merge : List (Text × Json) → Merging) (result : Merging)
    (entry : Text × Json) : mergeEntry preferSecond merge result entry = result ∨
      ∃ a, mergeEntry preferSecond merge result entry = result.assign entry.1 a := by
  unfold mergeEntry
  split
  · exact .inr ⟨_,rfl⟩
  · split_ifs
    · exact .inr ⟨_,rfl⟩
    · exact .inl rfl

lemma mergeEntry_get?_of_ne (merge : List (Text × Json) → Merging) {entry : Text × Json}
    (h : k ≠ entry.1) : (mergeEntry preferSecond merge result entry).own.get? k = result.own.get? k := by
  rcases mergeEntry_cases preferSecond merge result entry with heq | ⟨a,heq⟩
  · rw [heq]
  · rw [heq,assign_get?_of_ne a h]

/-- The prototypes stay as they are while `__proto__` is another's key, or is an own property. -/
lemma mergeEntry_links (merge : List (Text × Json) → Merging) {entry : Text × Json}
    (h : entry.1 ≠ protoKey ∨ ∃ v, result.own.get? entry.1 = some v) :
    (mergeEntry preferSecond merge result entry).links = result.links ∧
      (mergeEntry preferSecond merge result entry).rooted = result.rooted := by
  rcases mergeEntry_cases preferSecond merge result entry with heq | ⟨a,heq⟩
  · rw [heq]
    exact ⟨rfl,rfl⟩
  · rw [heq,assign_own a h]
    exact ⟨rfl,rfl⟩

/-- An own property is not removed. -/
lemma mergeEntry_keeps (merge : List (Text × Json) → Merging) (entry : Text × Json) {v : Json}
    (h : result.own.get? k = some v) :
    ∃ w, (mergeEntry preferSecond merge result entry).own.get? k = some w := by
  by_cases hk : k = entry.1
  · subst hk
    rcases mergeEntry_cases preferSecond merge result entry with heq | ⟨a,heq⟩
    · rw [heq]
      exact ⟨v,h⟩
    · rw [heq,assign_own a (.inr ⟨v,h⟩)]
      exact ⟨_,OrderedMap.get?_set_self _ _ _⟩
  · exact ⟨v,(mergeEntry_get?_of_ne merge hk).trans h⟩

/-- What the turns over some entries make of a result. -/
def turns (preferSecond : Bool) (result : Merging) (entries : List (Text × Json)) : Merging :=
  entries.foldl (fun result entry =>
    mergeEntry preferSecond (mergeInto preferSecond entry.2) result entry) result

lemma turns_get?_of_notMem {entries : List (Text × Json)} (h : k ∉ entries.map Prod.fst) :
    (turns preferSecond result entries).own.get? k = result.own.get? k := by
  induction entries generalizing result with
  | nil => rfl
  | cons entry entries ih =>
    rw [List.map_cons,List.mem_cons,not_or] at h
    exact (ih h.2).trans (mergeEntry_get?_of_ne _ h.1)

lemma turns_links {entries : List (Text × Json)}
    (h : protoKey ∉ entries.map Prod.fst ∨ ∃ v, result.own.get? protoKey = some v) :
    (turns preferSecond result entries).links = result.links ∧
      (turns preferSecond result entries).rooted = result.rooted := by
  induction entries generalizing result with
  | nil => exact ⟨rfl,rfl⟩
  | cons entry entries ih =>
    have hentry : entry.1 ≠ protoKey ∨ ∃ v, result.own.get? entry.1 = some v := by
      by_cases hp : entry.1 = protoKey
      · right
        rcases h with h | h
        · exact absurd (hp ▸ List.mem_cons_self) h
        · exact hp ▸ h
      · exact .inl hp
    have hrest : protoKey ∉ entries.map Prod.fst ∨ ∃ v,
        (mergeEntry preferSecond (mergeInto preferSecond entry.2) result entry).own.get? protoKey =
          some v := by
      rcases h with h | ⟨v,h⟩
      · exact .inl fun hmem => h (List.mem_cons_of_mem _ hmem)
      · exact .inr (mergeEntry_keeps _ entry h)
    exact ⟨(ih hrest).1.trans (mergeEntry_links _ hentry).1,
      (ih hrest).2.trans (mergeEntry_links _ hentry).2⟩

/-- A value of the first object against one of the second. -/
def sharedValue (preferSecond : Bool) : Json → Json → Json
  | .obj f,.obj g => .obj (deepMerge f g preferSecond).own.entries
  | v,w => if preferSecond then w else v

lemma entry_shared {v w : Json} (h : result.own.get? k = some v) :
    (mergeEntry preferSecond (mergeInto preferSecond w) result (k,w)).own.get? k =
      some (sharedValue preferSecond v w) := by
  have hread : result.read k = .value v := by
    rw [Merging.read,h]
  have hset (a : Assigned) : (result.assign k a).own.get? k = some a.value := by
    rw [assign_own a (.inr ⟨v,h⟩)]
    exact OrderedMap.get?_set_self _ _ _
  unfold mergeEntry
  rw [hread]
  cases v with
  | obj f =>
    cases w with
    | obj g => exact hset _
    | leaf | arr => cases preferSecond <;> simp [sharedValue,Found.isUndefined,hset,h,Assigned.value]
  | leaf | arr => cases preferSecond <;> simp [sharedValue,Found.isUndefined,hset,h,Assigned.value]

/-- A key that only the second object has: it is lost where the first inherits it, unless it is
assigned and is not `__proto__`. -/
lemma entry_absent {w : Json} (h : result.own.get? k = none) (hlinks : result.links = [])
    (hrooted : result.rooted = true) :
    (mergeEntry preferSecond (mergeInto preferSecond w) result (k,w)).own.get? k =
      if k = protoKey ∨ k ∈ prototypeMethods ∧ preferSecond = false then none else some w := by
  by_cases hp : k = protoKey
  · rw [if_pos (.inl hp)]
    subst hp
    rcases mergeEntry_cases preferSecond (mergeInto preferSecond w) result (protoKey,w) with
      heq | ⟨a,heq⟩
    · rw [heq,h]
    · rw [heq,assign_proto a h hlinks hrooted,h]
  · have hset (a : Assigned) : (result.assign k a).own.get? k = some a.value := by
      rw [assign_own a (.inl hp)]
      exact OrderedMap.get?_set_self _ _ _
    have hread : result.read k = if k ∈ prototypeMethods then .other else .undefined := by
      rw [Merging.read,h,hlinks,hrooted]
      simp [inherited,hp]
    unfold mergeEntry
    rw [hread]
    by_cases hm : k ∈ prototypeMethods <;>
      cases preferSecond <;> simp [hm,hp,hset,h,Found.isUndefined,Assigned.value]

end Loop

/-! ### What is merged -/

section Merged
variable {a b : List (Text × Json)} {preferSecond : Bool} {k : Text}

/-- No key that only the second object has is inherited from `Object.prototype`; where the second is
preferred, none is `__proto__`. -/
def NotInherited (a b : List (Text × Json)) (preferSecond : Bool) : Prop :=
  ∀ k ∈ b.map Prod.fst, k ∉ a.map Prod.fst →
    k ≠ protoKey ∧ (k ∈ prototypeMethods → preferSecond = true)

lemma merged_of_notMem (hk : k ∉ b.map Prod.fst) :
    (deepMerge a b preferSecond).own.get? k = (spread a).get? k := by
  rw [deepMerge_eq]
  exact turns_get?_of_notMem fun hmem => hk (((ownKeys_perm b).map Prod.fst).mem_iff.mp hmem)

/-- The turn of a key of the second object decides its value. -/
lemma merged_at (hb : (b.map Prod.fst).Nodup) {w : Json} (hw : (k,w) ∈ b) :
    ∃ result : Merging, (deepMerge a b preferSecond).own.get? k =
        (mergeEntry preferSecond (mergeInto preferSecond w) result (k,w)).own.get? k ∧
      result.own.get? k = (spread a).get? k ∧
      (k = protoKey ∨ protoKey ∉ b.map Prod.fst ∨ (∃ v, (spread a).get? protoKey = some v) →
        result.links = [] ∧ result.rooted = true) := by
  obtain ⟨before,after,hsplit⟩ := List.append_of_mem ((ownKeys_perm b).mem_iff.mpr hw)
  have hkeys : ((before ++ (k,w) :: after).map Prod.fst).Nodup :=
    hsplit ▸ ((ownKeys_perm b).map _).nodup_iff.mpr hb
  rw [List.map_append,List.map_cons,List.nodup_append'] at hkeys
  have hbefore : k ∉ before.map Prod.fst := fun h => hkeys.2.2 h List.mem_cons_self
  have hafter : k ∉ after.map Prod.fst := (List.nodup_cons.mp hkeys.2.1).1
  refine ⟨turns preferSecond ⟨spread a,[],true⟩ before,?_,turns_get?_of_notMem hbefore,fun h => ?_⟩
  · rw [deepMerge_eq,hsplit,List.foldl_append,List.foldl_cons]
    exact turns_get?_of_notMem hafter
  · refine turns_links ?_
    rcases h with rfl | h | h
    · exact .inl hbefore
    · refine .inl fun hmem => h (((ownKeys_perm b).map Prod.fst).mem_iff.mp ?_)
      rw [hsplit,List.map_append]
      exact List.mem_append_left _ hmem
    · exact .inr h

lemma merged_shared (hb : (b.map Prod.fst).Nodup) {v w : Json} (hv : (spread a).get? k = some v)
    (hw : (k,w) ∈ b) :
    (deepMerge a b preferSecond).own.get? k = some (sharedValue preferSecond v w) := by
  obtain ⟨result,heq,hown,-⟩ := merged_at (a := a) hb hw
  rw [heq,entry_shared (hown.trans hv)]

/-- An inherited key that only the second object has is lost. -/
lemma lost_of_inherited (ha : (a.map Prod.fst).Nodup) (hb : (b.map Prod.fst).Nodup)
    (h : ¬NotInherited a b preferSecond) : ∃ k w, (k,w) ∈ b ∧ k ∉ a.map Prod.fst ∧
      (deepMerge a b preferSecond).own.get? k = none := by
  by_cases hproto : protoKey ∈ b.map Prod.fst ∧ protoKey ∉ a.map Prod.fst
  · obtain ⟨⟨k,w⟩,hw,hk⟩ := List.mem_map.mp hproto.1
    obtain rfl : k = protoKey := hk
    obtain ⟨result,heq,hown,hstandard⟩ := merged_at (a := a) hb hw
    obtain ⟨hlinks,hrooted⟩ := hstandard (.inl rfl)
    refine ⟨protoKey,w,hw,hproto.2,?_⟩
    rw [heq,entry_absent (hown.trans ((spread_get?_none ha).mpr hproto.2)) hlinks hrooted,
      if_pos (.inl rfl)]
  · unfold NotInherited at h
    push Not at h
    obtain ⟨k,hk,hka,hm⟩ := h
    have hp : k ≠ protoKey := fun hp => hproto (hp ▸ ⟨hk,hka⟩)
    obtain ⟨hm,hprefer⟩ := hm hp
    obtain ⟨⟨k,w⟩,hw,rfl⟩ := List.mem_map.mp hk
    obtain ⟨result,heq,hown,hstandard⟩ := merged_at (a := a) hb hw
    have hsafe : protoKey ∉ b.map Prod.fst ∨ ∃ v, (spread a).get? protoKey = some v := by
      by_cases hpa : protoKey ∈ a.map Prod.fst
      · obtain ⟨⟨k',v⟩,hv,hk'⟩ := List.mem_map.mp hpa
        obtain rfl : k' = protoKey := hk'
        exact .inr ⟨v,(spread_get? ha).mpr hv⟩
      · exact .inl fun hpb => hproto ⟨hpb,hpa⟩
    obtain ⟨hlinks,hrooted⟩ := hstandard (.inr hsafe)
    refine ⟨k,w,hw,hka,?_⟩
    rw [heq,entry_absent (hown.trans ((spread_get?_none ha).mpr hka)) hlinks hrooted,
      if_pos (.inr ⟨hm,by simpa using hprefer⟩)]

lemma spread_of_mem (ha : (a.map Prod.fst).Nodup) (hk : k ∈ a.map Prod.fst) :
    ∃ v, (k,v) ∈ a ∧ (spread a).get? k = some v := by
  obtain ⟨⟨k,v⟩,hv,rfl⟩ := List.mem_map.mp hk
  exact ⟨v,hv,(spread_get? ha).mpr hv⟩

/-- Otherwise it is kept. -/
lemma merged_absent (ha : (a.map Prod.fst).Nodup) (hb : (b.map Prod.fst).Nodup)
    (h : NotInherited a b preferSecond) {w : Json} (hw : (k,w) ∈ b) (hk : k ∉ a.map Prod.fst) :
    (deepMerge a b preferSecond).own.get? k = some w := by
  obtain ⟨result,heq,hown,hstandard⟩ := merged_at (a := a) hb hw
  have hsafe : protoKey ∉ b.map Prod.fst ∨ ∃ v, (spread a).get? protoKey = some v := by
    by_cases hpa : protoKey ∈ a.map Prod.fst
    · obtain ⟨v,-,hv⟩ := spread_of_mem ha hpa
      exact .inr ⟨v,hv⟩
    · exact .inl fun hpb => (h protoKey hpb hpa).1 rfl
  obtain ⟨hlinks,hrooted⟩ := hstandard (.inr hsafe)
  obtain ⟨hp,hm⟩ := h k (List.mem_map_of_mem hw) hk
  rw [heq,entry_absent (hown.trans ((spread_get?_none ha).mpr hk)) hlinks hrooted,if_neg]
  rintro (hproto | ⟨hmethod,hprefer⟩)
  · exact hp hproto
  · rw [hm hmethod] at hprefer
    cases hprefer

/-- What the merge of two objects holds. -/
structure Merges (a b : List (Text × Json)) (preferSecond : Bool) (result : OrderedMap Text Json) :
    Prop where
  keys : ∀ k, k ∈ result.keys ↔ k ∈ a.map Prod.fst ∨ k ∈ b.map Prod.fst
  first : ∀ k v, (k,v) ∈ a → k ∉ b.map Prod.fst → result.get? k = some v
  second : ∀ k w, (k,w) ∈ b → k ∉ a.map Prod.fst → result.get? k = some w
  objects : ∀ k f g, (k,.obj f) ∈ a → (k,.obj g) ∈ b →
    result.get? k = some (.obj (deepMerge f g preferSecond).own.entries)
  conflict : ∀ k v w, (k,v) ∈ a → (k,w) ∈ b → ¬(isPlainObject v = true ∧ isPlainObject w = true) →
    result.get? k = some (if preferSecond then w else v)

lemma sharedValue_conflict {v w : Json} (h : ¬(isPlainObject v = true ∧ isPlainObject w = true)) :
    sharedValue preferSecond v w = if preferSecond then w else v := by
  unfold sharedValue
  split
  · exact absurd ⟨rfl,rfl⟩ h
  · rfl

lemma merges_iff (ha : (a.map Prod.fst).Nodup) (hb : (b.map Prod.fst).Nodup) :
    Merges a b preferSecond (deepMerge a b preferSecond).own ↔ NotInherited a b preferSecond := by
  constructor
  · intro h
    by_contra hn
    obtain ⟨k,w,hw,hk,hnone⟩ := lost_of_inherited ha hb hn
    rw [h.second k w hw hk] at hnone
    cases hnone
  · intro h
    have hfirst : ∀ k v, (k,v) ∈ a → k ∉ b.map Prod.fst →
        (deepMerge a b preferSecond).own.get? k = some v := fun k v hv hk =>
      (merged_of_notMem hk).trans ((spread_get? ha).mpr hv)
    have hshared : ∀ k v w, (k,v) ∈ a → (k,w) ∈ b →
        (deepMerge a b preferSecond).own.get? k = some (sharedValue preferSecond v w) :=
      fun k v w hv hw => merged_shared hb ((spread_get? ha).mpr hv) hw
    refine ⟨fun k => ?_,hfirst,fun k w hw hk => merged_absent ha hb h hw hk,
      fun k f g hf hg => hshared k _ _ hf hg,fun k v w hv hw hplain => ?_⟩
    · rw [OrderedMap.mem_keys_iff]
      constructor
      · rintro ⟨v,hv⟩
        by_cases hkb : k ∈ b.map Prod.fst
        · exact .inr hkb
        · rw [merged_of_notMem hkb,spread_get? ha] at hv
          exact .inl (mem_keys hv)
      · intro hk
        by_cases hkb : k ∈ b.map Prod.fst
        · obtain ⟨⟨k,w⟩,hw,rfl⟩ := List.mem_map.mp hkb
          by_cases hka : k ∈ a.map Prod.fst
          · obtain ⟨v,hv,-⟩ := spread_of_mem ha hka
            exact ⟨_,hshared k v w hv hw⟩
          · exact ⟨w,merged_absent ha hb h hw hka⟩
        · obtain ⟨v,hv,-⟩ := spread_of_mem ha (hk.resolve_right hkb)
          exact ⟨v,hfirst k v hv hkb⟩
    · rw [hshared k v w hv hw,sharedValue_conflict hplain]

end Merged

/-! ### One object with itself and with the empty one -/

section Laws
variable {a b : List (Text × Json)} {preferSecond : Bool}

lemma nodup_empty : (([] : List (Text × Json)).map Prod.fst).Nodup := List.nodup_nil

lemma same_of_get? {m : OrderedMap Text Json} (ha : (a.map Prod.fst).Nodup)
    (hkeys : ∀ k, k ∈ m.keys ↔ k ∈ a.map Prod.fst)
    (h : ∀ k v, (k,v) ∈ a → ∃ u, m.get? k = some u ∧ Same Eq u v) :
    Same Eq (.obj m.entries) (.obj a) := by
  have hperm : m.keys.Perm (a.map Prod.fst) := (List.perm_ext_iff_of_nodup m.keys_nodup ha).mpr hkeys
  rw [Same,sameFields_iff]
  refine ⟨?_,fun p hp => ?_⟩
  · have hlength := hperm.length_eq
    rwa [OrderedMap.keys,List.length_map,List.length_map] at hlength
  · obtain ⟨⟨k,v⟩,hv,hk⟩ := List.mem_map.mp ((hkeys p.1).mp (List.mem_map_of_mem hp))
    obtain rfl : k = p.1 := hk
    obtain ⟨u,hu,hsame⟩ := h _ v hv
    rw [OrderedMap.get?_iff_mem.mpr hp] at hu
    exact ⟨v,hv,Option.some.inj hu ▸ hsame⟩

lemma deepMerge_self {v : Json} (hv : KeysDistinct v) (ha : v = .obj a) :
    Same Eq (.obj (deepMerge a a preferSecond).own.entries) (.obj a) := by
  induction v using induct generalizing a with
  | leaf | arr => cases ha
  | obj fields ih =>
    obtain rfl : fields = a := Tree.obj.inj ha
    cases hv with | obj hkeys hdistinct =>
    have hmerges : Merges fields fields preferSecond (deepMerge fields fields preferSecond).own :=
      (merges_iff hkeys hkeys).mpr fun k hk hno => absurd hk hno
    refine same_of_get? hkeys (fun k => (hmerges.keys k).trans (or_self_iff)) fun k v hv => ?_
    cases hcase : v with
    | obj f =>
      rw [hcase] at hv
      exact ⟨_,hmerges.objects k f f hv hv,ih (k,.obj f) hv (hdistinct _ hv) rfl⟩
    | leaf | arr =>
      rw [hcase] at hv
      refine ⟨_,hmerges.conflict k _ _ hv hv (by simp [isPlainObject]),?_⟩
      rw [ite_self]
      exact .refl (fun _ => rfl) _

lemma deepMerge_empty (ha : (a.map Prod.fst).Nodup) :
    Same Eq (.obj (deepMerge a [] preferSecond).own.entries) (.obj a) := by
  have hmerges : Merges a [] preferSecond (deepMerge a [] preferSecond).own :=
    (merges_iff ha nodup_empty).mpr fun k hk => absurd hk List.not_mem_nil
  refine same_of_get? ha (fun k => (hmerges.keys k).trans (by simp)) fun k v hv => ?_
  exact ⟨v,hmerges.first k v hv (by simp),.refl (fun _ => rfl) v⟩

lemma empty_deepMerge (hb : (b.map Prod.fst).Nodup) :
    Same Eq (.obj (deepMerge [] b preferSecond).own.entries) (.obj b) ↔
      NotInherited [] b preferSecond := by
  constructor
  · intro h
    by_contra hn
    obtain ⟨k,w,hw,-,hnone⟩ := lost_of_inherited nodup_empty hb hn
    rw [Same,sameFields_iff] at h
    have hsub : (deepMerge [] b preferSecond).own.keys ⊆ b.map Prod.fst := by
      intro k hk
      obtain ⟨p,hp,rfl⟩ := List.mem_map.mp hk
      obtain ⟨v,hv,-⟩ := h.2 p hp
      exact mem_keys hv
    have hmem := keys_subset (deepMerge [] b preferSecond).own.nodup h.1 hsub (mem_keys hw)
    exact OrderedMap.get?_eq_none_iff.mp hnone hmem
  · intro h
    have hmerges := (merges_iff nodup_empty hb).mpr h
    refine same_of_get? hb (fun k => (hmerges.keys k).trans (by simp)) fun k v hv => ?_
    exact ⟨v,hmerges.second k v hv (by simp),.refl (fun _ => rfl) v⟩

end Laws

/-- The merge of two objects holds the keys of both, unless a key of the second that the first lacks
is inherited; merging an object with itself or with the empty one behind it gives the object. -/
theorem deepMerge_laws (a b : List (Text × Json)) (preferSecond : Bool) :
    ((a.map Prod.fst).Nodup → (b.map Prod.fst).Nodup →
      (Merges a b preferSecond (deepMerge a b preferSecond).own ↔ NotInherited a b preferSecond)) ∧
    (KeysDistinct (.obj a) →
      Same Eq (.obj (deepMerge a a preferSecond).own.entries) (.obj a)) ∧
    ((a.map Prod.fst).Nodup →
      Same Eq (.obj (deepMerge a [] preferSecond).own.entries) (.obj a)) ∧
    ((b.map Prod.fst).Nodup →
      (Same Eq (.obj (deepMerge [] b preferSecond).own.entries) (.obj b) ↔
        NotInherited [] b preferSecond)) :=
  ⟨merges_iff,fun h => deepMerge_self h rfl,deepMerge_empty,empty_deepMerge⟩

section Instances

/-- `{"toString": true}` -/
def shadow : List (Text × Json) := [(ascii "toString",yes)]

lemma shadow_nodup : (shadow.map Prod.fst).Nodup := List.nodup_singleton _

theorem deepMerge_laws_shadow : Merges [] shadow true (deepMerge [] shadow true).own :=
  ((deepMerge_laws [] shadow true).1 nodup_empty shadow_nodup).mpr
    fun k hk _ => by
      obtain rfl : k = ascii "toString" := List.mem_singleton.mp hk
      exact ⟨by decide +kernel,fun _ => rfl⟩

/-- Merged into the empty object, a property that objects inherit is lost. -/
theorem deepMerge_shadow : ¬Merges [] shadow false (deepMerge [] shadow false).own ∧
    ¬Same Eq (.obj (deepMerge [] shadow false).own.entries) (.obj shadow) := by
  have hn : ¬NotInherited [] shadow false := by
    intro h
    have hmem : ascii "toString" ∈ prototypeMethods := by decide +kernel
    exact absurd ((h _ List.mem_cons_self List.not_mem_nil).2 hmem) Bool.false_ne_true
  exact ⟨fun h => hn ((merges_iff nodup_empty shadow_nodup).mp h),
    fun h => hn ((empty_deepMerge shadow_nodup).mp h)⟩

end Instances

end Linea.MergeNode
