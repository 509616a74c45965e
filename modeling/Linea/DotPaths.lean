import Linea.BranchNode

/-! Dot paths of `nodes/dot-path.ts`. A key of the path is tested with `in`, which also finds what an
object or an array inherits, and the length of an array. -/
namespace Linea.DotPaths
open JsonText JsonText.Tree WorkflowHash BranchNode

/-- What a path gives: a JSON value, or what the walk through the prototypes meets. -/
inductive Reached
  | json (v : Json)
  | length (n : ℕ)
  | objectPrototype
  | arrayPrototype
  | method
  | undefined

def lengthKey : Text := ascii "length"

/-- The methods that an array inherits from `Array.prototype`. -/
def arrayMethods : List Text :=
  ["at","concat","copyWithin","fill","find","findIndex","findLast","findLastIndex","lastIndexOf","pop",
    "push","reverse","shift","unshift","slice","sort","splice","includes","indexOf","join","keys",
    "entries","values","forEach","filter","flat","flatMap","map","every","some","reduce","reduceRight",
    "toReversed","toSorted","toSpliced","with"].map ascii

/-- What an object has from `Object.prototype`. -/
def objectMember (key : Text) : Reached :=
  if key = protoKey then .objectPrototype
  else if prototypeMethods.contains key then .method
  else .undefined

/-- What an array has besides its items. -/
def arrayMember (length : ℕ) (key : Text) : Reached :=
  if key = lengthKey then .length length
  else if key = protoKey then .arrayPrototype
  else if arrayMethods.contains key ∨ prototypeMethods.contains key then .method
  else .undefined

/-- The item whose index the key spells. -/
def item (items : List Json) (key : Text) : Option Json :=
  (arrayIndex key).bind fun n => items[n]?

/-- `key in acc` and `acc[key]`, of a JSON value. -/
def property : Json → Text → Reached
  | .leaf _,_ => .undefined
  | .arr items,key =>
    match item items key with
    | some v => .json v
    | none => arrayMember items.length key
  | .obj fields,key =>
    match fields.find? fun p => p.1 = key with
    | some p => .json p.2
    | none => objectMember key

/-- One key of the path. The prototype of `Object.prototype` is `null`; a method is no object for
`typeof`. -/
def follow : Reached → Text → Reached
  | .json v,key => property v key
  | .objectPrototype,key =>
    if key = protoKey then .json (.leaf .null)
    else if prototypeMethods.contains key then .method
    else .undefined
  | .arrayPrototype,key =>
    if key = lengthKey then .length 0
    else if key = protoKey then .objectPrototype
    else if arrayMethods.contains key ∨ prototypeMethods.contains key then .method
    else .undefined
  | _,_ => .undefined

def keys (path : Text) : List Text := path.splitOn 46

def getPath (value : Json) (path : Text) : Reached :=
  if path = [] then .json value else (keys path).foldl follow (.json value)

/-! ## Reading the data -/

/-- What a value has of its own under a key: a property of an object, an item of an array. -/
def Own : Json → Text → Json → Prop
  | .leaf _,_,_ => False
  | .arr items,key,w => ∃ n, arrayIndex key = some n ∧ items[n]? = some w
  | .obj fields,key,w => (key,w) ∈ fields

/-- Following keys through the data. -/
inductive Reads : Json → List Text → Json → Prop
  | here (v : Json) : Reads v [] v
  | there {v w r : Json} {key : Text} {rest : List Text} (hown : Own v key w) (h : Reads w rest r) :
      Reads v (key :: rest) r

/-- The segments of a path. The empty path reads the value itself. -/
def segments (path : Text) : List Text := if path = [] then [] else keys path

/-- A name that the value has not of its own, but inherits; and the length of an array. -/
def Inherits : Json → Text → Prop
  | .leaf _,_ => False
  | .arr items,key => item items key = none ∧
      (key = lengthKey ∨ key = protoKey ∨ key ∈ arrayMethods ∨ key ∈ prototypeMethods)
  | .obj fields,key => key ∉ fields.map Prod.fst ∧ (key = protoKey ∨ key ∈ prototypeMethods)

/-- Following the keys through the data, one comes to a name that is inherited. -/
inductive Meets : Json → List Text → Prop
  | here {v : Json} {key : Text} {rest : List Text} (h : Inherits v key) : Meets v (key :: rest)
  | there {v w : Json} {key : Text} {rest : List Text} (hown : Own v key w) (h : Meets w rest) :
      Meets v (key :: rest)

lemma item_eq_some {items : List Json} {key : Text} {w : Json} :
    item items key = some w ↔ Own (.arr items) key w := Option.bind_eq_some_iff

lemma own_unique {v : Json} (hv : KeysDistinct v) {key : Text} {w w' : Json} (h : Own v key w)
    (h' : Own v key w') : w = w' := by
  cases hv with
  | leaf => exact h.elim
  | arr => exact Option.some.inj ((item_eq_some.mpr h).symm.trans (item_eq_some.mpr h'))
  | obj hkeys => exact congrArg Prod.snd (List.inj_on_of_nodup_map hkeys h h' rfl)

lemma own_distinct {v : Json} (hv : KeysDistinct v) {key : Text} {w : Json} (h : Own v key w) :
    KeysDistinct w := by
  cases hv with
  | leaf => exact h.elim
  | arr hitems =>
    obtain ⟨n,-,hget⟩ := h
    exact hitems w (List.mem_of_getElem? hget)
  | obj _ hfields => exact hfields (key,w) h

/-- A key that is there is read. -/
lemma property_own {v : Json} (hv : KeysDistinct v) {key : Text} {w : Json} (h : Own v key w) :
    property v key = .json w := by
  cases hv with
  | leaf => exact h.elim
  | arr => rw [property,item_eq_some.mpr h]
  | obj hkeys => rw [property,find_own hkeys h]

/-- A key that is not there, and not inherited either, gives nothing. -/
lemma property_absent {v : Json} {key : Text} (h : ∀ w, ¬ Own v key w) (hnot : ¬ Inherits v key) :
    property v key = .undefined := by
  cases v with
  | leaf => rfl
  | arr items =>
    have hitem : item items key = none := by
      rw [Option.eq_none_iff_forall_ne_some]
      exact fun w hw => h w (item_eq_some.mp hw)
    have hmember : ¬ (key = lengthKey ∨ key = protoKey ∨ key ∈ arrayMethods ∨ key ∈ prototypeMethods) :=
      fun hname => hnot ⟨hitem,hname⟩
    push Not at hmember
    obtain ⟨hlength,hproto,harray,hobject⟩ := hmember
    rw [property,hitem]
    simp only [arrayMember,if_neg hlength,if_neg hproto,List.contains_iff_mem,harray,hobject,or_self,
      if_false]
  | obj fields =>
    have hkey : key ∉ fields.map Prod.fst := by
      intro hmem
      obtain ⟨⟨k,w⟩,hw,rfl⟩ := List.mem_map.mp hmem
      exact h w hw
    have hmember : ¬ (key = protoKey ∨ key ∈ prototypeMethods) := fun hname => hnot ⟨hkey,hname⟩
    push Not at hmember
    have hfind : fields.find? (fun p => p.1 = key) = none := by
      rw [List.find?_eq_none]
      intro p hp
      rw [decide_eq_true_eq]
      exact fun hpk => hkey (hpk ▸ List.mem_map_of_mem hp)
    rw [property,hfind]
    simp only [objectMember,List.contains_iff_mem,if_neg hmember.1,if_neg hmember.2]

/-- From nothing the walk does not come back. -/
lemma foldl_undefined (rest : List Text) : rest.foldl follow .undefined = .undefined := by
  induction rest with
  | nil => rfl
  | cons key rest ih => exact ih

/-- A walk that meets no inherited name reads the data, or ends with nothing. -/
lemma walk_reads {v : Json} {path : List Text} (hv : KeysDistinct v) (hpath : ¬ Meets v path) :
    (∃ r, Reads v path r ∧ path.foldl follow (.json v) = .json r) ∨
      (∀ r, ¬ Reads v path r) ∧ path.foldl follow (.json v) = .undefined := by
  induction path generalizing v with
  | nil => exact .inl ⟨v,.here v,rfl⟩
  | cons key rest ih =>
    rw [List.foldl_cons]
    change _ ∨ _ ∧ rest.foldl follow (property v key) = _
    change (∃ r, _ ∧ rest.foldl follow (property v key) = _) ∨ _
    by_cases hown : ∃ w, Own v key w
    · obtain ⟨w,hw⟩ := hown
      rw [property_own hv hw]
      rcases ih (own_distinct hv hw) (fun hmeets => hpath (.there hw hmeets)) with
        ⟨r,hreads,hwalk⟩ | ⟨hnone,hwalk⟩
      · exact .inl ⟨r,.there hw hreads,hwalk⟩
      · refine .inr ⟨fun r hr => ?_,hwalk⟩
        cases hr with
        | there hw' hreads => exact hnone r (own_unique hv hw hw' ▸ hreads)
    · push Not at hown
      rw [property_absent hown fun hinherits => hpath (.here hinherits),foldl_undefined]
      refine .inr ⟨fun r hr => ?_,rfl⟩
      cases hr with
      | there hw' _ => exact hown _ hw'

lemma Reads.unique {v r r' : Json} {path : List Text} (hv : KeysDistinct v) (h : Reads v path r)
    (h' : Reads v path r') : r = r' := by
  induction h with
  | here =>
    cases h' with
    | here => rfl
  | there hown _ ih =>
    cases h' with
    | there hown' h' =>
      obtain rfl := own_unique hv hown hown'
      exact ih (own_distinct hv hown) h'

/-- The value that a reading of the data gives, or none. -/
def Reached.ofOption : Option Json → Reached
  | some v => .json v
  | none => .undefined

/-- What following the segments gives. -/
def Reading (v : Json) (path : Text) (actual : Option Json) : Prop :=
  ∀ r, actual = some r ↔ Reads v (segments path) r

lemma getPath_reading {v : Json} {path : Text} (hv : KeysDistinct v)
    (hpath : ¬ Meets v (segments path)) :
    ∃ actual, Reading v path actual ∧ getPath v path = .ofOption actual := by
  have hfold : getPath v path = (segments path).foldl follow (.json v) := by
    rw [getPath,segments]
    split
    · rfl
    · rfl
  rw [hfold]
  rcases walk_reads hv hpath with ⟨r,hreads,hwalk⟩ | ⟨hnone,hwalk⟩
  · refine ⟨some r,fun r' => ⟨fun hr => ?_,fun hr => ?_⟩,hwalk⟩
    · exact Option.some.inj hr ▸ hreads
    · exact congrArg some (hreads.unique hv hr)
  · refine ⟨none,fun r => ⟨fun hr => ?_,fun hr => ?_⟩,hwalk⟩
    · exact absurd hr.symm (Option.some_ne_none r)
    · exact absurd hr (hnone r)

lemma Reading.unique {v : Json} {path : Text} {a b : Option Json} (ha : Reading v path a)
    (hb : Reading v path b) : a = b := Option.ext fun r => (ha r).trans (hb r).symm

end Linea.DotPaths
