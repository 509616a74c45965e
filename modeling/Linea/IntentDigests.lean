import Linea.JsonValues

/-! The canonical text of an action intent, and the digest under which it is approved. -/
namespace Linea.IntentDigests
open JsonText JsonText.Tree

/-- What a JavaScript value has in the places of a JSON value's leaves. A `classInstance` is an object
whose prototype is neither `Object.prototype` nor `null`; arrays are without holes. -/
inductive JsLeaf
  | json (a : Atom)
  | undefined
  | classInstance
  | function
  | symbol
  | bigint (n : ℤ)

abbrev JsValue := Tree Text JsLeaf

def assertUnicodeScalarValue (s : Text) : Except String Unit :=
  if hasLoneSurrogate s then .error "I-JSON strings must contain valid Unicode" else .ok ()

section Canonicalize

variable (printer : NumberPrinter)

def canonicalizeLeaf : JsLeaf → Except String Text
  | .json (.number x) =>
    if isFinite x then .ok (printer.text x) else .error "I-JSON numbers must be finite"
  | .json (.string s) => do
    assertUnicodeScalarValue s
    .ok (quote s)
  | .json a => .ok (printer.atomText a)
  | .classInstance => .error "I-JSON objects must be plain objects"
  | .undefined | .function | .symbol | .bigint _ => .error "Value is not I-JSON compatible"

/-- `key:value` of each field, in the order of their keys. -/
def fieldTexts : List (Text × Except String Text) → Except String (List Text)
  | [] => .ok []
  | (key,value) :: fields => do
    assertUnicodeScalarValue key
    let value ← value
    let texts ← fieldTexts fields
    .ok ((quote key ++ 58 :: value) :: texts)

mutual
def canonicalizeValue : JsValue → Except String Text
  | .leaf l => canonicalizeLeaf printer l
  | .arr items => do
    let texts ← canonicalizeItems items
    .ok (91 :: (join texts ++ [93]))
  | .obj fields => do
    let texts ← fieldTexts (sortFields (canonicalizeFields fields))
    .ok (123 :: (join texts ++ [125]))

def canonicalizeItems : List JsValue → Except String (List Text)
  | [] => .ok []
  | v :: items => do
    let text ← canonicalizeValue v
    let texts ← canonicalizeItems items
    .ok (text :: texts)

/-- What each field's value gives; a failure is seen when the sorted fields are written. -/
def canonicalizeFields : List (Text × JsValue) → List (Text × Except String Text)
  | [] => []
  | (k,v) :: fields => (k,canonicalizeValue v) :: canonicalizeFields fields
end

def canonicalizeActionIntent (v : JsValue) : Except String Text := canonicalizeValue printer v

/-- `sha256` stands for the hash of the UTF-8 bytes of a text, in base64url. -/
def digestActionIntent {D : Type} (sha256 : Text → D) (v : JsValue) : Except String D :=
  (canonicalizeActionIntent printer v).map sha256

end Canonicalize

/-- A leaf for which there is no I-JSON. -/
def Refused : JsLeaf → Prop
  | .json (.number x) => isFinite x = false
  | .json (.string s) => hasLoneSurrogate s = true
  | .json _ => False
  | _ => True

def LoneKey (k : Text) : Prop := hasLoneSurrogate k = true

def SameLeaf : JsLeaf → JsLeaf → Prop
  | .json a, .json b => SameAtom a b
  | l, l' => l = l'

/-- The text of a leaf that has one. -/
def leafText (printer : NumberPrinter) : JsLeaf → Text
  | .json a => printer.atomText a
  | _ => []

variable {printer : NumberPrinter}

/-- A step that fails, or the text that it gives. -/
def Gives {α : Type} (bad : Prop) (r : Except String α) (a : α) : Prop :=
  (bad → ∃ e, r = .error e) ∧ (¬bad → r = .ok a)

lemma Gives.bind {α β : Type} {bad bad' : Prop} {r : Except String α} {a : α}
    {f : α → Except String β} {b : β} (h : Gives bad r a) (h' : ¬bad → Gives bad' (f a) b) :
    Gives (bad ∨ bad') (r >>= f) b := by
  by_cases hbad : bad
  · obtain ⟨e,rfl⟩ := h.1 hbad
    exact ⟨fun _ => ⟨e,rfl⟩,fun hn => absurd (.inl hbad) hn⟩
  · have hr := h.2 hbad
    subst hr
    exact ⟨fun hb => (h' hbad).1 (hb.resolve_left hbad),fun hn => (h' hbad).2 (not_or.mp hn).2⟩

lemma Gives.ok {α : Type} (a : α) : Gives False (.ok a) a := ⟨False.elim,fun _ => rfl⟩

lemma Gives.ret {α β : Type} {bad : Prop} {r : Except String α} {a : α} (h : Gives bad r a)
    (f : α → β) : Gives bad (r >>= fun x => .ok (f x)) (f a) := by
  refine ⟨fun hb => ?_,fun hn => ?_⟩
  · obtain ⟨e,rfl⟩ := h.1 hb
    exact ⟨e,rfl⟩
  · have hr := h.2 hn
    subst hr
    rfl

lemma Gives.congr {α : Type} {bad bad' : Prop} {r : Except String α} {a : α} (h : Gives bad r a)
    (hiff : bad' ↔ bad) : Gives bad' r a :=
  ⟨fun hb => h.1 (hiff.mp hb),fun hn => h.2 fun hb => hn (hiff.mpr hb)⟩

lemma assert_gives (s : Text) : Gives (hasLoneSurrogate s = true) (assertUnicodeScalarValue s) () := by
  unfold assertUnicodeScalarValue
  exact ⟨fun h => ⟨_,if_pos h⟩,fun h => if_neg h⟩

lemma leaf_gives (l : JsLeaf) :
    Gives (Refused l) (canonicalizeLeaf printer l) (leafText printer l) := by
  match l with
  | .json .null | .json (.bool _) => exact .ok _
  | .json (.number x) =>
    refine ⟨fun h => ?_,fun h => ?_⟩
    · exact ⟨_,if_neg (by simpa [Refused] using h)⟩
    · have hx : isFinite x = true := by simpa [Refused] using h
      simp [canonicalizeLeaf,leafText,NumberPrinter.atomText,hx]
  | .json (.string s) => exact (assert_gives s).ret fun _ => quote s
  | .undefined | .classInstance | .function | .symbol | .bigint _ =>
    exact ⟨fun _ => ⟨_,rfl⟩,fun h => absurd trivial h⟩

/-- Fields are written unless a key or a value among them fails. -/
lemma fieldTexts_gives {α : Type} (value : α → Except String Text) (text : α → Text)
    (bad : α → Prop) {fields : List (Text × α)}
    (h : ∀ p ∈ fields, Gives (bad p.2) (value p.2) (text p.2)) :
    Gives (∃ p ∈ fields, LoneKey p.1 ∨ bad p.2) (fieldTexts (fields.map fun p => (p.1,value p.2)))
      (fields.map fun p => quote p.1 ++ 58 :: text p.2) := by
  induction fields with
  | nil => exact (Gives.ok _).congr (by simp)
  | cons p fields ih =>
    obtain ⟨key,v⟩ := p
    have hv := h (key,v) (by simp)
    have hrest := ih fun p hp => h p (by simp [hp])
    rw [List.map_cons,fieldTexts,List.map_cons]
    refine ((assert_gives key).bind fun _ => Gives.bind hv fun _ =>
      hrest.ret fun texts => (quote key ++ 58 :: text v) :: texts).congr ?_
    simp [LoneKey,or_assoc]

lemma canonicalizeFields_eq_map (fields : List (Text × JsValue)) :
    canonicalizeFields printer fields = fields.map fun p => (p.1,canonicalizeValue printer p.2) := by
  induction fields with
  | nil => rfl
  | cons p fields ih =>
    obtain ⟨k,v⟩ := p
    rw [canonicalizeFields,ih,List.map_cons]

/-- The normal form whose text is the canonical one. -/
def normalForm (printer : NumberPrinter) (v : JsValue) : Tree Text Text :=
  normal sortFields (leafText printer) v

/-- A value without anything refused has a canonical text, and no other has. -/
theorem canonicalize_gives (printer : NumberPrinter) (v : JsValue) :
    Gives (Contains Refused LoneKey v) (canonicalizeValue printer v) (print (normalForm printer v)) := by
  induction v using induct with
  | leaf l =>
    rw [canonicalizeValue,normalForm,normal,print]
    exact (leaf_gives l).congr ⟨fun h => by cases h; assumption,.leaf⟩
  | arr items ih =>
    have hitems : Gives (∃ v ∈ items, Contains Refused LoneKey v) (canonicalizeItems printer items)
        (printItems (normalItems sortFields (leafText printer) items)) := by
      induction items with
      | nil => exact (Gives.ok _).congr (by simp)
      | cons v items ihs =>
        have hrest := ihs fun u hu => ih u (by simp [hu])
        rw [canonicalizeItems]
        refine ((ih v (by simp)).bind fun _ => hrest.ret fun texts =>
          print (normalForm printer v) :: texts).congr ?_
        simp
    rw [canonicalizeValue,normalForm,normal,print]
    refine (hitems.ret fun texts => 91 :: (join texts ++ [93])).congr ?_
    constructor
    · intro h
      cases h with | item hv h => exact ⟨_,hv,h⟩
    · rintro ⟨v,hv,h⟩
      exact .item hv h
  | obj fields ih =>
    have hfields : Gives (∃ p ∈ sortFields fields, LoneKey p.1 ∨ Contains Refused LoneKey p.2)
        (fieldTexts ((sortFields fields).map fun p => (p.1,canonicalizeValue printer p.2)))
        ((sortFields fields).map fun p => quote p.1 ++ 58 :: print (normalForm printer p.2)) :=
      fieldTexts_gives _ (fun v => print (normalForm printer v)) _ fun p hp => ih p ((sortFields_perm fields).subset hp)
    rw [canonicalizeValue,normalForm,normal,print,canonicalizeFields_eq_map,normalFields_eq_map,
      printFields_eq_map,
      sortFields_map (fun p => (p.1,canonicalizeValue printer p.2)) (fun _ => rfl),
      sortFields_map (fun p => (p.1,normal sortFields (leafText printer) p.2)) (fun _ => rfl),
      List.map_map]
    refine (hfields.ret fun texts => 123 :: (join texts ++ [125])).congr ?_
    constructor
    · intro h
      cases h with
      | key hp h => exact ⟨_,(sortFields_perm fields).symm.subset hp,.inl h⟩
      | field hp h => exact ⟨_,(sortFields_perm fields).symm.subset hp,.inr h⟩
    · rintro ⟨p,hp,h | h⟩
      · exact .key ((sortFields_perm fields).subset hp) h
      · exact .field ((sortFields_perm fields).subset hp) h

/-- What a canonical text is the text of. -/
lemma canonical_text {v : JsValue} {s : Text} (h : canonicalizeActionIntent printer v = .ok s) :
    ¬Contains Refused LoneKey v ∧ s = print (normalForm printer v) := by
  have hgives := canonicalize_gives printer v
  have hgood : ¬Contains Refused LoneKey v := fun hc => by
    obtain ⟨e,he⟩ := hgives.1 hc
    rw [canonicalizeActionIntent,he] at h
    cases h
  have hok := hgives.2 hgood
  rw [canonicalizeActionIntent,hok,Except.ok.injEq] at h
  exact ⟨hgood,h.symm⟩

/-- A leaf for which there is I-JSON has one text, of a JSON leaf. -/
lemma leafText_of_not_refused {l : JsLeaf} (h : ¬Refused l) :
    AtomText (leafText printer l) ∧ hasLoneSurrogate (leafText printer l) = false := by
  match l, h with
  | .json a, _ => exact ⟨printer.isText a,printer.atomText_paired a⟩
  | .undefined, h | .classInstance, h | .function, h | .symbol, h | .bigint _, h =>
    exact absurd trivial h

lemma leafText_eq_iff {l l' : JsLeaf} (h : ¬Refused l) (h' : ¬Refused l') :
    leafText printer l = leafText printer l' ↔ SameLeaf l l' := by
  match l, l', h, h' with
  | .json a, .json b, h, h' =>
    have hfinite {a : Atom} (h : ¬Refused (.json a)) : a.isFinite = true := by
      cases a with
      | number x =>
        change isFinite x = true
        simpa [Refused] using h
      | _ => rfl
    exact printer.atomText_eq_iff (hfinite h) (hfinite h')
  | .undefined, _, h, _ | .classInstance, _, h, _ | .function, _, h, _ | .symbol, _, h, _
  | .bigint _, _, h, _ => exact absurd trivial h
  | .json _, .undefined, _, h | .json _, .classInstance, _, h | .json _, .function, _, h
  | .json _, .symbol, _, h | .json _, .bigint _, _, h => exact absurd trivial h

/-- Canonical texts are equal just for values that are equal up to the order of keys. -/
theorem canonical_eq_iff {v w : JsValue} (hv : KeysDistinct v) (hw : KeysDistinct w) {s t : Text}
    (hs : canonicalizeActionIntent printer v = .ok s)
    (ht : canonicalizeActionIntent printer w = .ok t) : s = t ↔ Same SameLeaf v w := by
  obtain ⟨hgv,rfl⟩ := canonical_text hs
  obtain ⟨hgw,rfl⟩ := canonical_text ht
  have hleaves {v : JsValue} (h : ¬Contains Refused LoneKey v) :
      ¬Contains (¬AtomText ·) (fun _ => False) (normalForm printer v) := fun hc =>
    h ((contains_of_normal sortFields_arranges.mem hc).mono
      (fun l hl => not_not.mp fun hn => hl (leafText_of_not_refused hn).1) fun _ => False.elim)
  have hprint : print (normalForm printer v) = print (normalForm printer w) ↔
      normalForm printer v = normalForm printer w := by
    refine ⟨fun h => ?_,congrArg _⟩
    have hstop : Stops [] := fun _ h => nomatch h
    exact (print_append_inj atomText_leaf (hleaves hgv) (hleaves hgw) hstop hstop
      (congrArg (· ++ []) h)).1
  rw [hprint,normalForm,normalForm,normal_eq_iff sortFields_arranges hv hw]
  have hgood {v : JsValue} (h : ¬Contains Refused LoneKey v) :
      ¬Contains (fun l => ¬¬Refused l) LoneKey v := fun hc =>
    h (hc.mono (fun _ => not_not.mp) fun _ => id)
  exact same_congr (P := fun l => ¬Refused l) (fun ha hb => leafText_eq_iff ha hb) (hgood hgv)
    (hgood hgw)

/-- A canonical text can be encoded. -/
lemma canonical_paired {v : JsValue} {s : Text} (h : canonicalizeActionIntent printer v = .ok s) :
    hasLoneSurrogate s = false := by
  obtain ⟨hg,rfl⟩ := canonical_text h
  refine print_paired fun hc => hg ((contains_of_normal sortFields_arranges.mem hc).mono ?_ fun _ => False.elim)
  intro l hl
  by_contra hn
  rw [(leafText_of_not_refused hn).2] at hl
  cases hl

/-- Digests of canonical texts identify values up to the order of keys, and what is refused is what
contains a leaf that I-JSON does not have, or a key that cannot be encoded. -/
theorem digest_binds (printer : NumberPrinter) {D : Type} (sha256 : Text → D)
    (hsha : ∀ s t, hasLoneSurrogate s = false → hasLoneSurrogate t = false →
      sha256 s = sha256 t → s = t) :
    (∀ v w : JsValue, KeysDistinct v → KeysDistinct w →
      (∀ s t, canonicalizeActionIntent printer v = .ok s →
        canonicalizeActionIntent printer w = .ok t → (s = t ↔ Same SameLeaf v w)) ∧
      ∀ d e, digestActionIntent printer sha256 v = .ok d →
        digestActionIntent printer sha256 w = .ok e → (d = e ↔ Same SameLeaf v w)) ∧
    ∀ v : JsValue, (∃ e, canonicalizeActionIntent printer v = .error e) ↔
      Contains Refused LoneKey v := by
  refine ⟨fun v w hv hw => ⟨fun s t => canonical_eq_iff hv hw,fun d e hd he => ?_⟩,fun v => ?_⟩
  · unfold digestActionIntent at hd he
    cases hs : canonicalizeActionIntent printer v with
    | error e => simp [hs,Except.map] at hd
    | ok s =>
      cases ht : canonicalizeActionIntent printer w with
      | error e => simp [ht,Except.map] at he
      | ok t =>
        rw [hs,Except.map,Except.ok.injEq] at hd
        rw [ht,Except.map,Except.ok.injEq] at he
        subst hd he
        rw [← canonical_eq_iff hv hw hs ht]
        exact ⟨hsha s t (canonical_paired hs) (canonical_paired ht),congrArg _⟩
  · have hgives := canonicalize_gives printer v
    refine ⟨fun ⟨e,he⟩ => ?_,hgives.1⟩
    by_contra hn
    have hok := hgives.2 hn
    rw [canonicalizeActionIntent,hok] at he
    cases he

/-! ## Two intents, and a value that is refused -/

def zero : JsValue := .leaf (.json (.number 0))

def minusZero : JsValue := .leaf (.json (.number 0x8000000000000000))

def one : JsValue := .leaf (.json (.number 0x3FF0000000000000))

theorem digest_reordered :
    digestActionIntent samplePrinter id (.obj [(ascii "b",one),(ascii "a",zero)]) =
      digestActionIntent samplePrinter id (.obj [(ascii "a",minusZero),(ascii "b",one)]) := by
  have hdistinct (x y : Text) (l m : JsLeaf) (h : x ≠ y) :
      KeysDistinct (.obj [(x,.leaf l),(y,.leaf m)] : JsValue) := by
    refine .obj (by simpa using h) fun p hp => ?_
    simp only [List.mem_cons,List.not_mem_nil,or_false] at hp
    rcases hp with rfl | rfl <;> exact .leaf _
  have hbinds := ((digest_binds samplePrinter id fun _ _ _ _ h => h).1 _ _
    (hdistinct (ascii "b") (ascii "a") (.json (.number 0x3FF0000000000000)) (.json (.number 0))
      (by decide))
    (hdistinct (ascii "a") (ascii "b") (.json (.number 0x8000000000000000))
      (.json (.number 0x3FF0000000000000)) (by decide))).2 _ _ rfl rfl
  exact congrArg Except.ok (hbinds.mpr ⟨rfl,⟨one,.tail _ (.head _),.inl rfl⟩,
    ⟨minusZero,.head _,.inr (by decide)⟩,trivial⟩)

/-- Of what is refused, the values that contain a number that is not finite, a string or a key that
cannot be encoded, `undefined`, or an object that is not plain. -/
def Named : JsLeaf → Prop
  | .symbol | .bigint _ => False
  | l => Refused l

/-- A bigint is refused too. -/
theorem refused_bigint : ¬∀ v : JsValue,
    (∃ e, canonicalizeActionIntent samplePrinter v = .error e) ↔ Contains Named LoneKey v := by
  intro h
  have hnamed := (h (.leaf (.bigint 1))).mp ⟨_,rfl⟩
  cases hnamed with | leaf hnamed => exact hnamed

end Linea.IntentDigests
