import Linea.JsonValues

/-! The content hash of a workflow graph. Before the graph is hashed its objects are rebuilt by
assignment, under sorted keys: no assignment makes an own property of `__proto__`. -/
namespace Linea.WorkflowHash
open JsonText JsonText.Tree

def protoKey : Text := ascii "__proto__"

/-- The number that an array index spells. -/
def arrayIndex (k : Text) : Option ℕ :=
  let value := k.foldl (fun n c => n * 10 + (c.toNat - 48)) 0
  if k ≠ [] ∧ (k.all fun c => 48 ≤ c && c ≤ 57) ∧ (k.head? = some 48 → k.length = 1) ∧
      value < 2 ^ 32 - 1 then
    some value
  else none

def IndexLE {α : Type} (p q : Text × α) : Prop :=
  (arrayIndex p.1).getD 0 ≤ (arrayIndex q.1).getD 0

instance {α : Type} : DecidableRel (IndexLE (α := α)) :=
  fun _ _ => inferInstanceAs (Decidable (_ ≤ _))

/-- The own keys of an object, of which the properties are given as they were created: array indices
come first, in their order. -/
def ownKeys {α : Type} (created : List (Text × α)) : List (Text × α) :=
  (created.filter fun p => (arrayIndex p.1).isSome).insertionSort IndexLE ++
    created.filter fun p => !(arrayIndex p.1).isSome

/-- `acc[key] = value`, for a key that `acc` does not have. That of `__proto__` is the setter of the
prototype. -/
def assign {α : Type} (acc : List (Text × α)) (p : Text × α) : List (Text × α) :=
  if p.1 = protoKey then acc else acc ++ [p]

def rebuilt {α : Type} (fields : List (Text × α)) : List (Text × α) :=
  ownKeys ((sortFields fields).foldl assign [])

/-- Arrays are mapped, objects rebuilt of their canonicalized values, and other values returned. -/
def canonicalize (v : Json) : Json := normal rebuilt id v

/-- The text that is hashed. -/
def canonicalText (printer : NumberPrinter) (graph : Json) : Text :=
  stringify printer (canonicalize graph)

def hashWorkflowGraph {D : Type} (printer : NumberPrinter) (sha256 : Text → D) (graph : Json) : D :=
  sha256 (canonicalText printer graph)

/-! ## What the text does not show -/

def notProto {α : Type} (fields : List (Text × α)) : List (Text × α) :=
  fields.filter fun p => p.1 ≠ protoKey

/-- A number that `JSON.parse` could not represent is printed as `null`. -/
def shownAtom : Atom → Atom
  | .number x => if isFinite x then .number x else .null
  | a => a

/-- The graph without its `__proto__` properties, and with `null` for every number that is not
finite. -/
def shown (v : Json) : Json := normal notProto shownAtom v

/-- The graphs differ, but in `__proto__` properties and numbers that are not finite only. -/
def HiddenDifference (g g' : Json) : Prop :=
  Same SameAtom (shown g) (shown g') ∧ ¬Same SameAtom g g'

lemma foldl_assign {α : Type} (fields acc : List (Text × α)) :
    fields.foldl assign acc = acc ++ notProto fields := by
  induction fields generalizing acc with
  | nil => simp [notProto]
  | cons p fields ih =>
    rw [List.foldl_cons,ih,assign,notProto,notProto,List.filter_cons]
    split <;> simp_all

lemma rebuilt_eq {α : Type} (fields : List (Text × α)) :
    rebuilt fields = ownKeys (notProto (sortFields fields)) := by
  rw [rebuilt,foldl_assign,List.nil_append]

lemma ownKeys_map {α β : Type} (f : α → β) (fields : List (Text × α)) :
    ownKeys (fields.map fun p => (p.1,f p.2)) = (ownKeys fields).map fun p => (p.1,f p.2) := by
  rw [ownKeys,ownKeys,List.map_append,List.filter_map,List.filter_map]
  congr 1
  exact (List.map_insertionSort IndexLE IndexLE (fun p : Text × α => (p.1,f p.2)) _
    fun _ _ _ _ => Iff.rfl).symm

lemma notProto_map {α β : Type} (f : α → β) (fields : List (Text × α)) :
    notProto (fields.map fun p => (p.1,f p.2)) = (notProto fields).map fun p => (p.1,f p.2) := by
  rw [notProto,notProto,List.filter_map]
  rfl

lemma ownKeys_perm {α : Type} (fields : List (Text × α)) : (ownKeys fields).Perm fields :=
  ((List.perm_insertionSort _ _).append_right _).trans (List.filter_append_perm _ _)

/-- The order in which the fields of a rebuilt object are written. -/
def arranged {α : Type} (fields : List (Text × α)) : List (Text × α) := ownKeys (sortFields fields)

lemma arranged_arranges : Arranges (arranged (α := Tree Text Text)) where
  perm fields := (ownKeys_perm _).trans (sortFields_perm fields)
  congr hkeys h := congrArg ownKeys (sortFields_congr hkeys h)

lemma rebuilt_map {α β : Type} (f : α → β) (fields : List (Text × α)) :
    rebuilt (fields.map fun p => (p.1,f p.2)) = (rebuilt fields).map fun p => (p.1,f p.2) := by
  rw [rebuilt_eq,rebuilt_eq,sortFields_map (fun p => (p.1,f p.2)) (fun _ => rfl),notProto_map,
    ownKeys_map]

/-- Fields are left out before or after they are sorted. -/
lemma rebuilt_arranged {α : Type} {fields : List (Text × α)} (hkeys : (fields.map Prod.fst).Nodup) :
    rebuilt fields = arranged (notProto fields) := by
  rw [rebuilt_eq,arranged]
  congr 1
  have hperm : (notProto (sortFields fields)).Perm (sortFields (notProto fields)) :=
    ((sortFields_perm fields).filter _).trans (sortFields_perm _).symm
  have hmem {p : Text × α} (hp : p ∈ notProto (sortFields fields)) : p ∈ fields :=
    (sortFields_perm fields).subset (List.mem_of_mem_filter hp)
  refine hperm.eq_of_pairwise (fun p q hp hq hpq hqp => ?_)
    ((List.pairwise_insertionSort _ _).sublist List.filter_sublist)
    (List.pairwise_insertionSort _ _)
  exact List.inj_on_of_nodup_map hkeys (hmem hp) (hmem (hperm.symm.subset hq))
    (UnitsLE.antisymm hpq hqp)

variable {printer : NumberPrinter}

lemma atomText_shown (a : Atom) : printer.atomText (shownAtom a) = printer.atomText a := by
  cases a with
  | number x =>
    rw [shownAtom]
    split
    · rfl
    · rw [NumberPrinter.atomText,NumberPrinter.atomText,if_neg ‹_›]
  | _ => rfl

lemma shownAtom_finite (a : Atom) : (shownAtom a).isFinite = true := by
  cases a with
  | number x =>
    rw [shownAtom]
    split
    · assumption
    · rfl
  | _ => rfl

/-- The text of a rebuilt graph, and the graph's own with its objects rebuilt as they are written. -/
lemma canonicalText_rebuilt (v : Json) :
    canonicalText printer v = print (normal rebuilt printer.atomText v) := by
  refine congrArg print ?_
  unfold canonicalize
  induction v using induct with
  | leaf a => rfl
  | arr items ih =>
    simp only [normal,normalItems_eq_map,List.map_map,Tree.arr.injEq]
    exact List.map_congr_left fun v hmem => ih v hmem
  | obj fields ih =>
    simp only [normal,normalFields_eq_map,id]
    rw [← rebuilt_map (normal id printer.atomText),List.map_map]
    exact congrArg (fun l => Tree.obj (rebuilt l))
      (List.map_congr_left fun p hp => Prod.ext rfl (ih p hp))

/-- What is written is what the graph shows. -/
lemma normal_rebuilt {v : Json} (hv : KeysDistinct v) :
    normal rebuilt printer.atomText v = normal arranged printer.atomText (shown v) := by
  unfold shown
  induction v using induct with
  | leaf a => exact congrArg Tree.leaf (atomText_shown a).symm
  | arr items ih =>
    cases hv with | arr hv =>
    simp only [normal,normalItems_eq_map,List.map_map,Tree.arr.injEq]
    exact List.map_congr_left fun v hmem => ih v hmem (hv v hmem)
  | obj fields ih =>
    cases hv with | obj hkeys hv =>
    have hnodup : ((fields.map fun p =>
        (p.1,normal arranged printer.atomText (normal notProto shownAtom p.2))).map
          Prod.fst).Nodup := by
      rw [List.map_map]
      exact hkeys
    simp only [normal,normalFields_eq_map]
    rw [← notProto_map (normal arranged printer.atomText),List.map_map]
    have hfields : fields.map (fun p => (p.1,normal rebuilt printer.atomText p.2)) =
        fields.map fun p =>
          (p.1,normal arranged printer.atomText (normal notProto shownAtom p.2)) :=
      List.map_congr_left fun p hp => Prod.ext rfl (ih p hp (hv p hp))
    exact congrArg Tree.obj ((congrArg rebuilt hfields).trans (rebuilt_arranged hnodup))

lemma shown_distinct {v : Json} (hv : KeysDistinct v) : KeysDistinct (shown v) := by
  unfold shown
  induction hv with
  | leaf a => exact .leaf _
  | arr h ih =>
    rw [normal,normalItems_eq_map]
    exact .arr (List.forall_mem_map.mpr ih)
  | obj hkeys h ih =>
    rw [normal,normalFields_eq_map]
    refine .obj ?_ fun p hp => ?_
    · refine List.Nodup.sublist (List.filter_sublist.map _) ?_
      rw [List.map_map]
      exact hkeys
    · obtain ⟨q,hq,rfl⟩ := List.mem_map.mp (List.mem_of_mem_filter hp)
      exact ih q hq

/-- Every leaf of what is shown is finite. -/
lemma shown_finite (v : Json) :
    ¬Contains (fun a => ¬a.isFinite = true) (fun _ => False) (shown v) := fun hc =>
  not_contains (fun a h => h (shownAtom_finite a)) (fun _ h => h)
    (contains_of_normal List.mem_of_mem_filter hc)

/-- Canonical texts are equal when what the graphs show is equal. -/
theorem canonicalText_eq_iff (printer : NumberPrinter) {g g' : Json} (hg : KeysDistinct g) (hg' : KeysDistinct g') :
    canonicalText printer g = canonicalText printer g' ↔ Same SameAtom (shown g) (shown g') := by
  have hleaves (v : Json) :
      ¬Contains (¬AtomText ·) (fun _ => False) (normal arranged printer.atomText v) := fun hc =>
    not_contains (fun a h => h (printer.isText a)) (fun _ h => h)
      (contains_of_normal arranged_arranges.mem hc)
  rw [canonicalText_rebuilt,canonicalText_rebuilt,normal_rebuilt hg,normal_rebuilt hg']
  have hprint : print (normal arranged printer.atomText (shown g)) =
      print (normal arranged printer.atomText (shown g')) ↔
        normal arranged printer.atomText (shown g) = normal arranged printer.atomText (shown g') := by
    refine ⟨fun h => ?_,congrArg _⟩
    have hstop : Stops [] := fun _ h => nomatch h
    exact (print_append_inj atomText_leaf (hleaves _) (hleaves _) hstop hstop
      (congrArg (· ++ []) h)).1
  rw [hprint,normal_eq_iff arranged_arranges (shown_distinct hg) (shown_distinct hg')]
  exact same_congr (P := fun a => a.isFinite = true) printer.atomText_eq_iff (shown_finite g)
    (shown_finite g')

/-- The text is the same for graphs that are equal up to the order of keys. -/
lemma canonicalText_of_same (printer : NumberPrinter) {g g' : Json} (hg : KeysDistinct g) (hg' : KeysDistinct g')
    (h : Same SameAtom g g') : canonicalText printer g = canonicalText printer g' := by
  rw [canonicalText_rebuilt,canonicalText_rebuilt]
  refine congrArg print (normal_eq_of_same (f := printer.atomText) printer.atomText_of_same
    (fun hkeys hperm => ?_) hg hg' h)
  rw [rebuilt,rebuilt,sortFields_congr hkeys hperm]

/-- The text of two graphs decides whether they are equal up to the order of keys, unless they differ
in hidden parts only. -/
theorem text_decides_iff (printer : NumberPrinter) (g g' : Json) (hg : KeysDistinct g)
    (hg' : KeysDistinct g') :
    (canonicalText printer g = canonicalText printer g' ↔ Same SameAtom g g') ↔
      ¬HiddenDifference g g' := by
  have hshown := canonicalText_eq_iff printer hg hg'
  have hsame := canonicalText_of_same printer hg hg'
  unfold HiddenDifference
  tauto


/-! ## Graphs with a hidden difference -/

def one : Json := .leaf (.number 0x3FF0000000000000)

def text (s : String) : Json := .leaf (.string (ascii s))

/-- A request with `body` in its configuration. -/
def node (body : Json) : Json :=
  .obj [(ascii "id",text "a"),(ascii "type",text "http"),(ascii "config",.obj [(ascii "body",body)])]

/-- The graph of one request. -/
def graph (body : Json) : Json :=
  .obj [(ascii "version",one),(ascii "trigger",.obj [(ascii "type",text "manual")]),
    (ascii "entryNodeId",text "a"),(ascii "nodes",.arr [node body]),(ascii "edges",.arr [])]

lemma graph_distinct {body : Json} (h : KeysDistinct body) : KeysDistinct (graph body) := by
  have hone {k : Text} {v : Json} (hv : KeysDistinct v) : KeysDistinct (.obj [(k,v)]) :=
    .obj (List.nodup_singleton _) fun p hp => by
      obtain rfl := List.mem_singleton.mp hp
      exact hv
  have hnode : KeysDistinct (node body) := by
    refine .obj (show [ascii "id",ascii "type",ascii "config"].Nodup by decide) ?_
    simp only [List.mem_cons,List.not_mem_nil,or_false]
    rintro p (rfl | rfl | rfl)
    · exact .leaf _
    · exact .leaf _
    · exact hone h
  refine .obj (show [ascii "version",ascii "trigger",ascii "entryNodeId",ascii "nodes",
    ascii "edges"].Nodup by decide) ?_
  simp only [List.mem_cons,List.not_mem_nil,or_false]
  rintro p (rfl | rfl | rfl | rfl | rfl)
  · exact .leaf _
  · exact hone (.leaf _)
  · exact .leaf _
  · exact .arr fun v hv => List.mem_singleton.mp hv ▸ hnode
  · exact .arr fun v hv => absurd hv List.not_mem_nil

lemma graph_same {body body' : Json} (hd : KeysDistinct (graph body'))
    (h : Same SameAtom (graph body) (graph body')) : Same SameAtom body body' := by
  cases hd with | obj hkeys hfields =>
  have hnodes : Same SameAtom (.arr [node body]) (.arr [node body']) :=
    h.field hkeys (k := ascii "nodes") (by simp) (by simp)
  have hconfig : Same SameAtom (.obj [(ascii "body",body)]) (.obj [(ascii "body",body')]) :=
    Same.field hnodes.1 (show [ascii "id",ascii "type",ascii "config"].Nodup by decide)
      (k := ascii "config") (by simp) (by simp)
  exact hconfig.field (k := ascii "body") (List.nodup_singleton _) (by simp) (by simp)

lemma graph_of_same {body body' : Json} (h : Same SameAtom body body') :
    Same SameAtom (graph body) (graph body') := by
  have hconfig : Same SameAtom (.obj [(ascii "body",body)]) (.obj [(ascii "body",body')]) :=
    ⟨rfl,⟨_,.head _,h⟩,trivial⟩
  have hnode : Same SameAtom (node body) (node body') :=
    ⟨rfl,⟨_,.head _,rfl⟩,⟨_,.tail _ (.head _),rfl⟩,⟨_,.tail _ (.tail _ (.head _)),hconfig⟩,trivial⟩
  exact ⟨rfl,⟨_,.head _,.inl rfl⟩,⟨_,.tail _ (.head _),rfl,⟨_,.head _,rfl⟩,trivial⟩,
    ⟨_,.tail _ (.tail _ (.head _)),rfl⟩,⟨_,.tail _ (.tail _ (.tail _ (.head _))),hnode,trivial⟩,
    ⟨_,.tail _ (.tail _ (.tail _ (.tail _ (.head _)))),trivial⟩,trivial⟩

/-- A property of the name `__proto__`, as `JSON.parse` makes it. -/
def protoObject : Json := .obj [(protoKey,text "x")]

/-- What `JSON.parse` gives for `1e400`. -/
def infinity : Json := .leaf (.number 0x7FF0000000000000)

theorem text_decides_reordered :
    (canonicalText samplePrinter (graph (.obj [(ascii "b",one),(ascii "a",one)])) =
        canonicalText samplePrinter (graph (.obj [(ascii "a",one),(ascii "b",one)])) ↔
      Same SameAtom (graph (.obj [(ascii "b",one),(ascii "a",one)]))
        (graph (.obj [(ascii "a",one),(ascii "b",one)]))) := by
  have hdistinct {x y : Text} (h : x ≠ y) : KeysDistinct (.obj [(x,one),(y,one)] : Json) := by
    refine .obj (by simpa using h) fun p hp => ?_
    simp only [List.mem_cons,List.not_mem_nil,or_false] at hp
    rcases hp with rfl | rfl <;> exact .leaf _
  refine (text_decides_iff samplePrinter _ _ (graph_distinct (hdistinct (by decide)))
    (graph_distinct (hdistinct (by decide)))).mpr fun h => h.2 (graph_of_same ?_)
  exact ⟨rfl,⟨one,.tail _ (.head _),.inl rfl⟩,⟨one,.head _,.inl rfl⟩,trivial⟩

/-- Two graphs with a property more or less of that name, and two with an infinite number or `null`. -/
theorem hidden_differences :
    ¬(canonicalText samplePrinter (graph protoObject) = canonicalText samplePrinter (graph (.obj [])) ↔
      Same SameAtom (graph protoObject) (graph (.obj []))) ∧
    ¬(canonicalText samplePrinter (graph infinity) =
        canonicalText samplePrinter (graph (.leaf .null)) ↔
      Same SameAtom (graph infinity) (graph (.leaf .null))) := by
  constructor
  · intro h
    have hsame := h.mp rfl
    have hempty : KeysDistinct (.obj [] : Json) := .obj List.nodup_nil (List.forall_mem_nil _)
    have := graph_same (graph_distinct hempty) hsame
    exact absurd this.1 (by decide)
  · intro h
    have hsame := h.mp rfl
    have := graph_same (graph_distinct (.leaf _)) hsame
    cases this

end Linea.WorkflowHash
