import Mathlib.Algebra.GroupWithZero.Nat
import Mathlib.Data.List.Nodup
import Mathlib.Data.List.Pairwise
import Mathlib.Data.List.Perm.Subperm
import Mathlib.Logic.Function.Iterate
import Mathlib.Order.Nat

/-! The automatic layout of the builder: a search by levels from the entry, which gives every id of a
level a row, and a column of its own for the nodes that it does not reach. The ids of a level are
collected parent by parent, and an id is only marked when its level is placed. -/
namespace Linea.AutoLayout

structure RawNode where
  id : String
  deriving DecidableEq, Repr

structure RawEdge where
  source : String
  target : String
  deriving DecidableEq, Repr

structure Position where
  x : ℤ
  y : ℤ
  deriving DecidableEq, Repr

def levelWidth : ℤ := 280

def rowHeight : ℤ := 140

/-- `childrenByParent.get(id) ?? []`: what the id has edges to, in the order of the edges. -/
def children (edges : List RawEdge) (id : String) : List String :=
  (edges.filter fun edge => edge.source = id).map RawEdge.target

/-- The variables of the search. A position is only given to an id that has none. -/
structure Search where
  visited : List String := []
  positions : List (String × Position) := []
  queue : List String
  depth : ℕ := 0
  deriving DecidableEq, Repr

/-- The ids of a level from a row on, those that are visited left out. -/
def placeLevel (depth : ℕ) : ℕ → List String → List String → List (String × Position) →
    List String × List (String × Position)
  | _, [], visited, positions => (visited,positions)
  | row, id :: queue, visited, positions =>
    if id ∈ visited then placeLevel depth (row + 1) queue visited positions
    else placeLevel depth (row + 1) queue (id :: visited)
      (positions ++ [(id,⟨depth * levelWidth,row * rowHeight⟩)])

/-- One level: its ids are placed, and their children that are not visited make the next one. -/
def step (edges : List RawEdge) (s : Search) : Search :=
  let placed := placeLevel s.depth 0 s.queue s.visited s.positions
  { visited := placed.1
    positions := placed.2
    queue := s.queue.flatMap fun id => (children edges id).filter fun child => child ∉ placed.1
    depth := s.depth + 1 }

/-- The loop, `none` as long as the fuel does not suffice. -/
def search (edges : List RawEdge) : ℕ → Search → Option Search
  | 0, _ => none
  | fuel + 1, s => if s.queue = [] then some s else search edges fuel (step edges s)

def rootId (nodes : List RawNode) (entryNodeId : Option String) : Option String :=
  match entryNodeId with
  | some id => some id
  | none => nodes.head?.map RawNode.id

/-- The search before its first level; an empty id is none. -/
def start (root : Option String) : Search :=
  { queue := match root with
      | some id => if id = "" then [] else [id]
      | none => [] }

/-- The nodes that were not reached, in one column. -/
def placeStrays : ℕ → List RawNode → List (String × Position) → List (String × Position)
  | _, [], positions => positions
  | strayRow, node :: nodes, positions =>
    if node.id ∈ positions.map Prod.fst then placeStrays strayRow nodes positions
    else placeStrays (strayRow + 1) nodes
      (positions ++ [(node.id,⟨-levelWidth,strayRow * rowHeight⟩)])

def autoLayout (fuel : ℕ) (nodes : List RawNode) (edges : List RawEdge) (entryNodeId : Option String) :
    Option (List (String × Position)) :=
  (search edges fuel (start (rootId nodes entryNodeId))).map fun s => placeStrays 0 nodes s.positions

/-- The queue of a level. -/
def level (nodes : List RawNode) (edges : List RawEdge) (entryNodeId : Option String) (n : ℕ) :
    List String :=
  ((step edges)^[n] (start (rootId nodes entryNodeId))).queue

/-! ## Distances -/

section Distance
variable (edges : List RawEdge) (roots : List String)

/-- A way of the given number of edges from a root. -/
inductive Way : ℕ → String → Prop
  | root {id : String} (h : id ∈ roots) : Way 0 id
  | edge {n : ℕ} {edge : RawEdge} (h : edge ∈ edges) (hway : Way n edge.source) :
      Way (n + 1) edge.target

/-- The number of edges of the shortest ways. -/
def Distance (n : ℕ) (id : String) : Prop :=
  Way edges roots n id ∧ ∀ m < n, ¬ Way edges roots m id

variable {edges roots} {n : ℕ} {id : String}

lemma Distance.unique {m : ℕ} (h : Distance edges roots n id) (h' : Distance edges roots m id) :
    n = m := by
  rcases lt_trichotomy n m with hlt | heq | hgt
  · exact absurd h.1 (h'.2 n hlt)
  · exact heq
  · exact absurd h'.1 (h.2 m hgt)

lemma Way.distance (h : Way edges roots n id) : ∃ m ≤ n, Distance edges roots m id := by
  induction n using Nat.strong_induction_on with
  | _ n ih =>
    by_cases hshorter : ∃ m < n, Way edges roots m id
    · obtain ⟨m,hm,hway⟩ := hshorter
      obtain ⟨k,hk,hdistance⟩ := ih m hm hway
      exact ⟨k,by omega,hdistance⟩
    · push Not at hshorter
      exact ⟨n,le_refl n,h,hshorter⟩

lemma distance_zero : Distance edges roots 0 id ↔ id ∈ roots := by
  constructor
  · rintro ⟨hway,-⟩
    cases hway with
    | root h => exact h
  · intro h
    exact ⟨.root h,fun m hm => absurd hm (Nat.not_lt_zero m)⟩

/-- The next distance: one edge behind, and not nearer. -/
lemma distance_succ : Distance edges roots (n + 1) id ↔
    (∃ edge ∈ edges, Distance edges roots n edge.source ∧ edge.target = id) ∧
      ∀ m ≤ n, ¬ Distance edges roots m id := by
  constructor
  · rintro ⟨hway,hshortest⟩
    refine ⟨?_,fun m hm hdistance => hshortest m (by omega) hdistance.1⟩
    cases hway with
    | @edge _ edge hedge hway =>
      refine ⟨edge,hedge,⟨hway,fun m hm hway' => ?_⟩,rfl⟩
      exact hshortest (m + 1) (by omega) (.edge hedge hway')
  · rintro ⟨⟨edge,hedge,hsource,rfl⟩,hfar⟩
    refine ⟨.edge hedge hsource.1,fun m hm hway => ?_⟩
    obtain ⟨k,hk,hdistance⟩ := hway.distance
    exact hfar k (by omega) hdistance

/-- As many ids as a distance has edges are nearer than an id at that distance. -/
lemma Distance.nearer (h : Distance edges roots n id) : ∃ ids : List String, ids.Nodup ∧
    ids.length = n + 1 ∧ ∀ other ∈ ids, other ∈ roots ++ edges.map RawEdge.target ∧
      ∃ m ≤ n, Distance edges roots m other := by
  induction n generalizing id with
  | zero =>
    refine ⟨[id],List.nodup_singleton id,rfl,fun other hother => ?_⟩
    rw [List.mem_singleton.mp hother]
    exact ⟨List.mem_append_left _ (distance_zero.mp h),0,le_refl 0,h⟩
  | succ n ih =>
    obtain ⟨⟨edge,hedge,hsource,rfl⟩,hfar⟩ := distance_succ.mp h
    obtain ⟨ids,hnodup,hlength,hall⟩ := ih hsource
    refine ⟨edge.target :: ids,List.nodup_cons.mpr ⟨fun hmem => ?_,hnodup⟩,by simp [hlength],?_⟩
    · obtain ⟨-,m,hm,hdistance⟩ := hall _ hmem
      exact hfar m hm hdistance
    · intro other hother
      rcases List.mem_cons.mp hother with rfl | hmem
      · exact ⟨List.mem_append_right _ (List.mem_map_of_mem hedge),n + 1,le_refl _,h⟩
      · obtain ⟨hin,m,hm,hdistance⟩ := hall other hmem
        exact ⟨hin,m,by omega,hdistance⟩

/-- Distances are bounded by the number of ids there are. -/
lemma Distance.le (h : Distance edges roots n id) : n + 1 ≤ roots.length + edges.length := by
  obtain ⟨ids,hnodup,hlength,hall⟩ := h.nearer
  have hsub : ids ⊆ roots ++ edges.map RawEdge.target := fun other hother => (hall other hother).1
  have hle := (List.subperm_of_subset hnodup hsub).length_le
  rw [List.length_append,List.length_map] at hle
  omega

end Distance

/-! ## Placing -/

/-- Ids and positions are given out once. -/
structure Placed (positions : List (String × Position)) : Prop where
  ids : (positions.map Prod.fst).Nodup
  places : (positions.map Prod.snd).Nodup

lemma Placed.add {positions : List (String × Position)} {id : String} {p : Position}
    (h : Placed positions) (hid : id ∉ positions.map Prod.fst) (hp : p ∉ positions.map Prod.snd) :
    Placed (positions ++ [(id,p)]) := by
  constructor
  · rw [List.map_append,List.map_singleton]
    refine List.nodup_append.mpr ⟨h.ids,List.nodup_singleton id,?_⟩
    intro a ha b hb hab
    rw [hab,List.mem_singleton.mp hb] at ha
    exact hid ha
  · rw [List.map_append,List.map_singleton]
    refine List.nodup_append.mpr ⟨h.places,List.nodup_singleton p,?_⟩
    intro a ha b hb hab
    rw [hab,List.mem_singleton.mp hb] at ha
    exact hp ha

/-- Where a search has got to that places the given row of the given level next. -/
structure AtRow (depth row : ℕ) (visited : List String) (positions : List (String × Position)) :
    Prop where
  placed : Placed positions
  visited : ∀ id, id ∈ visited ↔ id ∈ positions.map Prod.fst
  before : ∀ p ∈ positions.map Prod.snd, 0 ≤ p.x ∧
    (p.x < depth * levelWidth ∨ p.x = depth * levelWidth ∧ p.y < row * rowHeight)

lemma AtRow.skip {depth row : ℕ} {visited : List String} {positions : List (String × Position)}
    (h : AtRow depth row visited positions) : AtRow depth (row + 1) visited positions := by
  refine ⟨h.placed,h.visited,fun p hp => ?_⟩
  obtain ⟨hpos,hbefore⟩ := h.before p hp
  refine ⟨hpos,hbefore.imp id fun hrow => ⟨hrow.1,?_⟩⟩
  unfold rowHeight at hrow ⊢
  omega

lemma AtRow.place {depth row : ℕ} {visited : List String} {positions : List (String × Position)}
    {id : String} (h : AtRow depth row visited positions) (hid : id ∉ visited) :
    AtRow depth (row + 1) (id :: visited)
      (positions ++ [(id,⟨depth * levelWidth,row * rowHeight⟩)]) := by
  have hnew : (⟨depth * levelWidth,row * rowHeight⟩ : Position) ∉ positions.map Prod.snd := by
    intro hmem
    obtain ⟨-,hlt | ⟨-,hlt⟩⟩ := h.before _ hmem
    · exact Int.lt_irrefl _ hlt
    · exact Int.lt_irrefl _ hlt
  refine ⟨h.placed.add (fun hmem => hid ((h.visited id).mpr hmem)) hnew,fun other => ?_,fun p hp => ?_⟩
  · rw [List.mem_cons,List.map_append,List.mem_append,h.visited other,or_comm]
    simp
  · rw [List.map_append,List.mem_append] at hp
    rcases hp with hp | hp
    · exact h.skip.before p hp
    · obtain rfl := List.mem_singleton.mp hp
      unfold levelWidth rowHeight
      dsimp only
      omega

/-- A level is placed id by id. -/
lemma AtRow.placeLevel {depth : ℕ} (queue : List String) {row : ℕ} {visited : List String}
    {positions : List (String × Position)} (h : AtRow depth row visited positions) :
    (∃ end_, AtRow depth end_ (placeLevel depth row queue visited positions).1
      (placeLevel depth row queue visited positions).2) ∧
    ∀ id, id ∈ (AutoLayout.placeLevel depth row queue visited positions).1 ↔
      id ∈ visited ∨ id ∈ queue := by
  induction queue generalizing row visited positions with
  | nil => exact ⟨⟨row,h⟩,fun id => by simp [AutoLayout.placeLevel]⟩
  | cons first queue ih =>
    rw [AutoLayout.placeLevel]
    split
    · next hvisited =>
      obtain ⟨hplaced,hmem⟩ := ih h.skip
      refine ⟨hplaced,fun id => ?_⟩
      rw [hmem id,List.mem_cons]
      constructor
      · exact Or.imp_right .inr
      · rintro (h | rfl | h)
        · exact .inl h
        · exact .inl hvisited
        · exact .inr h
    · next hnew =>
      obtain ⟨hplaced,hmem⟩ := ih (h.place hnew)
      refine ⟨hplaced,fun id => ?_⟩
      rw [hmem id,List.mem_cons,List.mem_cons,or_assoc,or_left_comm]

/-! ## Levels -/

section Levels
variable {edges : List RawEdge} {roots : List String} {n : ℕ}

/-- What holds before a level is placed: the nearer ids are visited and have their positions, and the
queue has the ids of the distance of the level. -/
structure Inv (edges : List RawEdge) (roots : List String) (n : ℕ) (s : Search) : Prop where
  depth : s.depth = n
  row : AtRow n 0 s.visited s.positions
  visited : ∀ id, id ∈ s.visited ↔ ∃ m < n, Distance edges roots m id
  queue : ∀ id, id ∈ s.queue ↔ Distance edges roots n id

lemma mem_children {id child : String} :
    child ∈ children edges id ↔ ∃ edge ∈ edges, edge.source = id ∧ edge.target = child := by
  simp only [children,List.mem_map,List.mem_filter,decide_eq_true_eq,and_assoc]

/-- After a level, the ids up to its distance are visited. -/
lemma Inv.visited_next {s : Search} (h : Inv edges roots n s) (id : String) :
    id ∈ (step edges s).visited ↔ ∃ m < n + 1, Distance edges roots m id := by
  have hplaced := (h.depth ▸ h.row : AtRow s.depth 0 s.visited s.positions).placeLevel s.queue |>.2 id
  change id ∈ (placeLevel s.depth 0 s.queue s.visited s.positions).1 ↔ _
  rw [hplaced,h.visited,h.queue]
  constructor
  · rintro (⟨m,hm,hdistance⟩ | hdistance)
    · exact ⟨m,by omega,hdistance⟩
    · exact ⟨n,by omega,hdistance⟩
  · rintro ⟨m,hm,hdistance⟩
    rcases Nat.lt_or_ge m n with hlt | hge
    · exact .inl ⟨m,hlt,hdistance⟩
    · obtain rfl : m = n := by omega
      exact .inr hdistance

lemma AtRow.next {depth row : ℕ} {visited : List String} {positions : List (String × Position)}
    (h : AtRow depth row visited positions) : AtRow (depth + 1) 0 visited positions := by
  refine ⟨h.placed,h.visited,fun p hp => ?_⟩
  obtain ⟨hpos,hbefore⟩ := h.before p hp
  refine ⟨hpos,.inl ?_⟩
  unfold levelWidth at hbefore ⊢
  omega

lemma Inv.step {s : Search} (h : Inv edges roots n s) : Inv edges roots (n + 1) (step edges s) := by
  have hrow : AtRow s.depth 0 s.visited s.positions := h.depth ▸ h.row
  obtain ⟨⟨end_,hplaced⟩,-⟩ := hrow.placeLevel s.queue
  have hvisited := h.visited_next
  refine ⟨congrArg (· + 1) h.depth,?_,hvisited,fun id => ?_⟩
  · rw [h.depth] at hplaced
    have hnext := hplaced.next
    rw [← h.depth] at hnext ⊢
    exact hnext
  · change id ∈ s.queue.flatMap (fun id => (children edges id).filter fun child =>
      child ∉ (AutoLayout.step edges s).visited) ↔ _
    simp only [List.mem_flatMap,List.mem_filter,decide_eq_true_eq,hvisited,distance_succ,mem_children]
    constructor
    · rintro ⟨parent,hparent,⟨edge,hedge,rfl,rfl⟩,hnew⟩
      refine ⟨⟨edge,hedge,(h.queue _).mp hparent,rfl⟩,fun m hm hdistance => hnew ⟨m,by omega,hdistance⟩⟩
    · rintro ⟨⟨edge,hedge,hsource,rfl⟩,hfar⟩
      refine ⟨edge.source,(h.queue _).mpr hsource,⟨edge,hedge,rfl,rfl⟩,?_⟩
      rintro ⟨m,hm,hdistance⟩
      exact hfar m (by omega) hdistance

/-- Two edges lead on to the same id from ids that are equally near to the root. -/
def Meet (edges : List RawEdge) (roots : List String) (e f : RawEdge) : Prop :=
  e.target = f.target ∧ ∃ n, Distance edges roots n e.source ∧ Distance edges roots n f.source ∧
    Distance edges roots (n + 1) e.target

/-- Which of the edges comes first plays no role. -/
instance : Std.Symm fun e f => ¬ Meet edges roots e f where
  symm _ _ hnot := by
    rintro ⟨htarget,n,he,hf,hnext⟩
    exact hnot ⟨htarget.symm,n,hf,he,htarget ▸ hnext⟩

/-- A level whose ids are distinct leads to one whose ids are distinct unless edges meet. -/
lemma Inv.queue_nodup {s : Search} (h : Inv edges roots n s) (hqueue : s.queue.Nodup)
    (hmeet : edges.Pairwise fun e f => ¬ Meet edges roots e f) :
    (AutoLayout.step edges s).queue.Nodup := by
  have hnext := h.step
  change (s.queue.flatMap fun id => (children edges id).filter fun child =>
      child ∉ (AutoLayout.step edges s).visited).Nodup
  -- An id that is collected is at the next distance.
  have hchild : ∀ parent ∈ s.queue, ∀ child ∈ (children edges parent).filter (fun child =>
      child ∉ (AutoLayout.step edges s).visited), Distance edges roots (n + 1) child := by
    intro parent hparent child hin
    rw [← hnext.queue]
    exact List.mem_flatMap.mpr ⟨parent,hparent,hin⟩
  rw [List.nodup_flatMap]
  constructor
  · intro parent hparent
    have hdistance := (h.queue parent).mp hparent
    unfold children
    rw [List.filter_map]
    refine List.pairwise_map.mpr (((hmeet.sublist List.filter_sublist).sublist
      List.filter_sublist).imp_of_mem fun {e f} he hf hnot htarget => hnot ?_)
    obtain ⟨hein,henew⟩ := List.mem_filter.mp he
    obtain ⟨-,hesource⟩ := List.mem_filter.mp hein
    obtain ⟨-,hfsource⟩ := List.mem_filter.mp (List.mem_filter.mp hf).1
    rw [decide_eq_true_eq] at hesource hfsource
    refine ⟨htarget,n,hesource ▸ hdistance,hfsource ▸ hdistance,hchild parent hparent _ ?_⟩
    exact List.mem_filter.mpr ⟨List.mem_map_of_mem hein,henew⟩
  · refine hqueue.imp_of_mem fun {p q} hp hq hne child hchildp hchildq => ?_
    obtain ⟨e,he,hesource,hetarget⟩ := mem_children.mp (List.mem_filter.mp hchildp).1
    obtain ⟨f,hf,hfsource,hftarget⟩ := mem_children.mp (List.mem_filter.mp hchildq).1
    have hall := hmeet.forall he hf fun hef => hne (by rw [← hesource,← hfsource,hef])
    refine hall ⟨hetarget.trans hftarget.symm,n,?_,?_,?_⟩
    · exact hesource ▸ (h.queue p).mp hp
    · exact hfsource ▸ (h.queue q).mp hq
    · exact hetarget ▸ hchild p hp child hchildp

/-- Edges that meet make an id appear twice in the next level. -/
lemma Inv.meet_dup {s : Search} (h : Inv edges roots n s)
    (hnodup : (AutoLayout.step edges s).queue.Nodup) {e f : RawEdge} (hsub : [e,f].Sublist edges)
    (htarget : e.target = f.target) (he : Distance edges roots n e.source)
    (hf : Distance edges roots n f.source) (hnew : Distance edges roots (n + 1) e.target) : False := by
  have hnext := h.step
  have hunvisited : e.target ∉ (AutoLayout.step edges s).visited := by
    rw [hnext.visited]
    rintro ⟨m,hm,hdistance⟩
    have := hdistance.unique hnew
    omega
  change (s.queue.flatMap fun id => (children edges id).filter fun child =>
      child ∉ (AutoLayout.step edges s).visited).Nodup at hnodup
  rw [List.nodup_flatMap] at hnodup
  obtain ⟨hinner,houter⟩ := hnodup
  have hemem : e ∈ edges := hsub.subset List.mem_cons_self
  have hfmem : f ∈ edges := hsub.subset (List.mem_cons_of_mem e List.mem_cons_self)
  have hin : ∀ g ∈ edges, g.target = e.target → g.source ∈ s.queue →
      e.target ∈ (children edges g.source).filter fun child =>
        child ∉ (AutoLayout.step edges s).visited := by
    intro g hg hgtarget _
    exact List.mem_filter.mpr ⟨mem_children.mpr ⟨g,hg,rfl,hgtarget⟩,decide_eq_true hunvisited⟩
  have heq := (h.queue _).mpr he
  have hfq := (h.queue _).mpr hf
  by_cases hsource : e.source = f.source
  · have hpair : [e.target,f.target].Sublist (children edges e.source) := by
      have hfiltered : ([e,f].filter fun edge => edge.source = e.source) = [e,f] := by
        simp [hsource]
      have hmapped := (hsub.filter fun edge => decide (edge.source = e.source)).map RawEdge.target
      rw [hfiltered] at hmapped
      exact hmapped
    have hkept := hpair.filter fun child => decide (child ∉ (AutoLayout.step edges s).visited)
    have htwo : ([e.target,f.target].filter fun child =>
        decide (child ∉ (AutoLayout.step edges s).visited)) = [e.target,e.target] := by
      rw [← htarget]
      simp [hunvisited]
    rw [htwo] at hkept
    have hnodup := (hinner e.source heq).sublist hkept
    simp at hnodup
  · have hsymm : Std.Symm (Function.onFun List.Disjoint fun id =>
        (children edges id).filter fun child => child ∉ (AutoLayout.step edges s).visited) :=
      ⟨fun _ _ hxy _ hy hx => hxy hx hy⟩
    exact houter.forall heq hfq hsource (hin e hemem rfl heq) (hin f hfmem htarget.symm hfq)

end Levels

/-! ## The search -/

section Search
variable {edges : List RawEdge}

/-- The search is the levels up to the first that is empty. -/
lemma search_eq {n fuel : ℕ} {s : Search} (hlevels : ∀ m < n, ((step edges)^[m] s).queue ≠ [])
    (hend : ((step edges)^[n] s).queue = []) (hfuel : n < fuel) :
    search edges fuel s = some ((step edges)^[n] s) := by
  induction n generalizing s fuel with
  | zero =>
    obtain ⟨rest,rfl⟩ : ∃ rest, fuel = rest + 1 := ⟨fuel - 1,by omega⟩
    exact if_pos hend
  | succ n ih =>
    obtain ⟨rest,rfl⟩ : ∃ rest, fuel = rest + 1 := ⟨fuel - 1,by omega⟩
    have hfirst : s.queue ≠ [] := hlevels 0 (Nat.zero_lt_succ n)
    rw [search,if_neg hfirst,Function.iterate_succ_apply]
    refine ih (fun m hm => ?_) ?_ (by omega)
    · rw [← Function.iterate_succ_apply]
      exact hlevels (m + 1) (by omega)
    · rw [← Function.iterate_succ_apply]
      exact hend

variable (edges) (root : Option String)

lemma start_inv : Inv edges (start root).queue 0 (start root) := by
  refine ⟨rfl,⟨⟨List.nodup_nil,List.nodup_nil⟩,fun id => by simp [start],fun p hp => ?_⟩,fun id => ?_,
    fun id => distance_zero.symm⟩
  · simp [start] at hp
  · simp [start]

lemma start_nodup : (start root).queue.Nodup := by
  unfold start
  split
  · split
    · exact List.nodup_nil
    · exact List.nodup_singleton _
  · exact List.nodup_nil

lemma start_length : (start root).queue.length ≤ 1 := by
  unfold start
  split
  · split
    · exact Nat.zero_le 1
    · exact le_refl 1
  · exact Nat.zero_le 1

lemma level_inv (n : ℕ) : Inv edges (start root).queue n ((step edges)^[n] (start root)) := by
  induction n with
  | zero => exact start_inv edges root
  | succ n ih =>
    rw [Function.iterate_succ_apply']
    exact ih.step

/-- No level has an id twice exactly if no edges meet. -/
lemma levels_nodup_iff : (∀ n, ((step edges)^[n] (start root)).queue.Nodup) ↔
    edges.Pairwise fun e f => ¬ Meet edges (start root).queue e f := by
  constructor
  · intro hnodup
    rw [List.pairwise_iff_forall_sublist]
    rintro e f hsub ⟨htarget,n,he,hf,hnext⟩
    refine (level_inv edges root n).meet_dup ?_ hsub htarget he hf hnext
    rw [← Function.iterate_succ_apply' (step edges)]
    exact hnodup (n + 1)
  · intro hmeet n
    induction n with
    | zero => exact start_nodup root
    | succ n ih =>
      rw [Function.iterate_succ_apply']
      exact (level_inv edges root n).queue_nodup ih hmeet

/-- The loop ends, after at most one level for each edge and one for the root. -/
lemma search_ends : ∃ n, search edges (edges.length + 2) (start root) =
    some ((step edges)^[n] (start root)) := by
  have hempty : ∃ n, ((step edges)^[n] (start root)).queue = [] ∧ n < edges.length + 2 := by
    refine ⟨edges.length + 1,List.eq_nil_iff_forall_not_mem.mpr fun id hid => ?_,Nat.lt_succ_self _⟩
    have hle := (((level_inv edges root _).queue id).mp hid).le
    have hroot := start_length root
    omega
  classical
  refine ⟨Nat.find hempty,search_eq (fun m hm hqueue => ?_) (Nat.find_spec hempty).1
    (Nat.find_spec hempty).2⟩
  exact Nat.find_min hempty hm ⟨hqueue,hm.trans (Nat.find_spec hempty).2⟩

/-- What the queues hold together, against the ids that there are ways to. -/
lemma queues_le_iff (hnodup : ∀ n, ((step edges)^[n] (start root)).queue.Nodup) (bound : ℕ) :
    (∀ n, ((List.range n).map fun m => ((step edges)^[m] (start root)).queue.length).sum ≤ bound) ↔
      ∀ ids : List String, ids.Nodup → (∀ id ∈ ids, ∃ n, Way edges (start root).queue n id) →
        ids.length ≤ bound := by
  constructor
  · intro hqueues ids hids hways
    have hlevel : ∃ n, ∀ id ∈ ids, ∃ m < n, Distance edges (start root).queue m id := by
      refine ⟨edges.length + 1,fun id hid => ?_⟩
      obtain ⟨n,hway⟩ := hways id hid
      obtain ⟨m,-,hdistance⟩ := hway.distance
      have hle := hdistance.le
      have hroot := start_length root
      exact ⟨m,by omega,hdistance⟩
    obtain ⟨n,hlevel⟩ := hlevel
    have hsub : ids ⊆ (List.range n).flatMap fun m => ((step edges)^[m] (start root)).queue := by
      intro id hid
      obtain ⟨m,hm,hdistance⟩ := hlevel id hid
      exact List.mem_flatMap.mpr ⟨m,List.mem_range.mpr hm,((level_inv edges root m).queue id).mpr hdistance⟩
    have hle := (List.subperm_of_subset hids hsub).length_le
    rw [List.length_flatMap] at hle
    exact hle.trans (hqueues n)
  · intro hways n
    rw [← List.length_flatMap]
    refine hways _ (List.nodup_flatMap.mpr ⟨fun m _ => hnodup m,?_⟩) fun id hid => ?_
    · refine List.nodup_range.imp fun {m k} hne id hm hk => hne ?_
      exact (((level_inv edges root m).queue id).mp hm).unique (((level_inv edges root k).queue id).mp hk)
    · obtain ⟨m,-,hm⟩ := List.mem_flatMap.mp hid
      exact ⟨m,(((level_inv edges root m).queue id).mp hm).1⟩

end Search

/-! ## Strays -/

/-- The column of the strays up to a row; all other positions are to the right of it. -/
structure AtStray (row : ℕ) (positions : List (String × Position)) : Prop where
  placed : Placed positions
  before : ∀ p ∈ positions.map Prod.snd, 0 ≤ p.x ∨ p.y < row * rowHeight

lemma AtStray.placeStrays (nodes : List RawNode) {row : ℕ} {positions : List (String × Position)}
    (h : AtStray row positions) : Placed (placeStrays row nodes positions) ∧
      ∀ id, id ∈ (AutoLayout.placeStrays row nodes positions).map Prod.fst ↔
        id ∈ positions.map Prod.fst ∨ id ∈ nodes.map RawNode.id := by
  induction nodes generalizing row positions with
  | nil => exact ⟨h.placed,fun id => by simp [AutoLayout.placeStrays]⟩
  | cons node nodes ih =>
    rw [AutoLayout.placeStrays]
    split
    · next hhas =>
      obtain ⟨hplaced,hmem⟩ := ih h
      refine ⟨hplaced,fun id => ?_⟩
      rw [hmem id,List.map_cons,List.mem_cons]
      constructor
      · exact Or.imp_right .inr
      · rintro (h | rfl | h)
        · exact .inl h
        · exact .inl hhas
        · exact .inr h
    · next hnew =>
      have hfree : (⟨-levelWidth,row * rowHeight⟩ : Position) ∉ positions.map Prod.snd := by
        intro hmem
        have hbefore := h.before _ hmem
        unfold levelWidth at hbefore
        simp at hbefore
      have hnext : AtStray (row + 1) (positions ++ [(node.id,⟨-levelWidth,row * rowHeight⟩)]) := by
        refine ⟨h.placed.add hnew hfree,fun p hp => ?_⟩
        rw [List.map_append,List.mem_append] at hp
        unfold rowHeight
        rcases hp with hp | hp
        · have hbefore := h.before p hp
          unfold rowHeight at hbefore
          omega
        · obtain rfl := List.mem_singleton.mp hp
          dsimp only
          unfold rowHeight
          omega
      obtain ⟨hplaced,hmem⟩ := ih hnext
      refine ⟨hplaced,fun id => ?_⟩
      rw [hmem id,List.map_append,List.mem_append,List.map_cons,List.mem_cons,or_assoc]
      simp

/-! ## The layout -/

section Layout
variable (nodes : List RawNode) (edges : List RawEdge) (entryNodeId : Option String)

/-- Every graph gets a layout, with a position for each node and no position twice. -/
lemma layout_placed : ∃ positions, autoLayout (edges.length + 2) nodes edges entryNodeId = some positions ∧
    Placed positions ∧ ∀ node ∈ nodes, node.id ∈ positions.map Prod.fst := by
  obtain ⟨n,hsearch⟩ := search_ends edges (rootId nodes entryNodeId)
  have hinv := level_inv edges (rootId nodes entryNodeId) n
  have hstray : AtStray 0 ((step edges)^[n] (start (rootId nodes entryNodeId))).positions :=
    ⟨hinv.row.placed,fun p hp => .inl (hinv.row.before p hp).1⟩
  obtain ⟨hplaced,hmem⟩ := hstray.placeStrays nodes
  refine ⟨_,by rw [autoLayout,hsearch,Option.map_some],hplaced,fun node hnode => ?_⟩
  exact (hmem node.id).mpr (.inr (List.mem_map_of_mem hnode))

/-- Every node has exactly one position, and no two nodes have the same one. -/
def LaidOut (positions : List (String × Position)) : Prop :=
  (∀ node ∈ nodes, ∃! p, (node.id,p) ∈ positions) ∧
    ∀ node ∈ nodes, ∀ other ∈ nodes, ∀ p, (node.id,p) ∈ positions → (other.id,p) ∈ positions →
      node = other

/-- The layout ends and places every node, whatever the edges. Its levels are without repetition, and
together no longer than the list of the nodes, exactly if no two edges lead to the same id from ids of
the same distance, and there are ways to no more ids than there are nodes. -/
theorem layout_iff (hids : (nodes.map RawNode.id).Nodup) :
    ((∃ fuel positions, autoLayout fuel nodes edges entryNodeId = some positions ∧
        LaidOut nodes positions) ∧
      (∀ n, (level nodes edges entryNodeId n).Nodup) ∧
      ∀ n, ((List.range n).map fun m => (level nodes edges entryNodeId m).length).sum ≤ nodes.length) ↔
    (edges.Pairwise fun e f => ¬ Meet edges (start (rootId nodes entryNodeId)).queue e f) ∧
      ∀ ids : List String, ids.Nodup →
        (∀ id ∈ ids, ∃ n, Way edges (start (rootId nodes entryNodeId)).queue n id) →
          ids.length ≤ nodes.length := by
  have hlaid : ∃ fuel positions, autoLayout fuel nodes edges entryNodeId = some positions ∧
      LaidOut nodes positions := by
    obtain ⟨positions,hlayout,hplaced,hall⟩ := layout_placed nodes edges entryNodeId
    refine ⟨_,positions,hlayout,fun node hnode => ?_,fun node hnode other hother p hp hq => ?_⟩
    · obtain ⟨⟨id,p⟩,hmem,rfl⟩ := List.mem_map.mp (hall node hnode)
      refine ⟨p,hmem,fun q hq => ?_⟩
      exact congrArg Prod.snd (List.inj_on_of_nodup_map hplaced.ids hq hmem rfl)
    · have hpair := List.inj_on_of_nodup_map hplaced.places hp hq rfl
      exact List.inj_on_of_nodup_map hids hnode hother (congrArg Prod.fst hpair)
  have hlevels := levels_nodup_iff edges (rootId nodes entryNodeId)
  unfold level
  constructor
  · rintro ⟨-,hnodup,hqueues⟩
    exact ⟨hlevels.mp hnodup,(queues_le_iff edges _ hnodup _).mp hqueues⟩
  · rintro ⟨hmeet,hways⟩
    have hnodup := hlevels.mpr hmeet
    exact ⟨hlaid,hnodup,(queues_le_iff edges _ hnodup _).mpr hways⟩

end Layout

def tree : List RawEdge := [⟨"a","b"⟩,⟨"a","c"⟩]

lemma tree_way {roots : List String} {n : ℕ} {id : String} (h : Way tree roots n id) :
    id ∈ roots ∨ id = "b" ∨ id = "c" := by
  cases h with
  | root h => exact .inl h
  | edge h _ =>
    simp only [tree,List.mem_cons,List.not_mem_nil,or_false] at h
    rcases h with rfl | rfl
    · exact .inr (.inl rfl)
    · exact .inr (.inr rfl)

/-- The second level of a tree. -/
theorem tree_levels : (level [⟨"a"⟩,⟨"b"⟩,⟨"c"⟩] tree none 1).Nodup := by
  refine ((layout_iff [⟨"a"⟩,⟨"b"⟩,⟨"c"⟩] tree none (by decide)).mpr ⟨?_,fun ids hids hways => ?_⟩).2.1 1
  · have htargets : tree.Pairwise fun e f => e.target ≠ f.target := by decide
    exact htargets.imp fun hne hmeet => hne hmeet.1
  · have hsub : ids ⊆ ["a","b","c"] := by
      intro id hid
      obtain ⟨n,hway⟩ := hways id hid
      have hmem := tree_way hway
      simpa [start,rootId] using hmem
    exact (List.subperm_of_subset hids hsub).length_le

def diamond : List RawEdge := [⟨"a","b"⟩,⟨"a","c"⟩,⟨"b","d"⟩,⟨"c","d"⟩]

/-- A node with two parents is twice in its level. -/
theorem diamond_twice :
    level [⟨"a"⟩,⟨"b"⟩,⟨"c"⟩,⟨"d"⟩] diamond none 2 = ["d","d"] ∧
    ¬ (level [⟨"a"⟩,⟨"b"⟩,⟨"c"⟩,⟨"d"⟩] diamond none 2).Nodup := by
  constructor
  · rfl
  · decide

end Linea.AutoLayout
