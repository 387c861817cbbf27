import SelfTraining.Route.LoadedRoads
import SelfTraining.Route.RoutePlanner
import SelfTraining.Lib.Lookup

/-!
The lookups by number in a constructed map, none of which the source checks.

Here a lookup outside its vector has no value, so a function that finishes has looked up
nothing that is not there. On a map whose numbers are in range all of them finish, but for
`FindClosestNode`: its `closest_idx` holds what was in memory until a node is found to be
nearer than `numeric_limits<float>::max()`, and it is looked up in any case.
-/

namespace SelfTraining.Route

open SelfTraining.Order SelfTraining.Lookup

variable {K F : Type*}

/-! ### `RouteModel` -/

/-- A node of a `RouteModel`, as `Node(counter, this, node)` makes it. -/
structure RouteNode (K : Type*) extends Node K where
  index : ℕ

/-- The loop of the constructor. -/
def makeNodes : ℕ → List (Node K) → List (RouteNode K)
  | _, [] => []
  | counter, node :: nodes => ⟨node, counter⟩ :: makeNodes (counter + 1) nodes

def sNodes (m : Model K) : List (RouteNode K) := makeNodes 0 m.nodes

lemma getElem?_makeNodes (nodes : List (Node K)) (counter i : ℕ) :
    (makeNodes counter nodes)[i]? = nodes[i]?.map fun node => ⟨node, counter + i⟩ := by
  induction nodes generalizing counter i with
  | nil => rfl
  | cons node nodes ih =>
    cases i with
    | zero => rfl
    | succ i =>
      rw [makeNodes, List.getElem?_cons_succ, List.getElem?_cons_succ, ih]
      simp only [Nat.add_assoc, Nat.add_comm 1 i]

lemma getElem?_sNodes (m : Model K) (i : ℕ) :
    (sNodes m)[i]? = m.nodes[i]?.map fun node => ⟨node, i⟩ := by
  rw [sNodes, getElem?_makeNodes, Nat.zero_add]

lemma length_sNodes (m : Model K) : (sNodes m).length = m.nodes.length := by
  have hlen : ∀ (nodes : List (Node K)) (counter : ℕ),
      (makeNodes counter nodes).length = nodes.length := by
    intro nodes
    induction nodes with
    | nil => exact fun _ => rfl
    | cons node nodes ih => exact fun counter => congrArg Nat.succ (ih (counter + 1))
  exact hlen m.nodes 0

/-- The turn of `CreateNodeToRoadHashmap` for a road, with its lookup. -/
def pushRoadNodes (m : Model K) (table : ℕ → List Road) (r : Road) : Option (ℕ → List Road) :=
  if r.type ≠ .footway then
    m.ways[r.way]?.map fun way => way.nodes.foldl (pushRoad r) table
  else some table

def nodeToRoad (m : Model K) : Option (ℕ → List Road) :=
  m.roads.foldlM (pushRoadNodes m) fun _ => []

section FindNeighbor

variable (distance : Node K → Node K → F) (isZero : F → Bool) (less : F → F → Bool)
  (visited : ℕ → Bool)

/-- One turn of the loop of `FindNeighbor`. -/
def neighborStep (m : Model K) (this : Node K) (closest : Option (RouteNode K)) (i : ℕ) :
    Option (Option (RouteNode K)) :=
  (sNodes m)[i]?.map fun node =>
    if !isZero (distance this node.toNode) && !visited i then
      match closest with
      | none => some node
      | some c =>
        if less (distance this node.toNode) (distance this c.toNode) then some node else some c
    else closest

def findNeighborIn (m : Model K) (this : Node K) (nodeIndices : List ℕ) :
    Option (Option (RouteNode K)) :=
  nodeIndices.foldlM (neighborStep distance isZero less visited m this) none

/-- The lookups of `FindNeighbors`: the roads of the node, and their ways. -/
def findNeighborsIn (m : Model K) (this : RouteNode K) : Option (List (Option (RouteNode K))) :=
  (nodeToRoad m).bind fun table => (table this.index).mapM fun road =>
    m.ways[road.way]?.bind fun way =>
      findNeighborIn distance isZero less visited m this.toNode way.nodes

end FindNeighbor

/-! ### `FindClosestNode` -/

section FindClosestNode

variable (a : Arithmetic K F) (m : Model K) (input : Node K)

/-- One turn of the inner loop; the state is `closest_idx` and `min_dist`. -/
def closestStep (st : ℤ × F) (i : ℕ) : Option (ℤ × F) :=
  (sNodes m)[i]?.map fun node =>
    if a.less (a.distance input node.toNode) st.2 then
      ((i : ℤ), a.distance input node.toNode)
    else st

/-- One turn of the loop over the roads. -/
def closestOnRoad (st : ℤ × F) (r : Road) : Option (ℤ × F) :=
  if r.type ≠ .footway then
    m.ways[r.way]?.bind fun way => way.nodes.foldlM (closestStep a m input) st
  else some st

/-- `FindClosestNode`, where `closest_idx` first holds `garbage`. -/
def findClosestNode (garbage : ℤ) : Option (RouteNode K) :=
  (m.roads.foldlM (closestOnRoad a m input) (garbage, a.floatMax)).bind fun st =>
    elementAt (sNodes m) st.1

end FindClosestNode

/-! ### `Render` -/

/-- The points of a path, from `front` on; an empty way has none. -/
def pathFromWay (nodes : List (Node K)) (way : Way) : Option (List (Node K)) :=
  way.nodes.mapM fun i => nodes[i]?

/-- The figures of a path; an empty way makes none. -/
def pathFromMP (m : MapModel K) (mp : Multipolygon) : Option (List (List (Node K))) :=
  ((mp.outer ++ mp.inner).mapM fun i => (elementAt m.ways i).bind (pathFromWay m.nodes)).map
    fun figures => figures.filter fun figure => !figure.isEmpty

/-- The path of a road or a railway, `PathFromWay(ways[way])`. -/
def pathOf (m : MapModel K) (way : ℕ) : Option (List (Node K)) :=
  m.ways[way]?.bind (pathFromWay m.nodes)

/-! ### In range -/

lemma RouteModel.roadsInRange (m : RouteModel K) : RoadsInRange m.toModel :=
  fun r hr => ⟨m.roads_in_range r hr, fun _ => m.lt_of_mem⟩

section InRange

variable {m : Model K} (h : RoadsInRange m)

include h

lemma RoadsInRange.getElem?_way {r : Road} (hr : r ∈ m.roads) :
    m.ways[r.way]? = some ⟨m.wayNodes r.way⟩ := by
  have hlt := (h r hr).1
  rw [Model.wayNodes, List.getD_eq_getElem _ _ hlt, List.getElem?_eq_getElem hlt]

lemma RoadsInRange.exists_node {r : Road} (hr : r ∈ m.roads) {i : ℕ}
    (hi : i ∈ m.wayNodes r.way) : ∃ node, (sNodes m)[i]? = some node := by
  have hnode := List.getElem?_eq_getElem ((h r hr).2 i hi)
  exact ⟨⟨_, i⟩, by rw [getElem?_sNodes, hnode]; rfl⟩

/-- The table of the constructor is the one that the searches read. -/
theorem nodeToRoad_eq : nodeToRoad m = some (createNodeToRoadHashmap m) := by
  refine foldlM_eq_some (fun table r hr => ?_) _
  unfold pushRoadNodes pushNodes
  rw [h.getElem?_way hr]
  split_ifs <;> rfl

section FindNeighbor

variable {distance : Node K → Node K → F} {isZero : F → Bool} {less : F → F → Bool}
  {visited : ℕ → Bool}

lemma findNeighborIn_isSome (this : Node K) {r : Road} (hr : r ∈ m.roads) :
    (findNeighborIn distance isZero less visited m this (m.wayNodes r.way)).isSome := by
  refine foldlM_isSome (fun closest i hi => ?_) none
  obtain ⟨node, hnode⟩ := h.exists_node hr hi
  rw [neighborStep, hnode]
  rfl

lemma findNeighborsIn_isSome (this : RouteNode K) :
    (findNeighborsIn distance isZero less visited m this).isSome := by
  rw [findNeighborsIn, nodeToRoad_eq h]
  refine mapM_isSome fun r hr => ?_
  have hroad := ((mem_nodeToRoad m this.index r).mp hr).1
  rw [h.getElem?_way hroad]
  exact findNeighborIn_isSome h this.toNode hroad

end FindNeighbor

end InRange

section Exact

variable {K : Type*} [CommRing K] [LinearOrder K] [IsStrictOrderedRing K]
  (p : RoutePlanner K) (s : Search K) (c w : ℕ)

/-- `FindNeighbor` with its lookups, over exact numbers. -/
def findNeighborExact (nodeIndices : List ℕ) : Option (Option (RouteNode K)) :=
  findNeighborIn p.metric.dist (fun d => decide (d = 0)) (fun d d' => decide (d < d'))
    (fun i => (s.sNodes i).visited) p.model.toModel (p.pos c) nodeIndices

lemma neighborStep_exact {w i : ℕ} (hi : i ∈ p.model.wayNodes w) (best : Option ℕ) :
    neighborStep p.metric.dist (fun d => decide (d = 0)) (fun d d' => decide (d < d'))
        (fun i => (s.sNodes i).visited) p.model.toModel (p.pos c)
        (best.map fun i => ⟨p.pos i, i⟩) i =
      some ((minStep (fun i => decide (p.distance c i ≠ 0) && !(s.sNodes i).visited)
        (p.distance c) best i).map fun i => ⟨p.pos i, i⟩) := by
  have hlt := p.model.lt_of_mem hi
  have hnode : (sNodes p.model.toModel)[i]? = some ⟨p.pos i, i⟩ := by
    rw [getElem?_sNodes, RoutePlanner.pos, List.getD_eq_getElem _ _ hlt,
      List.getElem?_eq_getElem hlt]
    rfl
  have hdist : ∀ j, p.metric.dist (p.pos c) (p.pos j) = p.distance c j := fun _ => rfl
  rw [neighborStep, hnode, Option.map_some]
  unfold minStep
  by_cases hok : p.distance c i ≠ 0 ∧ (s.sNodes i).visited = false
  · cases best with
    | none => simp [hdist, hok]
    | some b => by_cases hless : p.distance c i < p.distance c b <;> simp [hdist, hok, hless]
  · cases best <;> simp [hdist, hok]

/-- **It is the `findNeighbor` of the search**: on a map in range the lookups change
nothing. -/
theorem findNeighborExact_eq :
    findNeighborExact p s c (p.model.wayNodes w) =
      some ((p.findNeighbor s c (p.model.wayNodes w)).map fun i => ⟨p.pos i, i⟩) := by
  have hloop : ∀ (l : List ℕ) (best : Option ℕ), (∀ i ∈ l, i ∈ p.model.wayNodes w) →
      l.foldlM (neighborStep p.metric.dist (fun d => decide (d = 0)) (fun d d' => decide (d < d'))
          (fun i => (s.sNodes i).visited) p.model.toModel (p.pos c))
        (best.map fun i => ⟨p.pos i, i⟩) =
      some ((l.foldl (minStep (fun i => decide (p.distance c i ≠ 0) && !(s.sNodes i).visited)
        (p.distance c)) best).map fun i => ⟨p.pos i, i⟩) := by
    intro l
    induction l with
    | nil => exact fun best _ => rfl
    | cons i l ih =>
      intro best hl
      rw [List.foldlM_cons, List.foldl_cons, neighborStep_exact p s c (hl i (by simp))]
      exact ih _ fun i hi => hl i (by simp [hi])
  exact hloop _ none fun i hi => hi

end Exact

section FindClosestNode

variable (a : Arithmetic K F) (input : Node K)

/-- A node that `FindClosestNode` takes when it has none yet. -/
def Near (m : Model K) (i : ℕ) : Prop :=
  ∃ node, m.nodes[i]? = some node ∧ a.less (a.distance input node) a.floatMax = true

/-- A non-footway road with a node that would be taken. -/
def NearOnRoad (m : Model K) (r : Road) : Prop :=
  r.type ≠ .footway ∧ ∃ i ∈ m.wayNodes r.way, Near a input m i

/-- The nodes that the loop over a road looks at, in the order of its way. -/
def roadNodes (m : Model K) (r : Road) : List (RouteNode K) :=
  if r.type ≠ .footway then (m.wayNodes r.way).filterMap fun i => (sNodes m)[i]? else []

lemma mem_roadNodes {m : Model K} {r : Road} {node : RouteNode K} : node ∈ roadNodes m r ↔
    r.type ≠ .footway ∧ node.index ∈ m.wayNodes r.way ∧
      m.nodes[node.index]? = some node.toNode := by
  unfold roadNodes
  split_ifs with htype
  · rw [List.mem_filterMap]
    constructor
    · rintro ⟨i, hi, hnode⟩
      rw [getElem?_sNodes, Option.map_eq_some_iff] at hnode
      obtain ⟨n, hn, rfl⟩ := hnode
      exact ⟨htype, hi, hn⟩
    · rintro ⟨-, hi, hnode⟩
      exact ⟨node.index, hi, by rw [getElem?_sNodes, hnode]; rfl⟩
  · simp [htype]

lemma exists_nearOnRoad_iff {m : Model K} : (∃ r ∈ m.roads, NearOnRoad a input m r) ↔
    ∃ node ∈ m.roads.flatMap (roadNodes m),
      a.less (a.distance input node.toNode) a.floatMax = true := by
  constructor
  · rintro ⟨r, hr, htype, i, hi, node, hnode, hless⟩
    refine ⟨⟨node, i⟩, List.mem_flatMap.mpr ⟨r, hr, ?_⟩, hless⟩
    exact mem_roadNodes.mpr ⟨htype, hi, hnode⟩
  · rintro ⟨node, hnode, hless⟩
    obtain ⟨r, hr, hnode⟩ := List.mem_flatMap.mp hnode
    obtain ⟨htype, hi, hget⟩ := mem_roadNodes.mp hnode
    exact ⟨r, hr, htype, node.index, hi, node.toNode, hget, hless⟩

/-- What a turn of the inner loop does with the node that it looks up. -/
def closestTurn : ℤ × F → RouteNode K → ℤ × F :=
  lessStep a.less (fun node => a.distance input node.toNode) fun node => (node.index : ℤ)

lemma closestTurns_cases (l : List (RouteNode K)) (st : ℤ × F) :
    ((∃ other ∈ l, a.less (a.distance input other.toNode) st.2 = true) ∧ ∃ node ∈ l,
      l.foldl (closestTurn a input) st = ((node.index : ℤ), a.distance input node.toNode)) ∨
    (l.foldl (closestTurn a input) st = st ∧
      ∀ other ∈ l, a.less (a.distance input other.toNode) st.2 = false) :=
  foldl_lessStep_cases l st

lemma closestStep_eq (m : Model K) :
    closestStep a m input = fun st i => (sNodes m)[i]?.map (closestTurn a input st) := by
  funext st i
  rw [closestStep, getElem?_sNodes]
  cases m.nodes[i]? with
  | none => rfl
  | some node => rfl

variable {m : Model K} (h : RoadsInRange m)

include h

lemma closestOnRoad_eq {r : Road} (hr : r ∈ m.roads) (st : ℤ × F) :
    closestOnRoad a m input st r = some ((roadNodes m r).foldl (closestTurn a input) st) := by
  unfold closestOnRoad roadNodes
  split_ifs
  · have hread : (m.wayNodes r.way).map (fun i => (sNodes m)[i]?) =
        ((m.wayNodes r.way).filterMap fun i => (sNodes m)[i]?).map some := by
      rw [List.map_filterMap_some_eq_filter_map_isSome, List.filter_eq_self.mpr]
      intro node hnode
      obtain ⟨i, hi, rfl⟩ := List.mem_map.mp hnode
      obtain ⟨node, hnode⟩ := h.exists_node hr hi
      rw [hnode]
      rfl
    rw [h.getElem?_way hr, Option.bind_some]
    rw [closestStep_eq]
    exact foldlM_read hread st
  · rfl

/-- **The loops of `FindClosestNode`** look at the nodes of the roads one after the other. -/
theorem closestLoop_eq (st : ℤ × F) : m.roads.foldlM (closestOnRoad a m input) st =
    some ((m.roads.flatMap (roadNodes m)).foldl (closestTurn a input) st) := by
  rw [foldlM_eq_some fun st r hr => closestOnRoad_eq a input h hr st, List.foldl_flatMap]

/-- **`FindClosestNode`** looks up a node when some node of a non-footway road is near, and
else what `closest_idx` happens to hold. -/
theorem findClosestNode_isSome (garbage : ℤ) :
    (findClosestNode a m input garbage).isSome ↔
      (∃ r ∈ m.roads, NearOnRoad a input m r) ∨
        (0 ≤ garbage ∧ garbage < (m.nodes.length : ℤ)) := by
  rw [findClosestNode, closestLoop_eq a input h, Option.bind_some, elementAt_isSome,
    length_sNodes, exists_nearOnRoad_iff]
  rcases closestTurns_cases a input (m.roads.flatMap (roadNodes m)) (garbage, a.floatMax) with
    ⟨hnear, node, hnode, hrun⟩ | ⟨hrun, hnone⟩
  · refine iff_of_true ?_ (.inl hnear)
    obtain ⟨r, -, hnode⟩ := List.mem_flatMap.mp hnode
    have hlt := (List.getElem?_eq_some_iff.mp (mem_roadNodes.mp hnode).2.2).1
    rw [hrun]
    omega
  · have hno : ¬ ∃ node ∈ m.roads.flatMap (roadNodes m),
        a.less (a.distance input node.toNode) a.floatMax = true := by
      rintro ⟨node, hnode, hnear⟩
      simp [hnone node hnode] at hnear
    rw [hrun]
    exact (or_iff_right hno).symm

end FindClosestNode

end SelfTraining.Route
