import SelfTraining.Route.Snapping
import SelfTraining.Route.TrivialTrips
import SelfTraining.Route.Mercator

/-!
A whole trip: from the document and the two points that are asked for to the route.

`main` loads the map, snaps both points to the road network and runs the search between the
nodes it has found. Here the route is told in terms of the document: its nodes are node
elements, and each of its legs is on a way element that is a road other than a footway.
-/

namespace SelfTraining.Route

open SelfTraining.Distance SelfTraining.Order SelfTraining.Steps SelfTraining.Lookup

/-! ### The document as a road network -/

/-- A way element that is a road other than a footway refers to both node elements. -/
def Joined {K F : Type*} (a : Arithmetic K F) (doc : List XmlNode) (bounds : XmlNode)
    (i j : ℕ) : Prop :=
  ∃ way ∈ nonFootways doc, i ∈ (wayOf (readNodes a doc bounds).idToNum way).nodes ∧
    j ∈ (wayOf (readNodes a doc bounds).idToNum way).nodes

lemma connected_of_legs {K F : Type*} {a : Arithmetic K F} {doc : List XmlNode}
    {bounds : XmlNode} {path : List ℕ} {i j : ℕ} (hlegs : path.IsChain (Joined a doc bounds))
    (hi : path.head? = some i) (hj : path.getLast? = some j) :
    Relation.ReflTransGen (Joined a doc bounds) i j := by
  cases path with
  | nil => cases hi
  | cons k l =>
    obtain rfl : k = i := Option.some.inj hi
    refine List.relationReflTransGen_of_exists_isChain_cons l hlegs ?_
    rw [List.getLast?_eq_some_getLast (List.cons_ne_nil _ _)] at hj
    exact Option.some.inj hj

lemma toNode_of_findClosestNode {K F : Type*} {a : Arithmetic K F}
    {m : MapModel K} {point : Node K} {garbage : ℤ} {node : RouteNode K}
    (h : findClosestNode a m.toModel point garbage = some node) :
    m.nodes[node.index]? = some node.toNode := by
  obtain ⟨st, -, hst⟩ := Option.bind_eq_some_iff.mp h
  obtain ⟨k, hk⟩ := List.mem_iff_getElem?.mp (mem_of_elementAt hst)
  rw [getElem?_sNodes, Option.map_eq_some_iff] at hk
  obtain ⟨n, hn, rfl⟩ := hk
  exact hn

section Map

variable {K F : Type*} {a : Arithmetic K F} {g : Growth} {doc : List XmlNode}
  {bounds : XmlNode} {more : List XmlNode} {m : MapModel K}
  (hbounds : selectNodes doc "bounds" = bounds :: more) (hm : Constructs a g doc m)

include hbounds hm

lemma onRoad_iff_joined (i j : ℕ) : OnRoad m.toModel i j ↔ Joined a doc bounds i j := by
  obtain ⟨l, hl, roads, hsort, rfl⟩ := hm
  have hmem : ∀ r, r ∈ roads ↔ ∃ way, (selectNodes doc "way")[r.way]? = some way ∧
      r.type ∈ way.children.filterMap roadType :=
    fun r => hsort.1.mem_iff.trans (mem_loadData_roads hbounds hl r)
  have hnodes : ∀ k way, (selectNodes doc "way")[k]? = some way → l.toModel.wayNodes k =
      (wayOf (readNodes a doc bounds).idToNum way).nodes :=
    fun k way => loadData_wayNodes hbounds hl
  constructor
  · rintro ⟨r, hr, htype, hi, hj⟩
    obtain ⟨way, hway, ht⟩ := (hmem r).mp hr
    refine ⟨way, ?_, hnodes _ _ hway ▸ hi, hnodes _ _ hway ▸ hj⟩
    refine List.mem_filter.mpr ⟨List.mem_of_getElem? hway, List.any_eq_true.mpr ?_⟩
    exact ⟨r.type, ht, decide_eq_true htype⟩
  · rintro ⟨way, hway, hi, hj⟩
    obtain ⟨hway, hany⟩ := List.mem_filter.mp hway
    obtain ⟨t, ht, htype⟩ := List.any_eq_true.mp hany
    obtain ⟨k, hk⟩ := List.mem_iff_getElem?.mp hway
    rw [← hnodes k way hk] at hi hj
    exact ⟨⟨k, t⟩, (hmem _).mpr ⟨way, hk, ht⟩, of_decide_eq_true htype, hi, hj⟩

lemma nodes_eq_placed : m.nodes = (selectNodes doc "node").map (a.placed bounds) :=
  (hm.reads hbounds).1

end Map

/-! ### Trips -/

variable {K : Type*} [CommRing K] [LinearOrder K] [IsStrictOrderedRing K]

/-- Distances are those of a metric, and are compared as they are. -/
structure Arithmetic.Exact (a : Arithmetic K K) (metric : Metric (Node K) K) : Prop where
  distance : ∀ p q, a.distance p q = metric.dist p q
  less : ∀ x y, a.less x y = decide (x < y)

/-- The point that the constructor of `RoutePlanner` looks for; what is typed is in percent. -/
def Arithmetic.percent (a : Arithmetic K K) (typed : Node K) : Node K :=
  ⟨a.mul typed.x (a.literal (1 / 100)), a.mul typed.y (a.literal (1 / 100))⟩

/-- A planner that the constructor makes on a map, for two points that are typed: its ends are
what `FindClosestNode` returns, whatever was in memory. -/
structure Plans (a : Arithmetic K K) (metric : Metric (Node K) K) (m : MapModel K)
    (start finish : Node K) (p : RoutePlanner K) : Prop where
  model : p.model.toModel = m.toModel
  metric : p.metric = metric
  floatMax : p.floatMax = a.floatMax
  start : ∀ garbage, ∃ node, findClosestNode a m.toModel (a.percent start) garbage = some node ∧
    node.index = p.startNode
  finish : ∀ garbage, ∃ node, findClosestNode a m.toModel (a.percent finish) garbage = some node ∧
    node.index = p.endNode

section Document

variable (a : Arithmetic K K) (metric : Metric (Node K) K) (doc : List XmlNode)
  (bounds : XmlNode)

/-- Where a node element comes to lie. -/
def placeOf (i : ℕ) : Node K := ((selectNodes doc "node").map (a.placed bounds)).getD i ⟨0, 0⟩

/-- The node element lies on a road other than a footway, and none that does is nearer. -/
structure Nearest (point : Node K) (i : ℕ) : Prop where
  onRoad : Joined a doc bounds i i
  least : ∀ j, Joined a doc bounds j j →
    metric.dist point (placeOf a doc bounds i) ≤ metric.dist point (placeOf a doc bounds j)

/-- A route between two points: it leads from a node element nearest to the first to one nearest
to the second, each leg is on a road other than a footway, and the distance is in the scale of
the bounds. -/
structure Itinerary (start finish : Node K) (path : List ℕ) (dist : K) : Prop where
  first : ∃ i, path.head? = some i ∧ Nearest a metric doc bounds (a.percent start) i
  last : ∃ i, path.getLast? = some i ∧ Nearest a metric doc bounds (a.percent finish) i
  nodup : path.Nodup
  legs : path.IsChain (Joined a doc bounds)
  dist_eq : dist = a.metricScale (readBounds a bounds) *
    pathLen (fun i j => metric.dist (placeOf a doc bounds i) (placeOf a doc bounds j)) path

end Document

/-! ### The two ends -/

section Trip

variable {a : Arithmetic K K} {metric : Metric (Node K) K} {g : Growth} {doc : List XmlNode}
  {bounds : XmlNode} {more : List XmlNode} {m : MapModel K} {p : RoutePlanner K}
  {start finish : Node K}

lemma Arithmetic.Exact.strict (ha : a.Exact metric) : Strict a.less where
  irrefl x := by rw [ha.less]; simp
  trans x y z hxy hyz := by
    rw [ha.less, decide_eq_true_eq] at *
    exact hxy.trans hyz

variable (hbounds : selectNodes doc "bounds" = bounds :: more) (hm : Constructs a g doc m)

include hbounds hm

omit [LinearOrder K] [IsStrictOrderedRing K] in
lemma placeOf_eq {i : ℕ} {n : Node K} (h : m.nodes[i]? = some n) :
    placeOf a doc bounds i = n := by
  unfold placeOf
  rw [← nodes_eq_placed hbounds hm, List.getD_eq_getElem?_getD, h]
  rfl

lemma nearest_of_found (ha : a.Exact metric) {point : Node K} {i : ℕ}
    (hfound : ∀ garbage, ∃ node, findClosestNode a m.toModel point garbage = some node ∧
      node.index = i) : Nearest a metric doc bounds point i := by
  have hrange := hm.roadsInRange
  have hnear : ∃ r ∈ m.roads, NearOnRoad a point m.toModel r := by
    obtain ⟨node, hnode, -⟩ := hfound (-1)
    have hsome : (findClosestNode a m.toModel point (-1)).isSome := by rw [hnode]; rfl
    rcases (findClosestNode_isSome a point hrange (-1)).mp hsome with hnear | ⟨h0, -⟩
    · exact hnear
    · exact absurd h0 (by decide)
  obtain ⟨node, hsnap⟩ := snaps_of_near ha.strict hrange hnear
  obtain ⟨node', hnode', rfl⟩ := hfound 0
  obtain rfl : node = node' := Option.some.inj ((hsnap.assigned 0).symm.trans hnode')
  have hplace := placeOf_eq hbounds hm (toNode_of_findClosestNode hnode')
  obtain ⟨r, hr, htype, hi⟩ := hsnap.onRoad
  refine ⟨(onRoad_iff_joined hbounds hm _ _).mp ⟨r, hr, htype, hi, hi⟩, fun j hj => ?_⟩
  obtain ⟨r', hr', htype', hj', -⟩ := (onRoad_iff_joined hbounds hm _ _).mpr hj
  obtain ⟨other, hother⟩ := hrange.exists_node hr' hj'
  have hless := hsnap.nearest r' hr' htype' j hj' other hother
  rw [getElem?_sNodes, Option.map_eq_some_iff] at hother
  obtain ⟨n, hn, rfl⟩ := hother
  rw [ha.less, ha.distance, ha.distance, decide_eq_false_iff_not, not_lt] at hless
  rw [hplace, placeOf_eq hbounds hm hn]
  exact hless

/-! ### The route -/

variable (ha : a.Exact metric) (hp : Plans a metric m start finish p)

include hp

lemma joined_iff (i j : ℕ) : OnRoad p.model.toModel i j ↔ Joined a doc bounds i j := by
  rw [hp.model]
  exact onRoad_iff_joined hbounds hm i j

lemma pos_eq_placeOf (i : ℕ) : p.pos i = placeOf a doc bounds i := by
  unfold RoutePlanner.pos placeOf
  rw [← nodes_eq_placed hbounds hm]
  exact congrArg (fun l : Model K => l.nodes.getD i ⟨0, 0⟩) hp.model

include ha

/-- **Where the search stops, the route is a trip between the two points.** -/
lemma itinerary_of_stops (hpos : ((selectNodes doc "node").map (a.placed bounds)).Nodup)
    {s : Search K} {n : ℕ} (h : p.Stops s n) : ∃ path dist,
      p.constructFinalPath s p.model.nodes.length n = some (path, dist) ∧
        path.head? = some p.startNode ∧ path.getLast? = some p.endNode ∧
        Itinerary a metric doc bounds start finish path dist := by
  obtain ⟨depth, ht, hn⟩ := RoutePlanner.Reached.tree h
  change p.Tree s depth at ht
  change (s.sNodes n).visited = true at hn
  obtain ⟨t, c, -, -, hd⟩ := h.last
  obtain ⟨l, hb⟩ := ht.exists_branch hn
  have hend : n = p.endNode := by
    have hnodes : p.model.nodes.Nodup := by
      rw [show p.model.nodes = m.nodes from congrArg Model.nodes hp.model,
        nodes_eq_placed hbounds hm]
      exact hpos
    exact RoutePlanner.eq_of_distance_eq hnodes (ht.visited_lt n hn) p.end_lt hd
  have hdist : p.distance =
      fun i j => metric.dist (placeOf a doc bounds i) (placeOf a doc bounds j) := by
    funext i j
    rw [RoutePlanner.distance, hp.metric, pos_eq_placeOf hbounds hm hp,
      pos_eq_placeOf hbounds hm hp]
  have hscale : p.model.metricScale = a.metricScale (readBounds a bounds) :=
    (congrArg Model.metricScale hp.model).trans (metricScale_eq hbounds hm)
  have hlast : (p.startNode :: l).getLast? = some p.endNode := hend ▸ hb.last
  refine ⟨_, _, hb.constructFinalPath (ht.depth_lt_length hn), rfl, hlast, {
    first := ⟨p.startNode, rfl, nearest_of_found hbounds hm ha hp.start⟩
    last := ⟨p.endNode, hlast, nearest_of_found hbounds hm ha hp.finish⟩
    nodup := hb.nodup
    legs := hb.roads.imp fun i j => (joined_iff hbounds hm hp i j).mp
    dist_eq := by rw [mul_comm, hdist, hscale] }⟩

/-- **A trip succeeds** if and only if its two ends are snapped to different node elements that
the roads of the document connect. On a map whose nodes have distinct places: then every run of
the search, whatever the sort does with ties, stops with a route between the two points; and
otherwise no run stops. -/
theorem trip_succeeds_iff (hpos : ((selectNodes doc "node").map (a.placed bounds)).Nodup) :
    (Ends p.Pass (fun l => ∃ s n path dist, l = .found s n ∧
        p.constructFinalPath s p.model.nodes.length n = some (path, dist) ∧
        Itinerary a metric doc bounds start finish path dist) (.head p.init p.startNode) ↔
      p.startNode ≠ p.endNode ∧
        Relation.ReflTransGen (Joined a doc bounds) p.startNode p.endNode) ∧
    ((∃ s n, p.Stops s n) → p.startNode ≠ p.endNode ∧
      Relation.ReflTransGen (Joined a doc bounds) p.startNode p.endNode) := by
  have hnodes : p.model.nodes.Nodup := by
    rw [show p.model.nodes = m.nodes from congrArg Model.nodes hp.model,
      nodes_eq_placed hbounds hm]
    exact hpos
  have hstops : (∃ s n, p.Stops s n) → p.startNode ≠ p.endNode ∧
      Relation.ReflTransGen (Joined a doc bounds) p.startNode p.endNode := by
    rintro ⟨s, n, h⟩
    obtain ⟨path, dist, -, hhead, hlast, hit⟩ := itinerary_of_stops hbounds hm ha hp hpos h
    exact ⟨fun heq => RoutePlanner.not_stops_of_eq hnodes heq s n h,
      connected_of_legs hit.legs hhead hlast⟩
  refine ⟨⟨fun hends => ?_, fun ⟨hne, hconn⟩ => ?_⟩, hstops⟩
  · obtain ⟨l, hl, s, n, path, dist, rfl, -⟩ := hends.exists_reaches
    exact hstops ⟨s, n, hl⟩
  · have hroad : Relation.ReflTransGen (OnRoad p.model.toModel) p.startNode p.endNode :=
      Relation.ReflTransGen.mono (fun i j h => (joined_iff hbounds hm hp i j).mpr h) _ _ hconn
    refine (RoutePlanner.search_finds hnodes hne hroad).of_reaches fun l hl hfound => ?_
    obtain ⟨s, rfl⟩ := hfound
    obtain ⟨path, dist, hpath, -, -, hit⟩ := itinerary_of_stops hbounds hm ha hp hpos hl
    exact ⟨s, p.endNode, path, dist, rfl, hpath, hit⟩

end Trip

/-! ### A trip through a village -/

lemma exists_plans {a : Arithmetic K K} {metric : Metric (Node K) K} {m : MapModel K}
    {start finish : Node K} (hm : Indexed m) (hstart : Snaps a m.toModel (a.percent start))
    (hfinish : Snaps a m.toModel (a.percent finish)) :
    ∃ p, Plans a metric m start finish p := by
  obtain ⟨n, hn⟩ := hstart
  obtain ⟨n', hn'⟩ := hfinish
  have hlt : ∀ {point : Node K} {k : RouteNode K}, SnapsTo a m.toModel point k →
      k.index < m.nodes.length := by
    intro point k hk
    obtain ⟨hlt, -⟩ := List.getElem?_eq_some_iff.mp (toNode_of_findClosestNode (hk.assigned 0))
    exact hlt
  exact ⟨⟨hm.routeModel, metric, n.index, n'.index, hlt hn, hlt hn', a.floatMax⟩, {
    model := rfl
    metric := rfl
    floatMax := rfl
    start := fun garbage => ⟨n, hn.assigned garbage, rfl⟩
    finish := fun garbage => ⟨n', hn'.assigned garbage, rfl⟩ }⟩

lemma Nearest.placeOf_eq {a : Arithmetic K K} {metric : Metric (Node K) K} {doc : List XmlNode}
    {bounds : XmlNode} {point : Node K} {i j : ℕ} (h : Nearest a metric doc bounds point i)
    (hj : Joined a doc bounds j j) (hpoint : point = placeOf a doc bounds j) :
    placeOf a doc bounds i = point := by
  have hle := h.least j hj
  rw [← hpoint, metric.dist_self] at hle
  exact ((metric.eq_zero_iff _ _).mp (le_antisymm hle (metric.nonneg _ _))).symm

lemma exactArithmetic_exact : exactArithmetic.Exact euclid where
  distance p q := by simp [exactArithmetic, Arithmetic.distance, euclid]
  less x y := rfl

/-- The other end of the street. -/
def farEnd : XmlNode := element "node" [("id", "2"), ("lat", "1"), ("lon", "0")]

lemma farEnd_ne : (exactArithmetic.placed unitBounds farEnd).y ≠ 0 := by
  have hreal := exactArithmetic_overReals
  have hlt : exactArithmetic.lat2ym 0 < exactArithmetic.lat2ym 1 :=
    hreal.lat2ym_strictMonoOn (by norm_num) (by norm_num) one_pos
  have hpos := unitBounds_proper.metricScale_pos hreal
  have hlat : (exactArithmetic.position farEnd).y = 1 := atof_one
  have hmin : (readBounds exactArithmetic unitBounds).minLat = 0 := atof_zero
  rw [Arithmetic.placed, ProperBounds.adjust_eq hreal]
  simp only [hlat, hmin]
  exact (div_pos (sub_pos.mpr hlt) hpos).ne'

lemma farEnd_x : (exactArithmetic.placed unitBounds farEnd).x = 0 := by
  rw [Arithmetic.placed, ProperBounds.adjust_eq exactArithmetic_overReals]
  exact (congrArg (· / _) (sub_self _)).trans (zero_div _)

lemma village_places :
    (selectNodes village "node").map (exactArithmetic.placed unitBounds) =
      [⟨0, 0⟩, ⟨0, (exactArithmetic.placed unitBounds farEnd).y⟩] := by
  have hfar : exactArithmetic.placed unitBounds farEnd =
      ⟨0, (exactArithmetic.placed unitBounds farEnd).y⟩ := by
    rw [← farEnd_x]
  rw [← placed_origin, ← hfar]
  rfl

lemma village_joined : ∀ i < 2, ∀ j < 2, Joined exactArithmetic village unitBounds i j := by
  intro i hi j hj
  refine ⟨_, List.mem_cons_self, ?_, ?_⟩
  · interval_cases i <;> decide
  · interval_cases j <;> decide

lemma farEnd_near : NearElement exactArithmetic village
    (exactArithmetic.placed unitBounds farEnd) unitBounds := by
  refine ⟨_, List.mem_cons_self, 1, by decide, farEnd, rfl, ?_⟩
  rw [exactArithmetic_exact.distance, euclid.dist_self]
  simp [exactArithmetic]
  norm_num

/-- The point that has to be typed for a point of the map. -/
def typed (point : Node ℝ) : Node ℝ := ⟨point.x * 100, point.y * 100⟩

lemma percent_typed (point : Node ℝ) : exactArithmetic.percent (typed point) = point := by
  have hcancel : ∀ u : ℝ, u * 100 * ((1 / 100 : ℚ) : ℝ) = u := by
    intro u
    push_cast
    ring
  exact congrArg₂ Node.mk (hcancel _) (hcancel _)

/-- From one end of the street to the other. -/
theorem trip_succeeds_iff_village : ∃ p : RoutePlanner ℝ,
    Ends p.Pass (fun l => ∃ s n path dist, l = .found s n ∧
      p.constructFinalPath s p.model.nodes.length n = some (path, dist) ∧
      Itinerary exactArithmetic euclid village unitBounds (typed ⟨0, 0⟩)
        (typed (exactArithmetic.placed unitBounds farEnd)) path dist)
      (.head p.init p.startNode) := by
  have hbounds : selectNodes village "bounds" = [unitBounds] := rfl
  obtain ⟨m, hm⟩ := exists_village
  have hsnap : ∀ point, NearElement exactArithmetic village point unitBounds →
      Snaps exactArithmetic m.toModel (exactArithmetic.percent (typed point)) := by
    intro point hnear
    rw [percent_typed]
    exact snaps_of_near exactArithmetic_strict hm.roadsInRange
      ((nearOnRoad_iff hbounds hm).mpr hnear)
  obtain ⟨p, hp⟩ : ∃ p, Plans exactArithmetic euclid m (typed ⟨0, 0⟩)
      (typed (exactArithmetic.placed unitBounds farEnd)) p :=
    exists_plans (hm.indexed hbounds (by decide)) (hsnap _ village_near) (hsnap _ farEnd_near)
  have hlen : p.model.nodes.length = 2 := by
    rw [show p.model.nodes = m.nodes from congrArg Model.nodes hp.model,
      nodes_eq_placed hbounds hm, village_places]
    rfl
  have hstart := (nearest_of_found hbounds hm exactArithmetic_exact hp.start).placeOf_eq
    (village_joined 0 (by decide) 0 (by decide)) (by
      rw [percent_typed, placeOf, village_places]; rfl)
  have hfinish := (nearest_of_found hbounds hm exactArithmetic_exact hp.finish).placeOf_eq
    (village_joined 1 (by decide) 1 (by decide)) (by
      rw [percent_typed, placeOf, village_places, ← farEnd_x]; rfl)
  have hne : p.startNode ≠ p.endNode := by
    intro heq
    rw [heq, hfinish, percent_typed, percent_typed] at hstart
    exact farEnd_ne (congrArg Node.y hstart)
  have hjoined : Joined exactArithmetic village unitBounds p.startNode p.endNode :=
    village_joined _ (hlen ▸ p.start_lt) _ (hlen ▸ p.end_lt)
  refine ⟨p, (trip_succeeds_iff hbounds hm exactArithmetic_exact hp ?_).1.mpr
    ⟨hne, Relation.ReflTransGen.single hjoined⟩⟩
  rw [village_places]
  simpa using fun h => farEnd_ne h.symm

end SelfTraining.Route
