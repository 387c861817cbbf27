import SelfTraining.Route.Termination

/-!
How long the path is.

A node keeps the `g_value` of its first visit, and an expansion offers one node for each
road. So a step out of a node that the search is done with may have been passed over: the
node it leads to was visited already, at a higher price, or is still unvisited because the
road offered another one. A sequence of nodes that takes no such step is no shorter than
the path found.
-/

namespace SelfTraining.Route.RoutePlanner

open SelfTraining.Distance SelfTraining.Steps

variable {K : Type*} [CommRing K] [LinearOrder K] [IsStrictOrderedRing K]
variable {p : RoutePlanner K}

/-- Two nodes are neighbours in the nodes list of a common non-footway road. -/
def Adjacent (m : Model K) (i j : ℕ) : Prop :=
  ∃ r ∈ m.roads, r.type ≠ .footway ∧
    ([i, j] <:+: m.wayNodes r.way ∨ [j, i] <:+: m.wayNodes r.way)

instance (m : Model K) (i j : ℕ) : Decidable (Adjacent m i j) :=
  inferInstanceAs (Decidable (∃ r ∈ m.roads, _))

/-- A sequence of nodes from the start to the end along the roads. -/
structure AlongRoads (p : RoutePlanner K) (σ : List ℕ) : Prop where
  head : σ.head? = some p.startNode
  last : σ.getLast? = some p.endNode
  adjacent : σ.IsChain (Adjacent p.model.toModel)

/-- The path of every search that stops is no longer than any sequence along the roads. -/
def FindsShortest (p : RoutePlanner K) : Prop :=
  ∀ s n, p.Stops s n → ∀ path dist,
    p.constructFinalPath s p.model.nodes.length n = some (path, dist) →
      ∀ σ, AlongRoads p σ → pathLen p.distance path ≤ pathLen p.distance σ

/-- On the map `detour` the search returns to the node `3` from the right, since it was
visited first from there, and never learns of the shorter way from the left. -/
theorem detour_not_shortest : detour.model.nodes.Nodup ∧ ¬ FindsShortest detour := by
  refine ⟨by decide, fun h => ?_⟩
  obtain ⟨s, hs, hpath⟩ := detour_stops
  have hle := h s 4 hs _ _ hpath [0, 2, 3, 4] ⟨rfl, rfl, by decide⟩
  have h44 : pathLen detour.distance [0, 1, 3, 4] = 44 := by decide
  have h24 : pathLen detour.distance [0, 2, 3, 4] = 24 := by decide
  omega

/-- The search is done with `u`: visited, off the open list and not the node found. -/
def Settled (s : Search K) (n u : ℕ) : Prop :=
  (s.sNodes u).visited ∧ u ∉ s.openList ∧ u ≠ n

/-- The step from `u` to `v` was passed over. -/
def PassedOver (p : RoutePlanner K) (s : Search K) (n u v : ℕ) : Prop :=
  Settled s n u ∧
    ((s.sNodes v).visited = false ∨ (s.sNodes u).gValue + p.distance u v < (s.sNodes v).gValue)

/-- What the search knows when it stops at `n`. -/
structure Done (p : RoutePlanner K) (depth : ℕ → ℕ) (s : Search K) (n : ℕ) : Prop where
  tree : p.Tree s depth
  visited : (s.sNodes n).visited
  ne_start : n ≠ p.startNode
  eq_end : n = p.endNode
  least : ∀ x ∈ s.openList, (s.sNodes n).gValue ≤ (s.sNodes x).gValue + p.distance x n

lemma Tree.hValue {s : Search K} {depth : ℕ → ℕ} (ht : p.Tree s depth) {i : ℕ}
    (hi : (s.sNodes i).visited) (hs : i ≠ p.startNode) :
    (s.sNodes i).hValue = p.distance i p.endNode := by
  obtain ⟨c, hch⟩ := ht.exists_parent hi hs
  exact hch.hValue

lemma Stops.done (hpos : p.model.nodes.Nodup) {s : Search K} {n : ℕ} (h : p.Stops s n) :
    ∃ depth, Done p depth s n := by
  obtain ⟨t, c, hreach, hnext, hd⟩ := h.last
  obtain ⟨depth, ht, hc⟩ := Reached.tree hreach
  obtain ⟨ht', hv, hne⟩ := (Tree.expand ht hc).nextNode hnext
  have heq := eq_of_distance_eq hpos (ht'.visited_lt n hv) p.end_lt hd
  refine ⟨_, ht', hv, hne, heq, fun x hx => ?_⟩
  obtain ⟨hs, hperm⟩ := hnext.perm
  have hle := hnext.least x (hperm.mem_iff.mp (List.mem_cons.mpr (.inr hx)))
  obtain ⟨hxv, hxs⟩ := ht'.open_visited x hx
  unfold fValue at hle
  rw [← hs, ht'.hValue hv hne, ht'.hValue hxv hxs, ← heq] at hle
  have hnn : p.distance n n = 0 := p.metric.dist_self _
  linarith

lemma pathLen_nonneg (l : List ℕ) : 0 ≤ pathLen p.distance l := by
  induction l with
  | nil => exact le_rfl
  | cons a l ih =>
    cases l with
    | nil => exact le_rfl
    | cons b l => exact add_nonneg (p.metric.nonneg _ _) ih

/-- Along a sequence that takes no step passed over, the price of the node found is at most
what is paid so far and the rest of the sequence. -/
lemma Done.gValue_le {depth : ℕ → ℕ} {s : Search K} {n : ℕ} (hd : Done p depth s n)
    (l : List ℕ) (a : ℕ) (paid : K) (hlast : (a :: l).getLast? = some n)
    (hv : (s.sNodes a).visited) (ha : (s.sNodes a).gValue ≤ paid)
    (hstep : ∀ u v, [u, v] <:+: a :: l → ¬ PassedOver p s n u v) :
    (s.sNodes n).gValue ≤ paid + pathLen p.distance (a :: l) := by
  induction l generalizing a paid with
  | nil =>
    obtain rfl : a = n := by simpa using hlast
    simpa using ha
  | cons b l ih =>
    by_cases han : a = n
    · subst han
      have := pathLen_nonneg (p := p) (a :: b :: l)
      linarith
    by_cases hopen : a ∈ s.openList
    · -- the straight line from an open node is no longer than the rest of the sequence
      have h1 := hd.least a hopen
      obtain ⟨init, hinit⟩ : ∃ init, b :: l = init ++ [n] :=
        List.getLast?_eq_some_iff.mp (by simpa [List.getLast?_cons_cons] using hlast)
      have h2 : p.distance a n ≤ pathLen p.distance (a :: b :: l) := by
        rw [hinit]
        exact dist_le_pathLen p.metric p.pos init a n
      calc (s.sNodes n).gValue ≤ (s.sNodes a).gValue + p.distance a n := h1
        _ ≤ paid + pathLen p.distance (a :: b :: l) := add_le_add ha h2
    · have hset : Settled s n a := ⟨hv, hopen, han⟩
      have hab : ¬ PassedOver p s n a b := hstep a b ⟨[], l, rfl⟩
      have hb : (s.sNodes b).visited = true := by
        by_contra h
        exact hab ⟨hset, .inl (by simpa using h)⟩
      have hg : (s.sNodes b).gValue ≤ (s.sNodes a).gValue + p.distance a b :=
        not_lt.mp fun h => hab ⟨hset, .inr h⟩
      have hrest := ih b (paid + p.distance a b) (by simpa [List.getLast?_cons_cons] using hlast)
        hb (by linarith) fun u v huv => hstep u v (huv.trans (List.suffix_cons a _).isInfix)
      calc (s.sNodes n).gValue ≤ paid + p.distance a b + pathLen p.distance (b :: l) := hrest
        _ = paid + pathLen p.distance (a :: b :: l) := by rw [pathLen_cons_cons, add_assoc]

/-- **Route optimality, up to steps passed over.** The path of a search that stops is no
longer than any sequence along the roads from start to end, unless the sequence takes a
step out of a settled node to a node that is unvisited or was visited at a higher price. -/
theorem route_shortest (p : RoutePlanner K) (hpos : p.model.nodes.Nodup) {s : Search K} {n : ℕ}
    (h : p.Stops s n) {path : List ℕ} {dist : K}
    (hpath : p.constructFinalPath s p.model.nodes.length n = some (path, dist))
    {σ : List ℕ} (hσ : AlongRoads p σ) :
    pathLen p.distance path ≤ pathLen p.distance σ ∨
      ∃ u v, [u, v] <:+: σ ∧ PassedOver p s n u v := by
  obtain ⟨depth, hd⟩ := h.done hpos
  obtain ⟨l, hb⟩ := hd.tree.exists_branch hd.visited
  rw [hb.constructFinalPath (hd.tree.depth_lt_length hd.visited)] at hpath
  obtain ⟨rfl, -⟩ : p.startNode :: l = path ∧ _ := by simpa using hpath
  rw [hb.length]
  by_cases hstep : ∃ u v, [u, v] <:+: σ ∧ PassedOver p s n u v
  · exact .inr hstep
  · refine .inl ?_
    cases σ with
    | nil => simpa using hσ.head
    | cons a σ =>
      obtain rfl : a = p.startNode := by simpa using hσ.head
      have hle := hd.gValue_le σ p.startNode 0 (by rw [hσ.last, hd.eq_end])
        hd.tree.start_visited hd.tree.start_gValue.le
        fun u v huv hpo => hstep ⟨u, v, huv, hpo⟩
      simpa using hle

/-- The shorter way from the left takes a step that the search has passed over. -/
theorem route_shortest_detour : ∃ s, detour.Stops s 4 ∧
    pathLen detour.distance [0, 2, 3, 4] < pathLen detour.distance [0, 1, 3, 4] ∧
    ∃ u v, [u, v] <:+: [0, 2, 3, 4] ∧ PassedOver detour s 4 u v := by
  obtain ⟨s, hs, hpath⟩ := detour_stops
  have hshorter : pathLen detour.distance [0, 2, 3, 4] < pathLen detour.distance [0, 1, 3, 4] := by
    decide
  have hσ : AlongRoads detour [0, 2, 3, 4] := ⟨rfl, rfl, by decide⟩
  exact ⟨s, hs, hshorter,
    (route_shortest detour (by decide) hs hpath hσ).resolve_left (not_le.mpr hshorter)⟩

end SelfTraining.Route.RoutePlanner
