import SelfTraining.Route.SearchTree

/-!
The path that a search leaves behind.

Following the parents from a visited node comes to the start node, one level of the search
tree at a time. The nodes on the way are told apart by their depths, and the distances
along them add up to the `g_value` of the node the walk began at.
-/

namespace SelfTraining.Route.RoutePlanner

open SelfTraining.Distance SelfTraining.Steps

variable {K : Type*} [CommRing K] [LinearOrder K] [IsStrictOrderedRing K]
variable {p : RoutePlanner K}

lemma distance_comm (i j : ℕ) : p.distance i j = p.distance j i := p.metric.symm _ _

/-- The nodes from the start to `i` down the tree, without the start itself. -/
structure Branch (p : RoutePlanner K) (s : Search K) (depth : ℕ → ℕ) (i : ℕ) (l : List ℕ) :
    Prop where
  last : (p.startNode :: l).getLast? = some i
  depths : (p.startNode :: l).map depth = List.range (depth i + 1)
  roads : (p.startNode :: l).IsChain (OnRoad p.model.toModel)
  length : pathLen p.distance (p.startNode :: l) = (s.sNodes i).gValue
  walk : ∀ fuel, depth i < fuel → ∀ path dist, p.parentWalk s fuel i path dist =
    some (l ++ path, dist + pathLen p.distance (p.startNode :: l))

lemma branch_start {s : Search K} {depth : ℕ → ℕ} (ht : p.Tree s depth) :
    Branch p s depth p.startNode [] where
  last := rfl
  depths := by simp [ht.start_depth]
  roads := .singleton _
  length := by simp [ht.start_gValue]
  walk fuel hfuel path dist := by
    obtain ⟨fuel, rfl⟩ : ∃ k, fuel = k + 1 := ⟨fuel - 1, by omega⟩
    simp [parentWalk, ht.start_parent]

lemma Branch.child {s : Search K} {depth : ℕ → ℕ} {c i : ℕ} {l : List ℕ}
    (hb : Branch p s depth c l) (hch : p.Child s depth c i) :
    Branch p s depth i (l ++ [i]) := by
  obtain ⟨init, hinit⟩ : ∃ init, p.startNode :: l = init ++ [c] :=
    List.getLast?_eq_some_iff.mp hb.last
  have hsnoc : p.startNode :: (l ++ [i]) = init ++ [c, i] := by
    rw [← List.cons_append, hinit]; simp
  have hlen : pathLen p.distance (p.startNode :: (l ++ [i])) =
      pathLen p.distance (p.startNode :: l) + p.distance c i := by
    rw [hsnoc, pathLen_snoc, hinit]
  refine ⟨?_, ?_, ?_, ?_, ?_⟩
  · rw [← List.cons_append, List.getLast?_concat]
  · rw [← List.cons_append, List.map_append, hb.depths, hch.depth,
      List.range_succ (n := depth c + 1)]
    simp [hch.depth]
  · rw [← List.cons_append]
    refine hb.roads.append (.singleton i) ?_
    intro x hx y hy
    obtain rfl : c = x := by simpa [hb.last] using hx
    obtain rfl : i = y := by simpa using hy
    exact hch.onRoad
  · rw [hlen, hb.length, hch.gValue]
  · intro fuel hfuel path dist
    obtain ⟨fuel, rfl⟩ : ∃ k, fuel = k + 1 := ⟨fuel - 1, by omega⟩
    have hd := hch.depth
    simp only [parentWalk, hch.parent]
    rw [hb.walk fuel (by omega), hlen, distance_comm i c]
    simp only [List.append_assoc, List.cons_append, List.nil_append, Option.some.injEq,
      Prod.mk.injEq, true_and]
    ring

/-- **The parent walk.** From every visited node the parents lead to the start. -/
theorem Tree.exists_branch {s : Search K} {depth : ℕ → ℕ} (ht : p.Tree s depth) {i : ℕ}
    (hi : (s.sNodes i).visited) : ∃ l, Branch p s depth i l := by
  induction hd : depth i generalizing i with
  | zero =>
    by_cases hs : i = p.startNode
    · subst hs; exact ⟨[], branch_start ht⟩
    · obtain ⟨c, hch⟩ := ht.exists_parent hi hs
      have := hch.depth
      omega
  | succ d ih =>
    have hs : i ≠ p.startNode := by
      rintro rfl
      have := ht.start_depth
      omega
    obtain ⟨c, hch⟩ := ht.exists_parent hi hs
    have := hch.depth
    obtain ⟨l, hl⟩ := ih hch.parent_visited (by omega)
    exact ⟨_, hl.child hch⟩

lemma Branch.nodup {s : Search K} {depth : ℕ → ℕ} {i : ℕ} {l : List ℕ}
    (hb : Branch p s depth i l) : (p.startNode :: l).Nodup := by
  refine List.Nodup.of_map depth ?_
  rw [hb.depths]
  exact List.nodup_range

lemma Branch.constructFinalPath {s : Search K} {depth : ℕ → ℕ} {i : ℕ} {l : List ℕ}
    (hb : Branch p s depth i l) {fuel : ℕ} (hfuel : depth i < fuel) :
    p.constructFinalPath s fuel i = some (p.startNode :: l,
      pathLen p.distance (p.startNode :: l) * p.model.metricScale) := by
  simp [RoutePlanner.constructFinalPath, hb.walk fuel hfuel]

lemma pos_eq_of_distance {i j : ℕ} (h : p.distance i j = 0) : p.pos i = p.pos j :=
  (p.metric.eq_zero_iff _ _).mp h

/-- **Route validity.** When the search stops, the parent walk ends after at most as many
turns as the map has nodes, and leaves a path that begins with the start node, ends at the
position of the end node, repeats no node and follows non-footway roads; the distance is
the length of the path in the scale of the map, and so is the `g_value` of the node found. -/
theorem route_valid (p : RoutePlanner K) {s : Search K} {n : ℕ} (h : p.Stops s n) :
    ∃ path dist,
      (∀ fuel, p.model.nodes.length ≤ fuel →
        p.constructFinalPath s fuel n = some (path, dist)) ∧
      path.head? = some p.startNode ∧
      (∃ e, path.getLast? = some e ∧ p.pos e = p.pos p.endNode) ∧
      path.Nodup ∧
      path.IsChain (OnRoad p.model.toModel) ∧
      dist = p.model.metricScale * pathLen p.distance path ∧
      dist = p.model.metricScale * (s.sNodes n).gValue := by
  obtain ⟨depth, ht, hn⟩ := Reached.tree h
  change p.Tree s depth at ht
  change (s.sNodes n).visited = true at hn
  obtain ⟨t, c, -, -, hd⟩ := Stops.last h
  obtain ⟨l, hb⟩ := ht.exists_branch hn
  refine ⟨_, _, fun fuel hfuel => hb.constructFinalPath ?_, rfl,
    ⟨n, hb.last, pos_eq_of_distance hd⟩, hb.nodup, hb.roads, mul_comm _ _, ?_⟩
  · exact (ht.depth_lt_length hn).trans_le hfuel
  · rw [hb.length, mul_comm]

/-- Five nodes on a horizontal line and a road for each pair that is joined: from `0` to
`4` at the far right, once by way of `1` and once by way of `2` and, in both, back to `3`
at the left, which alone leads on to `4`. -/
def detour : RoutePlanner ℤ where
  model := {
    nodes := [⟨0, 0⟩, ⟨10, 0⟩, ⟨-1, 0⟩, ⟨-2, 0⟩, ⟨20, 0⟩]
    ways := [⟨[0, 1]⟩, ⟨[1, 3]⟩, ⟨[0, 2]⟩, ⟨[2, 3]⟩, ⟨[3, 4]⟩]
    roads := [⟨0, .residential⟩, ⟨1, .residential⟩, ⟨2, .residential⟩, ⟨3, .residential⟩,
      ⟨4, .residential⟩]
    metricScale := 3
    ways_in_range := by decide
    roads_in_range := by decide }
  metric := taxicab ℤ
  startNode := 0
  endNode := 4
  start_lt := by decide
  end_lt := by decide
  floatMax := 1000

lemma detour_stops : ∃ s, detour.Stops s 4 ∧
    detour.constructFinalPath s 5 4 = some ([0, 1, 3, 4], 132) := by
  have h : (detour.aStarSearch 5 detour.init 0).map
      (fun r => (r.2, detour.constructFinalPath r.1 5 r.2)) =
        some (4, some ([0, 1, 3, 4], 132)) := by decide +kernel
  obtain ⟨⟨s, n⟩, hrun, hobs⟩ := Option.map_eq_some_iff.mp h
  simp only [Prod.mk.injEq] at hobs
  obtain ⟨rfl, hpath⟩ := hobs
  exact ⟨s, detour.aStarSearch_reaches hrun, hpath⟩

lemma detour_second : ∃ s, detour.Pass (.head detour.init 0) (.head s 1) ∧
    (s.sNodes 1).parent = some 0 ∧ (s.sNodes 1).gValue = 10 ∧ detour.picks s 1 = [3] := by
  have h : (nextNode (detour.addNeighbors detour.init 0)).map (fun r => (r.1,
      (r.2.sNodes 1).parent, (r.2.sNodes 1).gValue, detour.picks r.2 1)) =
        some (1, some 0, 10, [3]) := by decide +kernel
  obtain ⟨⟨n, s⟩, hnext, hobs⟩ := Option.map_eq_some_iff.mp h
  simp only [Prod.mk.injEq] at hobs
  obtain ⟨rfl, hparent, hg, hpicks⟩ := hobs
  exact ⟨s, .again (nextNode_sound hnext) (by decide), hparent, hg, hpicks⟩

theorem route_valid_detour : ∃ s, detour.Stops s 4 ∧
    ∃ path dist, detour.constructFinalPath s 5 4 = some (path, dist) ∧
      path.head? = some 0 ∧ path.Nodup ∧ dist = 3 * (s.sNodes 4).gValue := by
  obtain ⟨s, h, -⟩ := detour_stops
  obtain ⟨path, dist, hpath, hhead, -, hnodup, -, -, hg⟩ := route_valid detour h
  exact ⟨s, h, path, dist, hpath 5 (by decide), hhead, hnodup, hg⟩

end SelfTraining.Route.RoutePlanner
