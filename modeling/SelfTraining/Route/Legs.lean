import SelfTraining.Route.SearchRuns
import SelfTraining.Route.Optimality

/-!
The legs of a route.

A road offers the node that is nearest by straight line among those the search has not
visited, wherever it stands on the road. So a leg keeps to a road, but it follows the nodes
of the road only where the nearest one comes next.
-/

namespace SelfTraining.Route.RoutePlanner

open SelfTraining.Distance SelfTraining.Order SelfTraining.Steps

variable {K : Type*} [CommRing K] [LinearOrder K] [IsStrictOrderedRing K]

/-- `u` and `v` are next to each other in a list of nodes. -/
def NextTo (l : List ℕ) (u v : ℕ) : Prop := [u, v] <:+: l ∨ [v, u] <:+: l

instance (l : List ℕ) (u v : ℕ) : Decidable (NextTo l u v) :=
  inferInstanceAs (Decidable (_ ∨ _))

/-- Consecutive nodes of every path that a search leaves are next to each other on a road. -/
def FollowsRoads (p : RoutePlanner K) : Prop :=
  ∀ s n, p.Stops s n → ∀ path dist,
    p.constructFinalPath s p.model.nodes.length n = some (path, dist) →
      path.IsChain (Adjacent p.model.toModel)

/-- When `u` was expanded, in the state `t`, the road `r` through it offered `v`. -/
structure Offered (p : RoutePlanner K) (t : Search K) (r : Road) (u v : ℕ) : Prop where
  reached : p.Reached (.head t u)
  road : r ∈ p.model.roads
  type : r.type ≠ .footway
  current : u ∈ p.model.wayNodes r.way
  mem : v ∈ p.model.wayNodes r.way
  unvisited : (t.sNodes v).visited = false
  nearest : ∀ w ∈ p.model.wayNodes r.way, (t.sNodes w).visited = false →
    p.distance u w ≠ 0 → p.distance u v ≤ p.distance u w

variable {p : RoutePlanner K}

lemma offered_of_mem_picks {t : Search K} {u v : ℕ} (ht : p.Reached (.head t u))
    (hv : v ∈ p.picks t u) : ∃ r, Offered p t r u v := by
  obtain ⟨r, hr, hf⟩ := List.mem_filterMap.mp hv
  obtain ⟨hroad, htype, hu⟩ := (mem_nodeToRoad _ _ _).mp hr
  obtain ⟨hmem, hd, hvis⟩ := p.findNeighbor_some hf
  refine ⟨r, ht, hroad, htype, hu, hmem, hvis, fun w hw hwv hwd => ?_⟩
  exact (firstMin_some hf).2.2 w hw (by simp [hwv, hwd])

lemma Pass.mem_neighbors {l l' : Loop K} (hl : p.Reached l) (h : p.Pass l l') {u v : ℕ}
    (hv : v ∈ (l'.search.sNodes u).neighbors) : v ∈ (l.search.sNodes u).neighbors ∨
      ∃ t r, l = .head t u ∧ Offered p t r u v := by
  obtain ⟨s, c, depth, rfl, ht, hc, hnext⟩ := hl.popped h
  rw [hnext.perm.1, addNeighbors_neighbors] at hv
  split at hv
  · rename_i huc
    subst huc
    rcases mem_allNeighbors.mp hv with hold | hnew
    · exact .inl hold
    · obtain ⟨r, hr⟩ := offered_of_mem_picks hl hnew
      exact .inr ⟨s, r, rfl, hr⟩
  · exact .inl hv

/-- Every entry of a neighbors list was offered by a road at a loop head that the run has
passed. -/
lemma RunTo.offered {past : List (Loop K)} {l : Loop K} (h : p.RunTo past l) {u v : ℕ}
    (hv : v ∈ (l.search.sNodes u).neighbors) :
    ∃ t r, .head t u ∈ past ∧ Offered p t r u v := by
  induction h with
  | nil => simp [Loop.search, init_sNodes] at hv
  | @snoc past e w l hrun hstep ih =>
    obtain ⟨rfl, hpass⟩ := hstep
    rcases hpass.mem_neighbors (RunTo.reached hrun) hv with hold | ⟨t, r, rfl, ho⟩
    · obtain ⟨t, r, hmem, ho⟩ := ih hold
      exact ⟨t, r, List.mem_append_left _ hmem, ho⟩
    · exact ⟨t, r, by simp, ho⟩

/-! ### From the parents to the path -/

lemma parentWalk_chain {s : Search K} {depth : ℕ → ℕ} (ht : p.Tree s depth) {fuel c : ℕ}
    {path path' : List ℕ} {dist dist' : K} (hc : (s.sNodes c).visited)
    (hchain : (c :: path).IsChain fun a b => b ∈ (s.sNodes a).neighbors)
    (h : p.parentWalk s fuel c path dist = some (path', dist')) :
    (p.startNode :: path').IsChain fun a b => b ∈ (s.sNodes a).neighbors := by
  induction fuel generalizing c path dist with
  | zero => cases h
  | succ fuel ih =>
    rw [parentWalk] at h
    by_cases hs : c = p.startNode
    · subst hs
      rw [ht.start_parent] at h
      cases h
      exact hchain
    · obtain ⟨q, hq⟩ := ht.listed c hc hs
      have hch := ht.child q c hq
      rw [hch.parent] at h
      exact ih hch.parent_visited (.cons_cons hq hchain) h

lemma Stops.path_chain {s : Search K} {n fuel : ℕ} (h : p.Stops s n) {path : List ℕ} {dist : K}
    (hpath : p.constructFinalPath s fuel n = some (path, dist)) :
    path.IsChain fun a b => b ∈ (s.sNodes a).neighbors := by
  obtain ⟨depth, ht, hn⟩ := Reached.tree h
  unfold constructFinalPath at hpath
  cases hw : p.parentWalk s fuel n [] 0 with
  | none => simp [hw] at hpath
  | some r =>
    obtain ⟨path', dist'⟩ := r
    simp only [hw, Option.some.injEq, Prod.mk.injEq] at hpath
    obtain ⟨rfl, -⟩ := hpath
    exact parentWalk_chain ht hn (.singleton n) hw

/-- **Routes keep to the roads.** Of every two consecutive nodes of the path that a run of the
search leaves, the second is nearest to the first by straight line among the nodes of a road
of both that were not visited when the run came to expand the first. They are next to each
other on that road when a node next to the first was unvisited, and nearer to it than every
unvisited one that is not. -/
theorem route_legs (p : RoutePlanner K) (hpos : p.model.nodes.Nodup) {past : List (Loop K)}
    {s : Search K} {n fuel : ℕ} (h : p.RunTo past (.found s n)) {path : List ℕ} {dist : K}
    (hpath : p.constructFinalPath s fuel n = some (path, dist)) :
    path.IsChain fun u v => ∃ t, .head t u ∈ past ∧ ∃ r ∈ p.model.roads,
      r.type ≠ .footway ∧ u ∈ p.model.wayNodes r.way ∧ v ∈ p.model.wayNodes r.way ∧
      (t.sNodes v).visited = false ∧
      (∀ w ∈ p.model.wayNodes r.way, (t.sNodes w).visited = false →
        p.distance u v ≤ p.distance u w) ∧
      ∀ w, NextTo (p.model.wayNodes r.way) u w → (t.sNodes w).visited = false →
        (∀ x ∈ p.model.wayNodes r.way, (t.sNodes x).visited = false →
          ¬ NextTo (p.model.wayNodes r.way) u x → p.distance u w < p.distance u x) →
        NextTo (p.model.wayNodes r.way) u v := by
  refine (Stops.path_chain h.reached hpath).imp fun u v hv => ?_
  obtain ⟨t, r, hpast, ho⟩ := h.offered hv
  obtain ⟨depth, ht, hu⟩ := Reached.tree ho.reached
  have hnear : ∀ w ∈ p.model.wayNodes r.way, (t.sNodes w).visited = false →
      p.distance u v ≤ p.distance u w := by
    intro w hw hwv
    refine ho.nearest w hw hwv fun hd => ?_
    obtain rfl := eq_of_distance_eq hpos (ht.visited_lt u hu) (p.model.lt_of_mem hw) hd
    simp [Loop.search, Loop.node, hwv] at hu
  refine ⟨t, hpast, r, ho.road, ho.type, ho.current, ho.mem, ho.unvisited, hnear, ?_⟩
  intro w hw hwv hnearer
  by_contra hnext
  have hmem : w ∈ p.model.wayNodes r.way := by
    rcases hw with hw | hw
    · exact hw.subset (by simp)
    · exact hw.subset (by simp)
  exact absurd (hnear w hmem hwv) (not_le.mpr (hnearer v ho.mem ho.unvisited hnext))

/-- A road that goes out and comes back: from `0` to `1` at the far end, and on to `2`,
which lies near `0` again. -/
def hairpin : RoutePlanner ℤ where
  model := {
    nodes := [⟨0, 0⟩, ⟨10, 0⟩, ⟨1, 0⟩]
    ways := [⟨[0, 1, 2]⟩]
    roads := [⟨0, .residential⟩]
    metricScale := 1
    ways_in_range := by decide
    roads_in_range := by decide }
  metric := taxicab ℤ
  startNode := 0
  endNode := 2
  start_lt := by decide
  end_lt := by decide
  floatMax := 1000

lemma hairpin_stops : ∃ s, hairpin.Stops s 2 ∧
    hairpin.constructFinalPath s 3 2 = some ([0, 2], 1) := by
  have h : (hairpin.aStarSearch 1 hairpin.init 0).map
      (fun r => (r.2, hairpin.constructFinalPath r.1 3 r.2)) = some (2, some ([0, 2], 1)) := by
    decide
  obtain ⟨⟨s, n⟩, hrun, hobs⟩ := Option.map_eq_some_iff.mp h
  obtain ⟨rfl, hpath⟩ := Prod.mk.inj hobs
  exact ⟨s, hairpin.aStarSearch_reaches hrun, hpath⟩

/-- The route goes from `0` to `2` and leaves out the bend. -/
theorem hairpin_cuts_bend : hairpin.model.nodes.Nodup ∧ ¬ FollowsRoads hairpin := by
  refine ⟨by decide, fun h => ?_⟩
  obtain ⟨s, hs, hpath⟩ := hairpin_stops
  have hadj : Adjacent hairpin.model.toModel 0 2 :=
    List.isChain_pair.mp (h s 2 hs _ _ hpath)
  revert hadj
  decide

theorem route_legs_hairpin : ∃ past s, hairpin.RunTo past (.found s 2) ∧ ∃ t, .head t 0 ∈ past ∧
    (t.sNodes 2).visited = false ∧ ∀ w ∈ [0, 1, 2], (t.sNodes w).visited = false →
      hairpin.distance 0 2 ≤ hairpin.distance 0 w := by
  obtain ⟨s, hs, hpath⟩ := hairpin_stops
  obtain ⟨past, hrun⟩ := Reached.exists_run hs
  obtain ⟨t, ht, r, hr, -, -, -, hv, hnear, -⟩ :=
    List.isChain_pair.mp (route_legs hairpin (by decide) hrun hpath)
  obtain rfl : r = ⟨0, .residential⟩ := by simpa [hairpin] using hr
  exact ⟨past, s, hrun, t, ht, hv, hnear⟩

end SelfTraining.Route.RoutePlanner
