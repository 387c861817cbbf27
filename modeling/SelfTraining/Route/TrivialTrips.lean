import SelfTraining.Route.Termination

/-!
Trips that end where they start.

The loop expands the start node before it looks at any node, and what it looks at afterwards
comes from the open list, where the visited start node never stands. With one node for both
ends the search goes on until it asks for the back of an empty open list.
-/

namespace SelfTraining.Route.RoutePlanner

open SelfTraining.Distance SelfTraining.Steps

variable {K : Type*} [CommRing K] [LinearOrder K] [IsStrictOrderedRing K]

/-- The search stops at the end of every run, never asks for the back of an empty open list,
and leaves the start node alone as the path, and the distance zero. -/
def TripSucceeds (p : RoutePlanner K) : Prop :=
  Ends p.Pass (fun l => ∃ s n, l = .found s n ∧
    ∃ fuel, p.constructFinalPath s fuel n = some ([p.startNode], 0)) (.head p.init p.startNode)

variable {p : RoutePlanner K}

lemma Stops.ne_start {s : Search K} {n : ℕ} (h : p.Stops s n) : n ≠ p.startNode := by
  obtain ⟨t, c, hreach, hnext, -⟩ := h.last
  obtain ⟨depth, ht, hc⟩ := Reached.tree hreach
  exact ((Tree.expand ht hc).nextNode hnext).2.2

lemma not_stops_of_eq (hpos : p.model.nodes.Nodup) (heq : p.startNode = p.endNode)
    (s : Search K) (n : ℕ) : ¬ p.Stops s n := by
  intro h
  obtain ⟨t, c, -, -, hd⟩ := h.last
  obtain ⟨depth, ht, hv⟩ := Reached.tree h
  have hn : n = p.endNode := eq_of_distance_eq hpos (ht.visited_lt n hv) p.end_lt hd
  exact h.ne_start (hn.trans heq.symm)

lemma not_tripSucceeds (hpos : p.model.nodes.Nodup) (heq : p.startNode = p.endNode) :
    ¬ TripSucceeds p := by
  intro h
  obtain ⟨l, hl, s, n, rfl, -⟩ := Ends.exists_reaches h
  exact not_stops_of_eq hpos heq s n hl

/-- **No trivial trip succeeds.** On every map whose nodes have distinct positions, a search
from a node to itself comes, in every run, to an expansion that leaves the open list empty,
and asks for its back. -/
theorem trivial_trip_fails (p : RoutePlanner K) (hpos : p.model.nodes.Nodup)
    (heq : p.startNode = p.endNode) :
    ¬ TripSucceeds p ∧
    Ends p.Pass (fun l => ∃ s c, l = .head s c ∧ (p.addNeighbors s c).openList = [])
      (.head p.init p.startNode) := by
  refine ⟨not_tripSucceeds hpos heq, (search_ends p).of_reaches fun l hl hq => ?_⟩
  rcases hq with ⟨s, n, rfl⟩ | hq
  · exact absurd hl (not_stops_of_eq hpos heq s n)
  · exact hq

/-- Two nodes and a road, and a trip that ends where it starts. -/
def samePlace : RoutePlanner ℤ where
  model := {
    nodes := [⟨0, 0⟩, ⟨0, 5⟩]
    ways := [⟨[1, 0]⟩]
    roads := [⟨0, .residential⟩]
    metricScale := 1
    ways_in_range := by decide
    roads_in_range := by decide }
  metric := taxicab ℤ
  startNode := 0
  endNode := 0
  start_lt := by decide
  end_lt := by decide
  floatMax := 1000

theorem trivial_trip_fails_samePlace : ¬ TripSucceeds samePlace :=
  (trivial_trip_fails samePlace (by decide) rfl).1

/-- The search goes to the node `1`, which has no neighbors left to offer. -/
theorem samePlace_nothing_left : ¬ TripSucceeds samePlace ∧
    ∃ s, samePlace.Reached (.head s 1) ∧ (samePlace.addNeighbors s 1).openList = [] := by
  refine ⟨not_tripSucceeds (by decide) rfl, ?_⟩
  have hrun : (nextNode (samePlace.addNeighbors samePlace.init 0)).map
      (fun r => (r.1, (samePlace.addNeighbors r.2 1).openList)) = some (1, []) := by decide
  obtain ⟨⟨n, s⟩, hnext, hobs⟩ := Option.map_eq_some_iff.mp hrun
  obtain ⟨rfl, hopen⟩ := Prod.mk.inj hobs
  exact ⟨s, .single (.again (nextNode_sound hnext) (by decide)), hopen⟩

end SelfTraining.Route.RoutePlanner
