import SelfTraining.Route.IndexIntegrity

/-!
Snapping a query point to the road network.

`FindClosestNode` looks at the nodes of the roads other than footways, which are those that the
table of the searches has roads for. It keeps the nearest one, but only of those that are nearer
than the largest `float`: without one `closest_idx` is used as it was found in memory.
-/

namespace SelfTraining.Route

open SelfTraining.Order SelfTraining.Lookup

variable {K F : Type*}

section Snaps

variable (a : Arithmetic K F) (m : Model K) (input : Node K)

/-- The node is returned whatever was in memory, it has roads for the searches, and no node of a
road other than a footway is nearer. -/
structure SnapsTo (node : RouteNode K) : Prop where
  assigned : ∀ garbage, findClosestNode a m input garbage = some node
  onRoad : ∃ r ∈ m.roads, r.type ≠ .footway ∧ node.index ∈ m.wayNodes r.way
  keyed : ∃ table, nodeToRoad m = some table ∧ table node.index ≠ []
  nearest : ∀ r ∈ m.roads, r.type ≠ .footway → ∀ i ∈ m.wayNodes r.way, ∀ other,
    (sNodes m)[i]? = some other →
      a.less (a.distance input other.toNode) (a.distance input node.toNode) = false

def Snaps : Prop := ∃ node, SnapsTo a m input node

variable {a m input}

lemma keyed_of_onRoad (hm : RoadsInRange m) {i : ℕ}
    (h : ∃ r ∈ m.roads, r.type ≠ .footway ∧ i ∈ m.wayNodes r.way) :
    ∃ table, nodeToRoad m = some table ∧ table i ≠ [] := by
  obtain ⟨r, hr, htype, hi⟩ := h
  exact ⟨_, nodeToRoad_eq hm, List.ne_nil_of_mem ((mem_nodeToRoad m i r).mpr ⟨hr, htype, hi⟩)⟩

lemma snaps_of_near (hless : Strict a.less) (hm : RoadsInRange m)
    (hnear : ∃ r ∈ m.roads, NearOnRoad a input m r) : Snaps a m input := by
  have hbelow := (exists_nearOnRoad_iff a input).mp hnear
  obtain ⟨node, hnode, hrun⟩ : ∃ node ∈ m.roads.flatMap (roadNodes m),
      (m.roads.flatMap (roadNodes m)).foldl (closestTurn a input) (0, a.floatMax) =
        ((node.index : ℤ), a.distance input node.toNode) := by
    rcases closestTurns_cases a input (m.roads.flatMap (roadNodes m)) (0, a.floatMax) with
      ⟨-, hfound⟩ | ⟨-, hnone⟩
    · exact hfound
    · obtain ⟨node, hnode, hless⟩ := hbelow
      rw [hnone node hnode] at hless
      cases hless
  have hleast : ∀ other ∈ m.roads.flatMap (roadNodes m), a.less (a.distance input other.toNode)
      ((m.roads.flatMap (roadNodes m)).foldl (closestTurn a input) (0, a.floatMax)).2 = false :=
    foldl_lessStep_least hless _ _
  rw [hrun] at hleast
  obtain ⟨r, hr, hmem⟩ := List.mem_flatMap.mp hnode
  obtain ⟨htype, hi, hget⟩ := mem_roadNodes.mp hmem
  have honRoad : ∃ r ∈ m.roads, r.type ≠ .footway ∧ node.index ∈ m.wayNodes r.way :=
    ⟨r, hr, htype, hi⟩
  refine ⟨node, fun garbage => ?_, honRoad, keyed_of_onRoad hm honRoad, ?_⟩
  · have hstart : (m.roads.flatMap (roadNodes m)).foldl (closestTurn a input)
        (garbage, a.floatMax) = ((node.index : ℤ), a.distance input node.toNode) :=
      (foldl_lessStep_start hbelow garbage 0).trans hrun
    rw [findClosestNode, closestLoop_eq a input hm, hstart, Option.bind_some]
    change (sNodes m)[node.index]? = some node
    rw [getElem?_sNodes, hget]
    rfl
  · intro r hr htype i hi other hother
    refine hleast other (List.mem_flatMap.mpr ⟨r, hr, mem_roadNodes.mpr ⟨htype, ?_⟩⟩)
    rw [getElem?_sNodes, Option.map_eq_some_iff] at hother
    obtain ⟨n, hn, rfl⟩ := hother
    exact ⟨hi, hn⟩

end Snaps

/-- **Snapping to the road network** works in a constructed map if and only if some node of a road
other than a footway is nearer to the query point than the largest `float`. -/
theorem snaps_iff {a : Arithmetic K F} {g : Growth} {doc : List XmlNode} {m : MapModel K}
    (hless : Strict a.less) (h : Constructs a g doc m) (input : Node K) :
    Snaps a m.toModel input ↔ ∃ r ∈ m.roads, NearOnRoad a input m.toModel r := by
  constructor
  · rintro ⟨node, hnode⟩
    have hsome : (findClosestNode a m.toModel input (-1)).isSome := by
      rw [hnode.assigned]
      rfl
    rw [findClosestNode_isSome a input h.roadsInRange] at hsome
    exact hsome.resolve_right (by omega)
  · exact snaps_of_near hless h.roadsInRange

lemma exactArithmetic_strict : Strict exactArithmetic.less where
  irrefl x := by simp [exactArithmetic]
  trans x y z hxy hyz := by
    simp only [exactArithmetic, decide_eq_true_eq] at *
    exact hxy.trans hyz

theorem snaps_iff_village : ∃ m, Constructs exactArithmetic doubling village m ∧
    Snaps exactArithmetic m.toModel ⟨0, 0⟩ := by
  have hbounds : selectNodes village "bounds" = [unitBounds] := rfl
  obtain ⟨m, hm⟩ := exists_village
  exact ⟨m, hm, (snaps_iff exactArithmetic_strict hm ⟨0, 0⟩).mpr
    ((nearOnRoad_iff hbounds hm).mpr village_near)⟩

/-- In a park there are only footways to snap to. -/
theorem park_not_snapped : ¬ ∀ (doc : List XmlNode) (m : MapModel ℝ) (input : Node ℝ),
    Constructs exactArithmetic doubling doc m → Snaps exactArithmetic m.toModel input := by
  intro hall
  obtain ⟨m, hm⟩ := exists_park
  obtain ⟨node, hnode⟩ := hall park m ⟨1 / 10, 1 / 10⟩ hm
  have hsome : (findClosestNode exactArithmetic m.toModel ⟨1 / 10, 1 / 10⟩ (-1)).isSome := by
    rw [hnode.assigned]
    rfl
  rw [park_isSome_iff hm] at hsome
  omega

end SelfTraining.Route
