import Mathlib.Analysis.Complex.Norm
import Mathlib.Data.List.GetD
import SelfTraining.Lib.Metric

/-!
The map: nodes of the plane, ways through them, and the roads that name a way.

A node is read by its number, as the source reads its vectors. A `RouteModel` carries the
index integrity that the searches rely on: every road names a way and every way of the map
runs through nodes of the map.
-/

namespace SelfTraining.Route

open SelfTraining.Distance

structure Node (K : Type*) where
  x : K
  y : K
  deriving DecidableEq

structure Way where
  nodes : List ℕ
  deriving DecidableEq

inductive RoadType
  | invalid | unclassified | service | residential | tertiary | secondary | primary | trunk
  | motorway | footway
  deriving DecidableEq

structure Road where
  way : ℕ
  type : RoadType
  deriving DecidableEq

/-- The members of `Model` that the searches read. -/
structure Model (K : Type*) where
  nodes : List (Node K)
  ways : List Way
  roads : List Road
  metricScale : K

/-- `Ways()[w].nodes`. -/
def Model.wayNodes {K : Type*} (m : Model K) (w : ℕ) : List ℕ := (m.ways.getD w ⟨[]⟩).nodes

/-- A model whose numbers all name something. -/
structure RouteModel (K : Type*) extends Model K where
  ways_in_range : ∀ w ∈ ways, ∀ i ∈ w.nodes, i < nodes.length
  roads_in_range : ∀ r ∈ roads, r.way < ways.length

section Distances

/-- The distance of the source, over the reals. -/
noncomputable def euclid : Metric (Node ℝ) ℝ where
  dist a b := √((a.x - b.x) ^ 2 + (a.y - b.y) ^ 2)
  eq_zero_iff a b := by
    have h := Complex.dist_eq_re_im ⟨a.x, a.y⟩ ⟨b.x, b.y⟩
    rw [← h, dist_eq_zero, Complex.mk.injEq]
    cases a; cases b; simp
  symm a b := by
    have h := dist_comm (⟨a.x, a.y⟩ : ℂ) ⟨b.x, b.y⟩
    simpa only [Complex.dist_eq_re_im] using h
  triangle a b c := by
    have h := dist_triangle (⟨a.x, a.y⟩ : ℂ) ⟨b.x, b.y⟩ ⟨c.x, c.y⟩
    simpa only [Complex.dist_eq_re_im] using h

variable (K : Type*) [CommRing K] [LinearOrder K] [IsStrictOrderedRing K]

/-- A metric that can be evaluated; on a horizontal line it is the distance of the source. -/
def taxicab : Metric (Node K) K where
  dist a b := |a.x - b.x| + |a.y - b.y|
  eq_zero_iff a b := by
    have hx := abs_nonneg (a.x - b.x)
    have hy := abs_nonneg (a.y - b.y)
    constructor
    · intro h
      have h1 : a.x = b.x := by rw [← sub_eq_zero, ← abs_eq_zero]; linarith
      have h2 : a.y = b.y := by rw [← sub_eq_zero, ← abs_eq_zero]; linarith
      cases a; cases b; simp_all
    · rintro rfl; simp
  symm a b := by rw [abs_sub_comm a.x, abs_sub_comm a.y]
  triangle a b c := by
    have h1 := abs_sub_le a.x b.x c.x
    have h2 := abs_sub_le a.y b.y c.y
    linarith

lemma euclid_eq_taxicab (x x' y : ℝ) :
    euclid.dist ⟨x, y⟩ ⟨x', y⟩ = (taxicab ℝ).dist ⟨x, y⟩ ⟨x', y⟩ := by
  simp [euclid, taxicab, Real.sqrt_sq_eq_abs]

end Distances

/-! ### Which roads pass through a node -/

section Roads

variable {K : Type*}

/-- `node_to_road[node_idx].push_back(&road)`. -/
def pushRoad (r : Road) (table : ℕ → List Road) (i : ℕ) : ℕ → List Road :=
  Function.update table i (table i ++ [r])

/-- One turn of the outer loop: footways are left out. -/
def pushNodes (m : Model K) (table : ℕ → List Road) (r : Road) : ℕ → List Road :=
  if r.type ≠ .footway then (m.wayNodes r.way).foldl (pushRoad r) table else table

/-- The hash map from a node to the roads through it, built road by road. -/
def createNodeToRoadHashmap (m : Model K) : ℕ → List Road :=
  m.roads.foldl (pushNodes m) fun _ => []

lemma mem_foldl_pushRoad (r : Road) (l : List ℕ) (table : ℕ → List Road) (i : ℕ) (r' : Road) :
    r' ∈ l.foldl (pushRoad r) table i ↔ r' ∈ table i ∨ (r' = r ∧ i ∈ l) := by
  induction l generalizing table with
  | nil => simp
  | cons a l ih =>
    rw [List.foldl_cons, ih]
    by_cases h : i = a
    · subst h; simp [pushRoad]; tauto
    · simp [pushRoad, h]

lemma mem_pushNodes (m : Model K) (table : ℕ → List Road) (r r' : Road) (i : ℕ) :
    r' ∈ pushNodes m table r i ↔
      r' ∈ table i ∨ (r' = r ∧ r'.type ≠ .footway ∧ i ∈ m.wayNodes r'.way) := by
  unfold pushNodes
  split
  · rename_i h
    rw [mem_foldl_pushRoad]
    constructor
    · rintro (h' | ⟨rfl, h'⟩)
      · exact .inl h'
      · exact .inr ⟨rfl, h, h'⟩
    · rintro (h' | ⟨rfl, -, h'⟩)
      · exact .inl h'
      · exact .inr ⟨rfl, h'⟩
  · rename_i h
    constructor
    · exact .inl
    · rintro (h' | ⟨rfl, h', -⟩)
      · exact h'
      · exact absurd h' h

lemma mem_nodeToRoad (m : Model K) (i : ℕ) (r : Road) :
    r ∈ createNodeToRoadHashmap m i ↔
      r ∈ m.roads ∧ r.type ≠ .footway ∧ i ∈ m.wayNodes r.way := by
  have key : ∀ (l : List Road) (table : ℕ → List Road), r ∈ l.foldl (pushNodes m) table i ↔
      r ∈ table i ∨ (r ∈ l ∧ r.type ≠ .footway ∧ i ∈ m.wayNodes r.way) := by
    intro l
    induction l with
    | nil => simp
    | cons a l ih =>
      intro table
      rw [List.foldl_cons, ih, mem_pushNodes, List.mem_cons]
      tauto
  rw [createNodeToRoadHashmap, key]
  simp

/-- Two nodes lie on a common non-footway road. -/
def OnRoad (m : Model K) (i j : ℕ) : Prop :=
  ∃ r ∈ m.roads, r.type ≠ .footway ∧ i ∈ m.wayNodes r.way ∧ j ∈ m.wayNodes r.way

instance (m : Model K) (i j : ℕ) : Decidable (OnRoad m i j) :=
  inferInstanceAs (Decidable (∃ r ∈ m.roads, _))

lemma OnRoad.symm {m : Model K} {i j : ℕ} (h : OnRoad m i j) : OnRoad m j i := by
  obtain ⟨r, hr, ht, hi, hj⟩ := h
  exact ⟨r, hr, ht, hj, hi⟩

lemma RouteModel.lt_of_mem (m : RouteModel K) {w i : ℕ} (h : i ∈ m.wayNodes w) :
    i < m.nodes.length := by
  unfold Model.wayNodes at h
  by_cases hw : w < m.ways.length
  · rw [List.getD_eq_getElem _ _ hw] at h
    exact m.ways_in_range _ (List.getElem_mem hw) i h
  · rw [List.getD_eq_default _ _ (not_lt.mp hw)] at h
    simp at h

end Roads

end SelfTraining.Route
