import Mathlib.Algebra.Order.Ring.Defs
import Mathlib.Tactic.Linarith

/-!
Exact distances, and the length of a sequence of points.

Distances take their values in an ordered ring, so that a distance can be computed with
where the ring can.
-/

namespace SelfTraining.Distance

/-- A metric on the points `P` with values in `K`. -/
structure Metric (P K : Type*) [CommRing K] [LinearOrder K] [IsStrictOrderedRing K] where
  dist : P → P → K
  eq_zero_iff : ∀ a b, dist a b = 0 ↔ a = b
  symm : ∀ a b, dist a b = dist b a
  triangle : ∀ a b c, dist a c ≤ dist a b + dist b c

section Len

variable {ι K : Type*} [AddCommMonoid K]

/-- The sum of `w` over consecutive elements. -/
def pathLen (w : ι → ι → K) : List ι → K
  | [] => 0
  | [_] => 0
  | a :: b :: l => w a b + pathLen w (b :: l)

variable (w : ι → ι → K)

@[simp] lemma pathLen_singleton (a : ι) : pathLen w [a] = 0 := rfl
@[simp] lemma pathLen_cons_cons (a b : ι) (l : List ι) :
    pathLen w (a :: b :: l) = w a b + pathLen w (b :: l) := rfl

lemma pathLen_snoc (l : List ι) (a b : ι) :
    pathLen w (l ++ [a, b]) = pathLen w (l ++ [a]) + w a b := by
  induction l with
  | nil => simp
  | cons c l ih =>
    cases l with
    | nil => simp
    | cons d l =>
      simp only [List.cons_append, pathLen_cons_cons] at ih ⊢
      rw [ih, add_assoc]

end Len

variable {P K ι : Type*} [CommRing K] [LinearOrder K] [IsStrictOrderedRing K]

@[simp] lemma Metric.dist_self (δ : Metric P K) (a : P) : δ.dist a a = 0 :=
  (δ.eq_zero_iff a a).mpr rfl

lemma Metric.nonneg (δ : Metric P K) (a b : P) : 0 ≤ δ.dist a b := by
  have h := δ.triangle a b a
  rw [δ.dist_self, δ.symm b a] at h
  linarith

/-- Going straight is no longer than going through the points of a sequence. -/
lemma dist_le_pathLen (δ : Metric P K) (pos : ι → P) (l : List ι) (a b : ι) :
    δ.dist (pos a) (pos b) ≤
      pathLen (fun i j => δ.dist (pos i) (pos j)) (a :: (l ++ [b])) := by
  induction l generalizing a with
  | nil => simp
  | cons c l ih =>
    calc δ.dist (pos a) (pos b) ≤ δ.dist (pos a) (pos c) + δ.dist (pos c) (pos b) :=
          δ.triangle _ _ _
      _ ≤ δ.dist (pos a) (pos c) +
            pathLen (fun i j => δ.dist (pos i) (pos j)) (c :: (l ++ [b])) := by
          apply add_le_add_right
          exact ih c
      _ = pathLen (fun i j => δ.dist (pos i) (pos j)) (a :: (c :: l ++ [b])) := by
          rw [List.cons_append, pathLen_cons_cons]

end SelfTraining.Distance
