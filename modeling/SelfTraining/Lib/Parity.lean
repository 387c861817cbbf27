import Mathlib.Algebra.Group.Even
import Mathlib.Algebra.Ring.Parity
import Mathlib.Algebra.BigOperators.Group.List.Basic

/-!
Degrees of a multigraph that is walked away edge by edge.

The edges are a list of pairs, so an edge may occur twice. Walking from `h` along edges that
are taken off the list, one always knows the parities of what is left: every degree is even
once the two ends of the walk are counted in. So a walk that has not come back to `h` can go
on, and one that has leaves even degrees behind.
-/

namespace SelfTraining.Parity

variable {V : Type*} [DecidableEq V]

/-- How many ends of the edge `e` lie at `v`. -/
def endsAt (v : V) (e : V × V) : ℕ := (if e.1 = v then 1 else 0) + (if e.2 = v then 1 else 0)

/-- The degree of `v`; a loop counts twice. -/
def degree (es : List (V × V)) (v : V) : ℕ := (es.map (endsAt v)).sum

@[simp] lemma degree_cons (e : V × V) (es : List (V × V)) (v : V) :
    degree (e :: es) v = endsAt v e + degree es v := by simp [degree]

lemma degree_perm {es fs : List (V × V)} (h : es.Perm fs) (v : V) : degree es v = degree fs v :=
  (h.map _).sum_eq

/-- What is left after a walk from `h` to `t` through a graph of even degrees. -/
def Balanced (es : List (V × V)) (h t : V) : Prop := ∀ v, Even (degree es v + endsAt v (h, t))

/-- Every degree is even. -/
def EvenDegrees (es : List (V × V)) : Prop := ∀ v, Even (degree es v)

lemma balanced_self {es : List (V × V)} {h : V} : Balanced es h h ↔ EvenDegrees es := by
  refine forall_congr' fun v => ?_
  have he : Even (endsAt v (h, h)) := by
    unfold endsAt
    split <;> decide
  rw [Nat.even_add]
  simp [he]

lemma EvenDegrees.balanced {e : V × V} {es fs : List (V × V)} (h : EvenDegrees es)
    (hp : es.Perm (e :: fs)) : Balanced fs e.1 e.2 := by
  intro v
  have := h v
  rw [degree_perm hp v, degree_cons, add_comm] at this
  exact this

/-- **Walking on.** Taking an edge at the end of the walk moves that end to its far side. -/
lemma Balanced.walk {h t u : V} {e : V × V} {es fs : List (V × V)} (hb : Balanced es h t)
    (hp : es.Perm (e :: fs)) (he : e = (t, u) ∨ e = (u, t)) : Balanced fs h u := by
  intro v
  have hv := hb v
  rw [degree_perm hp v, degree_cons] at hv
  have hsplit : endsAt v e + degree fs v + endsAt v (h, t) =
      degree fs v + endsAt v (h, u) + 2 * (if t = v then 1 else 0) := by
    rcases he with rfl | rfl <;> simp only [endsAt] <;> omega
  rw [hsplit, Nat.even_add] at hv
  exact hv.mpr (even_two_mul _)

/-- **No dead end.** A walk that has not come back has an edge to go on with. -/
lemma Balanced.exists_edge {h t : V} {es : List (V × V)} (hb : Balanced es h t) (hne : h ≠ t) :
    ∃ e ∈ es, e.1 = t ∨ e.2 = t := by
  by_contra hno
  push Not at hno
  have hzero : degree es t = 0 := by
    refine List.sum_eq_zero fun n hn => ?_
    obtain ⟨e, he, rfl⟩ := List.mem_map.mp hn
    obtain ⟨h1, h2⟩ := hno e he
    simp [endsAt, h1, h2]
  have := hb t
  rw [hzero] at this
  simp [endsAt, hne] at this

end SelfTraining.Parity
