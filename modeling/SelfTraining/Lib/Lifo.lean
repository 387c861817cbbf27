import Mathlib.Data.List.Chain
import Mathlib.Data.List.Perm.Basic
import SelfTraining.Lib.Steps

/-!
A pile, last come first taken, as an abstract machine.

Its state is the pile from bottom to top. What is put on it comes back in another order, unless
something new is put on the pile each time before something is taken from it.
-/

namespace SelfTraining.Lifo

open Steps

variable {α β : Type*}

inductive Event (α : Type*) where
  | push (a : α)
  | pop (a : α)
  deriving DecidableEq

inductive Step : Event α → List α → List α → Prop where
  | push (a : α) (pile : List α) : Step (.push a) pile (pile ++ [a])
  | pop (a : α) (pile : List α) : Step (.pop a) (pile ++ [a]) pile

namespace Event

def pushed : Event α → Option α
  | .push a => some a
  | .pop _ => none

def popped : Event α → Option α
  | .push _ => none
  | .pop a => some a

def map (f : α → β) : Event α → Event β
  | .push a => .push (f a)
  | .pop a => .pop (f a)

end Event

/-- What has been put on the pile, in order. -/
def pushes (es : List (Event α)) : List α := es.filterMap Event.pushed

/-- What has been taken from the pile, in order. -/
def pops (es : List (Event α)) : List α := es.filterMap Event.popped

/-- Nothing is taken from the pile twice in a row. -/
def Fed (es : List (Event α)) : Prop :=
  es.IsChain fun e f => e.popped.isSome → f.popped = none

instance (es : List (Event α)) : Decidable (Fed es) := inferInstanceAs (Decidable (List.IsChain ..))

section

variable {es : List (Event α)} {e : Event α} {pile pile' : List α} {a : α}

@[simp] lemma pushes_push : pushes (es ++ [.push a]) = pushes es ++ [a] := by
  simp [pushes, Event.pushed]

@[simp] lemma pushes_pop : pushes (es ++ [.pop a]) = pushes es := by
  simp [pushes, Event.pushed]

@[simp] lemma pops_push : pops (es ++ [.push a]) = pops es := by
  simp [pops, Event.popped]

@[simp] lemma pops_pop : pops (es ++ [.pop a]) = pops es ++ [a] := by
  simp [pops, Event.popped]

lemma pile_sublist (h : Trace Step [] es pile) : pile.Sublist (pushes es) := by
  induction h with
  | nil => exact .refl _
  | snoc _ hstep ih =>
    cases hstep with
    | push a pile =>
      rw [pushes_push]
      exact ih.append_right [a]
    | pop a pile =>
      rw [pushes_pop]
      exact (List.sublist_append_left _ _).trans ih

/-- **Nothing is taken twice.** What has been taken and what is on the pile is what was put
there. -/
lemma pops_perm (h : Trace Step [] es pile) : (pops es ++ pile).Perm (pushes es) := by
  induction h with
  | nil => exact .refl _
  | snoc _ hstep ih =>
    cases hstep with
    | push a pile =>
      rw [pushes_push, pops_push, ← List.append_assoc]
      exact ih.append_right [a]
    | pop a pile =>
      rw [pushes_pop, pops_pop, List.append_assoc]
      exact (List.perm_append_comm.append_left _).trans ih

lemma pops_subset (h : Trace Step [] es pile) : pops es ⊆ pushes es := fun _ ha =>
  (pops_perm h).subset (List.mem_append_left _ ha)

lemma fed_push : Fed (es ++ [.push a]) ↔ Fed es := by
  unfold Fed
  rw [List.isChain_append]
  simp [Event.popped]

lemma fed_pop {f : Event α} :
    Fed (es ++ [f] ++ [.pop a]) ↔ Fed (es ++ [f]) ∧ f.popped = none := by
  unfold Fed
  rw [List.isChain_append]
  cases f <;> simp [Event.popped]

/-- What is taken after another comes later than all taken before if and only if it has just
been put on the pile. -/
lemma last_pop_iff {r : α → α → Prop} (hr : ∀ a b, r a b → ¬ r b a) {f : Event α}
    (h : Trace Step [] (es ++ [f]) (pile ++ [a])) (hpushes : (pushes (es ++ [f])).Pairwise r) :
    (∀ b ∈ pops (es ++ [f]), r b a) ↔ f.popped = none := by
  obtain ⟨t, hrun, hstep⟩ := h.exists_last
  cases f with
  | push b =>
    refine iff_of_true (fun c hc => ?_) rfl
    generalize hp : pile ++ [a] = p at hstep
    cases hstep with
    | push =>
      obtain rfl : a = b := by simpa using (List.append_inj' hp rfl).2
      rw [pops_push] at hc
      rw [pushes_push, List.pairwise_append] at hpushes
      exact hpushes.2.2 c (pops_subset hrun hc) a (by simp)
  | pop b =>
    refine iff_of_false (fun hall => ?_) (by simp [Event.popped])
    cases hstep with
    | pop =>
      -- the one below was put there earlier
      rw [pushes_pop] at hpushes
      have hsub := hpushes.sublist (pile_sublist hrun)
      have hab : r a b := by simpa using (List.pairwise_append.mp hsub).2.2 a (by simp) b (by simp)
      exact hr a b hab (hall b (by simp))

/-- **Order of taking.** Where what is put on the pile comes in the order `r`, what is taken
from it does if and only if nothing is taken twice in a row. -/
theorem pops_pairwise_iff {r : α → α → Prop} (hr : ∀ a b, r a b → ¬ r b a)
    (h : Trace Step [] es pile) (hpushes : (pushes es).Pairwise r) :
    (pops es).Pairwise r ↔ Fed es := by
  induction h with
  | nil => simp [pops, Fed]
  | @snoc es e t u hrun hstep ih =>
    cases hstep with
    | push a =>
      rw [pushes_push] at hpushes
      rw [pops_push, fed_push]
      exact ih (List.pairwise_append.mp hpushes).1
    | pop a =>
      rw [pushes_pop] at hpushes
      rcases List.eq_nil_or_concat es with rfl | ⟨es, f, rfl⟩
      · have hsub := pile_sublist hrun
        simp [pushes] at hsub
      · rw [List.concat_eq_append] at *
        rw [fed_pop, ← ih hpushes, ← last_pop_iff hr hrun hpushes, pops_pop, List.pairwise_append]
        simp

end

end SelfTraining.Lifo
