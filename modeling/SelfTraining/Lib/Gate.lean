import SelfTraining.Lib.Steps

/-!
A gate that lets one through at a time, as an abstract machine.

The gate is free or held. Whoever enters a free gate holds it, and only the holder
leaves. A system keeps mutual exclusion when its entries and exits, in order, are a run of
the gate.
-/

namespace SelfTraining.Gate

open Steps

variable {α : Type*}

inductive Event (α : Type*) where
  | enter (a : α)
  | leave (a : α)
  deriving DecidableEq

/-- The gate's own steps; its state is the holder. -/
inductive Step : Event α → Option α → Option α → Prop where
  | enter (a : α) : Step (.enter a) none (some a)
  | leave (a : α) : Step (.leave a) (some a) none

/-- Those who have entered and not left, by the events alone. -/
def inside [DecidableEq α] : List (Event α) → List α :=
  List.foldl (fun as e => match e with
    | .enter a => a :: as
    | .leave a => as.erase a) []

variable [DecidableEq α]

@[simp] lemma inside_enter (es : List (Event α)) (a : α) :
    inside (es ++ [.enter a]) = a :: inside es := by
  simp [inside]

@[simp] lemma inside_leave (es : List (Event α)) (a : α) :
    inside (es ++ [.leave a]) = (inside es).erase a := by
  simp [inside]

lemma inside_eq {es : List (Event α)} {holder : Option α}
    (h : Trace Step none es holder) : inside es = holder.toList := by
  induction h with
  | nil => rfl
  | snoc _ hstep ih => cases hstep <;> simp [ih]

/-- **Mutual exclusion.** Along a run of the gate at most one is inside at a time. -/
theorem length_inside_le_one {es : List (Event α)} {holder : Option α}
    (h : Trace Step none es holder) : (inside es).length ≤ 1 := by
  rw [inside_eq h]
  cases holder <;> simp

lemma mem_inside_of_leave {es₁ es₂ : List (Event α)} {a : α} {holder : Option α}
    (h : Trace Step none (es₁ ++ .leave a :: es₂) holder) : a ∈ inside es₁ := by
  obtain ⟨g, _, hrun, hstep⟩ := h.step_at
  cases hstep
  simp [inside_eq hrun]

end SelfTraining.Gate
