import Mathlib.Data.List.Basic

/-!
The first element of a list that a search finds, and the value that the search gives.
-/

namespace SelfTraining.First

variable {α β : Type*}

/-- The first element of which `p` holds. -/
structure FirstOf (p : α → Prop) (l : List α) (a : α) : Prop where
  holds : p a
  first : ∃ before after, l = before ++ a :: after ∧ ∀ b ∈ before, ¬ p b

/-- The search for such an element gives `b`: the value of the first one, or the default. -/
def Gives (f : α → β) (d : β) (p : α → Prop) (l : List α) (b : β) : Prop :=
  (∃ a, FirstOf p l a ∧ f a = b) ∨ (∀ a ∈ l, ¬ p a) ∧ d = b

/-- What a search gives: a value of the element it finds, or a default. -/
def valueOf (f : α → β) (d : β) (p : α → Bool) (l : List α) : β := ((l.find? p).map f).getD d

section

variable {p : α → Bool} {l : List α} {a : α} {f : α → β} {d b : β}

lemma firstOf_iff : FirstOf (fun a => p a = true) l a ↔ l.find? p = some a := by
  rw [List.find?_eq_some_iff_append]
  constructor
  · rintro ⟨ha, before, after, hl, hbefore⟩
    exact ⟨ha, before, after, hl, fun b hb => by simp [hbefore b hb]⟩
  · rintro ⟨ha, before, after, hl, hbefore⟩
    exact ⟨ha, before, after, hl, fun b hb => by simpa using hbefore b hb⟩

lemma gives_iff : Gives f d (fun a => p a = true) l b ↔ valueOf f d p l = b := by
  unfold Gives valueOf
  simp only [firstOf_iff, ← List.find?_eq_none]
  cases l.find? p with
  | none => simp
  | some a => simp

lemma valueOf_cons : valueOf f d p (a :: l) = if p a then f a else valueOf f d p l := by
  unfold valueOf
  rw [List.find?_cons]
  cases p a with
  | false => rfl
  | true => rfl

end

end SelfTraining.First
