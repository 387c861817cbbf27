import Mathlib.Logic.Relation
import Mathlib.Logic.Hydra

/-!
Runs of a step relation: what every run keeps, and when every run comes to an end.

A step relation may be nondeterministic. A state *ends in* `Q` when, whichever steps are
taken, the run stops after finitely many of them in a state of `Q` and is never stuck
before. The rank rule proves it from a measure that every step brings down.
-/

namespace SelfTraining.Steps

open Relation

variable {σ β : Type*} {step : σ → σ → Prop}

/-- The states a run from `s` can come to. -/
abbrev Reaches (step : σ → σ → Prop) : σ → σ → Prop := ReflTransGen step

/-- **The invariant rule.** What holds at the start and survives every step holds along
every run. -/
theorem Reaches.invariant {I : σ → Prop} {s t : σ} (h : Reaches step s t) (h0 : I s)
    (hstep : ∀ u v, I u → step u v → I v) : I t := by
  induction h with
  | refl => exact h0
  | tail _ huv ih => exact hstep _ _ ih huv

lemma Reaches.exists_exit {P : σ → Prop} {s t : σ} (h : Reaches step s t) (hs : P s)
    (ht : ¬ P t) : ∃ u v, step u v ∧ P u ∧ ¬ P v := by
  induction h with
  | refl => exact absurd hs ht
  | @tail u v _ huv ih =>
    by_cases hu : P u
    · exact ⟨u, v, huv, hu, ht⟩
    · exact ih hu

/-! ### Runs with their labels -/

/-- The runs of a labelled step relation, with the labels in order. -/
inductive Trace {ε : Type*} (step : ε → σ → σ → Prop) (s : σ) : List ε → σ → Prop where
  | nil : Trace step s [] s
  | snoc {es : List ε} {e : ε} {t u : σ} :
    Trace step s es t → step e t u → Trace step s (es ++ [e]) u

lemma Trace.exists_last {ε : Type*} {step : ε → σ → σ → Prop} {e : ε} {es : List ε} {s u : σ}
    (h : Trace step s (es ++ [e]) u) : ∃ t, Trace step s es t ∧ step e t u := by
  generalize hes : es ++ [e] = es' at h
  cases h with
  | nil => simp at hes
  | snoc hrun hstep =>
    obtain ⟨rfl, he⟩ := List.append_inj' hes rfl
    obtain rfl := List.singleton_inj.mp he
    exact ⟨_, hrun, hstep⟩

lemma Trace.step_of_singleton {ε : Type*} {step : ε → σ → σ → Prop} {e : ε} {s u : σ}
    (h : Trace step s [e] u) : step e s u := by
  obtain ⟨t, hnil, hstep⟩ : ∃ t, Trace step s [] t ∧ step e t u := h.exists_last
  generalize hes : ([] : List ε) = es' at hnil
  cases hnil with
  | nil => exact hstep
  | snoc => simp at hes

lemma Trace.cons {ε : Type*} {step : ε → σ → σ → Prop} {e : ε} {es : List ε} {s t u : σ}
    (h : step e s t) (hrun : Trace step t es u) : Trace step s (e :: es) u := by
  induction hrun with
  | nil => exact .snoc .nil h
  | snoc _ hstep ih => exact .snoc ih hstep

lemma Trace.mono_of_mem {ε : Type*} {step step' : ε → σ → σ → Prop} {es : List ε} {s t : σ}
    (h : Trace step s es t) (hstep : ∀ e ∈ es, ∀ u v, step e u v → step' e u v) :
    Trace step' s es t := by
  induction h with
  | nil => exact .nil
  | snoc _ huv ih =>
    exact .snoc (ih fun e he => hstep e (by simp [he])) (hstep _ (by simp) _ _ huv)

lemma Trace.mono {ε : Type*} {step step' : ε → σ → σ → Prop} {es : List ε} {s t : σ}
    (h : Trace step s es t) (hstep : ∀ e u v, step e u v → step' e u v) :
    Trace step' s es t :=
  h.mono_of_mem fun e _ => hstep e

lemma Trace.reaches {ε : Type*} {step : ε → σ → σ → Prop} {es : List ε} {s t : σ}
    (h : Trace step s es t) : Reaches (fun s t => ∃ e, step e s t) s t := by
  induction h with
  | nil => exact .refl
  | snoc _ hstep ih => exact .tail ih ⟨_, hstep⟩

lemma Reaches.exists_trace {ε : Type*} {step : ε → σ → σ → Prop} {s t : σ}
    (h : Reaches (fun s t => ∃ e, step e s t) s t) : ∃ es, Trace step s es t := by
  induction h with
  | refl => exact ⟨[], .nil⟩
  | tail _ hstep ih =>
    obtain ⟨es, hrun⟩ := ih
    obtain ⟨e, he⟩ := hstep
    exact ⟨es ++ [e], hrun.snoc he⟩

lemma Trace.append {ε : Type*} {step : ε → σ → σ → Prop} {es₁ es₂ : List ε} {s t u : σ}
    (h₁ : Trace step s es₁ t) (h₂ : Trace step t es₂ u) : Trace step s (es₁ ++ es₂) u := by
  induction h₂ with
  | nil => simpa using h₁
  | snoc _ hstep ih =>
    rw [← List.append_assoc]
    exact .snoc ih hstep

/-- Every label of a run is that of a step from the state its run had come to. -/
lemma Trace.step_at {ε : Type*} {step : ε → σ → σ → Prop} {s u : σ} {es₁ es₂ : List ε} {e : ε}
    (h : Trace step s (es₁ ++ e :: es₂) u) : ∃ t t', Trace step s es₁ t ∧ step e t t' := by
  generalize hes : es₁ ++ e :: es₂ = es at h
  induction h generalizing es₂ with
  | nil => simp at hes
  | @snoc es e' t v hrun hstep ih =>
    rcases List.eq_nil_or_concat es₂ with rfl | ⟨es₂', e₂, rfl⟩
    · obtain ⟨rfl, he⟩ := List.append_inj' hes rfl
      obtain rfl : e = e' := by simpa using he
      exact ⟨t, v, hrun, hstep⟩
    · apply ih
      rw [List.concat_eq_append, ← List.cons_append, ← List.append_assoc] at hes
      exact (List.append_inj' hes rfl).1

/-- **The simulation rule.** If every step of one system can be matched by the other,
silently or by a step with the label observed in its place, then every run of the first
shows, through its observations, a run of the second. -/
theorem Trace.simulate {ε δ τ : Type*} {step : ε → σ → σ → Prop} {step' : δ → τ → τ → Prop}
    {obs : ε → Option δ} {R : σ → τ → Prop}
    (hsim : ∀ e s t a, R s a → step e s t →
      ∃ b, Trace step' a (obs e).toList b ∧ R t b)
    {s t : σ} {a : τ} {es : List ε} (h : Trace step s es t) (hs : R s a) :
    ∃ b, Trace step' a (es.filterMap obs) b ∧ R t b := by
  induction h with
  | nil => exact ⟨a, .nil, hs⟩
  | @snoc es e u v _ hstep ih =>
    obtain ⟨b, hab, hub⟩ := ih
    obtain ⟨c, hbc, hvc⟩ := hsim e u v b hub hstep
    refine ⟨c, ?_, hvc⟩
    have hobs : (es ++ [e]).filterMap obs = es.filterMap obs ++ (obs e).toList := by
      cases he : obs e <;> simp [he]
    rw [hobs]
    exact hab.append hbc

/-- A run that comes to a set of states comes to it by one of its steps. -/
lemma Trace.exists_entry {ε : Type*} {step : ε → σ → σ → Prop} {P : σ → Prop} {s t : σ}
    {es : List ε} (h : Trace step s es t) (hs : ¬ P s) (ht : P t) :
    ∃ es₁ e es₂ u v, es = es₁ ++ e :: es₂ ∧ Trace step s es₁ u ∧ step e u v ∧ ¬ P u ∧ P v := by
  induction h with
  | nil => exact absurd ht hs
  | @snoc es e u v hrun hstep ih =>
    by_cases hu : P u
    · obtain ⟨es₁, e₁, es₂, u₁, v₁, rfl, h₁⟩ := ih hu
      exact ⟨es₁, e₁, es₂ ++ [e], u₁, v₁, by simp, h₁⟩
    · exact ⟨es, e, [], u, v, rfl, hrun, hstep, hu, ht⟩

/-! ### Runs that come to an end -/

/-- Every run from the state comes to an end in `Q`, and none is stuck before. -/
inductive Ends (step : σ → σ → Prop) (Q : σ → Prop) : σ → Prop where
  | done {s : σ} : Q s → Ends step Q s
  | move {s : σ} : (∃ t, step s t) → (∀ t, step s t → Ends step Q t) → Ends step Q s

/-- **The rank rule.** `I b s` says that `s` is a sound state of rank `b`. If a sound state
outside `Q` has a step, and every step leads to a sound state of smaller rank, then every
sound state ends in `Q`. -/
theorem Ends.of_rank {r : β → β → Prop} (hr : WellFounded r) {I : β → σ → Prop}
    {Q : σ → Prop}
    (h : ∀ b s, I b s → Q s ∨ (∃ t, step s t) ∧ ∀ t, step s t → ∃ b', r b' b ∧ I b' t)
    {b : β} {s : σ} (hs : I b s) : Ends step Q s := by
  induction b using hr.induction generalizing s with
  | _ b ih =>
    rcases h b s hs with hq | ⟨hex, hall⟩
    · exact .done hq
    · refine .move hex fun t ht => ?_
      obtain ⟨b', hb', ht'⟩ := hall t ht
      exact ih b' hb' ht'

lemma Ends.exists_reaches {Q : σ → Prop} {s : σ} (h : Ends step Q s) :
    ∃ t, Reaches step s t ∧ Q t := by
  induction h with
  | done hq => exact ⟨_, .refl, hq⟩
  | move hex _ ih =>
    obtain ⟨t, ht⟩ := hex
    obtain ⟨u, hu, hq⟩ := ih t ht
    exact ⟨u, .head ht hu, hq⟩

lemma Ends.of_reaches {Q Q' : σ → Prop} {s : σ} (h : Ends step Q s)
    (hq : ∀ t, Reaches step s t → Q t → Q' t) : Ends step Q' s := by
  induction h with
  | done hs => exact .done (hq _ .refl hs)
  | move hex _ ih => exact .move hex fun t ht => ih t ht fun u hu => hq u (.head ht hu)

/-- **The simulation rule for ends.** A related system comes to an end with the first one,
if it is where it should be when the first one is, and otherwise matches each of its steps
and is stuck only with it. -/
theorem Ends.simulate {τ : Type*} {step' : τ → τ → Prop} {Q : σ → Prop} {Q' : τ → Prop}
    {R : σ → τ → Prop} (hdone : ∀ s a, R s a → Q s → Q' a)
    (hstep : ∀ s a, R s a → (∃ t, step s t) →
      Q' a ∨ (∃ b, step' a b) ∧ ∀ b, step' a b → ∃ t, step s t ∧ R t b)
    {s : σ} {a : τ} (h : Ends step Q s) (hs : R s a) : Ends step' Q' a := by
  induction h generalizing a with
  | done hq => exact .done (hdone _ _ hs hq)
  | move hex _ ih =>
    rcases hstep _ _ hs hex with hq | ⟨hex', hall⟩
    · exact .done hq
    · refine .move hex' fun b hb => ?_
      obtain ⟨t, ht, htb⟩ := hall b hb
      exact ih t ht htb

/-! ### One thing after the other -/

/-- Ranks of the items still to be worked on. -/
abbrev Below (m m' : Multiset ℕ) : Prop := CutExpand (· < ·) m m'

lemma below_wf : WellFounded Below := Nat.lt_wfRel.wf.cutExpand

/-- Replacing one item by any number of items of smaller rank brings the rank down. -/
lemma below_of_replace {a : ℕ} {rest new : Multiset ℕ} (h : ∀ b ∈ new, b < a) :
    Below (rest + new) (a ::ₘ rest) := by
  refine ⟨new, a, h, ?_⟩
  rw [← Multiset.singleton_add a rest, add_comm]
  rw [add_assoc]

end SelfTraining.Steps
