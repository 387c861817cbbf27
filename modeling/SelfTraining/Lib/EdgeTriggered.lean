import Mathlib.Data.Set.Insert
import Mathlib.Data.List.Nodup
import Mathlib.Logic.Function.Basic

/-!
Edge-triggered readiness: a source becomes ready when something arrives at it, and stops to be
when it is reported.

The sources that a wait has reported are read one after the other, each once. What a read
leaves behind is reported again only if more arrives, so that nothing is left unread exactly
as long as every read takes all there is or is followed by another report.
-/

namespace SelfTraining.EdgeTriggered

variable {ι α : Type*} [DecidableEq ι]

structure Poller (ι α : Type*) where
  registered : Set ι
  buffer : ι → List α
  ready : Set ι
  /-- The sources that have been reported and not been read yet. -/
  batch : List ι

inductive Label (ι : Type*) where
  | arrive (i : ι)
  | close (i : ι)
  | add (i : ι)
  | wait
  | read (i : ι) (k : ℕ)
  | remove (i : ι)
  | quiet

/-- A source that is added with something to read is ready. -/
inductive Step : Label ι → Poller ι α → Poller ι α → Prop where
  | arrive {p : Poller ι α} (i : ι) (data : List α) : Step (.arrive i) p
      { p with
        buffer := Function.update p.buffer i (p.buffer i ++ data)
        ready := insert i p.ready }
  | close {p : Poller ι α} (i : ι) : Step (.close i) p { p with ready := insert i p.ready }
  | add {p : Poller ι α} {ready : Set ι} (i : ι) (hkeep : p.ready ⊆ ready)
      (hnew : i ∈ p.registered ∨ p.buffer i = [] ∨ i ∈ ready) :
    Step (.add i) p { p with registered := insert i p.registered, ready }
  | wait {p : Poller ι α} {events : List ι} (hbatch : p.batch = []) (hnodup : events.Nodup)
      (hevents : ∀ i ∈ events, i ∈ p.ready ∧ i ∈ p.registered) :
    Step .wait p { p with batch := events, ready := p.ready \ {i | i ∈ events} }
  | read {p : Poller ι α} {i : ι} {rest : List ι} (hbatch : p.batch = i :: rest) (k : ℕ) :
    Step (.read i k) p
      { p with buffer := Function.update p.buffer i ((p.buffer i).drop k), batch := rest }
  | remove {p : Poller ι α} {i : ι} {rest : List ι} (hbatch : p.batch = i :: rest) (k : ℕ) :
    Step (.remove i) p
      { p with
        registered := p.registered \ {i}
        buffer := Function.update p.buffer i ((p.buffer i).drop k)
        batch := rest }
  | quiet {p : Poller ι α} : Step .quiet p p

namespace Poller

variable {p p' : Poller ι α} {l : Label ι}

/-- A registered source that is neither ready nor reported has nothing to read. -/
def NothingLeft (p : Poller ι α) : Prop :=
  ∀ i ∈ p.registered, i ∉ p.ready → i ∉ p.batch → p.buffer i = []

/-- What is reported is registered, and reported once. -/
structure Sound (p : Poller ι α) : Prop where
  nodup : p.batch.Nodup
  registered : ∀ i ∈ p.batch, i ∈ p.registered

/-- A read takes all there is, or the source has become ready again. -/
def Drains (p : Poller ι α) : Label ι → Prop
  | .read i k => (p.buffer i).length ≤ k ∨ i ∈ p.ready
  | _ => True

lemma Sound.step (h : Sound p) (hstep : Step l p p') : Sound p' := by
  cases hstep with
  | arrive => exact ⟨h.nodup, h.registered⟩
  | close => exact ⟨h.nodup, h.registered⟩
  | add => exact ⟨h.nodup, fun j hj => .inr (h.registered j hj)⟩
  | wait _ hnodup hevents => exact ⟨hnodup, fun j hj => (hevents j hj).2⟩
  | @read _ i rest hbatch =>
    have hnodup := h.nodup
    rw [hbatch] at hnodup
    exact ⟨hnodup.of_cons, fun j hj => h.registered j (by simp [hbatch, hj])⟩
  | @remove _ i rest hbatch =>
    have hnodup := h.nodup
    rw [hbatch] at hnodup
    refine ⟨hnodup.of_cons, fun j hj => ⟨h.registered j (by simp [hbatch, hj]), ?_⟩⟩
    rintro rfl
    exact (List.nodup_cons.mp hnodup).1 hj
  | quiet => exact h

/-- **A step that drains** what it reads leaves nothing behind. -/
theorem NothingLeft.step (h : NothingLeft p) (hstep : Step l p p') (hd : p.Drains l) :
    NothingLeft p' := by
  cases hstep with
  | arrive i data =>
    intro j hj hready hbatch
    have hne : j ≠ i := fun heq => hready (.inl heq)
    simpa [hne] using h j hj (fun hr => hready (.inr hr)) hbatch
  | close i => exact fun j hj hready => h j hj fun hr => hready (.inr hr)
  | @add _ ready i hkeep hnew =>
    intro j hj hready hbatch
    by_cases hreg : j ∈ p.registered
    · exact h j hreg (fun hr => hready (hkeep hr)) hbatch
    · obtain rfl : j = i := hj.resolve_right hreg
      exact (hnew.resolve_left hreg).resolve_right hready
  | @wait _ events hbatch =>
    intro j hj hready hevents
    exact h j hj (fun hr => hready ⟨hr, hevents⟩) (by simp [hbatch])
  | @read _ i rest hbatch k =>
    intro j hj hready hrest
    by_cases hne : j = i
    · subst hne
      have hlen := hd.resolve_right hready
      simpa using hlen
    · simpa [hne] using h j hj hready (by simp [hbatch, hne, hrest])
  | @remove _ i rest hbatch k =>
    intro j hj hready hrest
    have hne : j ≠ i := hj.2
    simpa [hne] using h j hj.1 hready (by simp [hbatch, hne, hrest])
  | quiet => exact h

/-- A read that does not drain its source leaves something behind. -/
theorem not_nothingLeft_of_read (h : Sound p) (hstep : Step l p p') (hd : ¬ p.Drains l) :
    ¬ NothingLeft p' := by
  cases hstep with
  | @read _ i rest hbatch k =>
    obtain ⟨hlen, hready⟩ := not_or.mp hd
    intro hleft
    have hnodup := h.nodup
    rw [hbatch] at hnodup
    have hnil := hleft i (h.registered i (by simp [hbatch])) hready (List.nodup_cons.mp hnodup).1
    simp only [Function.update_self, List.drop_eq_nil_iff] at hnil
    exact hlen hnil
  | _ => exact absurd trivial hd

end Poller

end SelfTraining.EdgeTriggered
