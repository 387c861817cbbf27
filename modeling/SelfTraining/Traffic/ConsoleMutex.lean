import SelfTraining.Traffic.RedLight

/-!
The mutex that protects the console is shared by all intersections, and `addVehicleToQueue`
holds it over the wait for green. Whoever waits at a red light so stops whoever has to print,
at any other intersection.
-/

namespace SelfTraining.Traffic

open Steps

namespace Lights

variable {l m : Lights} {e : Event}

/-- Whoever is not away holds the mutex. -/
def Held (l : Lights) : Prop := ∀ v, l.place v ≠ .away → l.mtx = some v

/-- **One step keeps the mutex with whoever is not away.** -/
lemma Held.step (h : Held l) (hstep : Step e l m) : Held m := by
  -- a vehicle that stays where it holds the mutex
  have hstay : ∀ {v place}, l.place v ≠ .away → Held (l.setPlace v place) := by
    intro v place hv w hw
    by_cases hwv : w = v
    · subst hwv
      exact h w hv
    · exact h w (by simpa [hwv] using hw)
  -- a vehicle that gives the mutex back
  have hback : ∀ {v}, l.place v ≠ .away → Held { l.setPlace v .away with mtx := none } := by
    intro v hv w hw
    by_cases hwv : w = v
    · subst hwv
      simp at hw
    · have hw' : l.mtx = some w := h w (by simpa [hwv] using hw)
      rw [h v hv, Option.some.injEq] at hw'
      exact absurd hw'.symm hwv
  cases hstep with
  | quiet => exact h
  | turn => exact h
  | @lock _ v hv hm place _ =>
    intro w hw
    by_cases hwv : w = v
    · subst hwv
      rfl
    · have hw' : l.mtx = some w := h w (by simpa [hwv] using hw)
      rw [hm] at hw'
      cases hw'
  | unlock hv => exact hback (by simp [hv])
  | getCurrentPhase hv => exact hstay (by simp [hv])
  | receive hv => exact hstay (by simp [hv])
  | returns hv => exact hback (by simp [hv])
  | toggle => exact h
  | send => exact h

lemma not_waiting_step (h : ∀ v, l.place v ≠ .waiting) (hstep : Step e l m)
    (hgreen : ∀ i v, e ≠ .getCurrentPhase i v .red) : ∀ v, m.place v ≠ .waiting := by
  have hset : ∀ {v place}, place ≠ .waiting → ∀ w, (l.setPlace v place).place w ≠ .waiting := by
    intro v place hp w
    by_cases hwv : w = v
    · subst hwv
      simpa using hp
    · simpa [hwv] using h w
  cases hstep with
  | quiet => exact h
  | turn => exact h
  | lock _ _ place hplace =>
    rcases hplace with rfl | rfl
    · exact hset (by simp)
    · exact hset (by simp)
  | unlock => exact hset (by simp)
  | getCurrentPhase =>
    refine hset ?_
    split
    · rename_i hred
      rw [hred] at hgreen
      exact absurd rfl (hgreen _ _)
    · simp
  | @receive _ v _ _ hv => exact absurd hv (h v)
  | returns => exact hset (by simp)
  | toggle => exact h
  | send => exact h

lemma waiting_of_red {i v : Id} (hstep : Step (.getCurrentPhase i v .red) l m) :
    m.place v = .waiting := by
  generalize he : Event.getCurrentPhase i v .red = e at hstep
  cases hstep with
  | quiet hd =>
    subst he
    exact hd.elim
  | getCurrentPhase =>
    obtain ⟨rfl, rfl, hred⟩ := by simpa using he
    simp [← hred]
  | _ => simp at he

end Lights

/-! ### Who is prevented by whom -/

section Blocking

variable {R : Type} [Double R] {net : Network} {street destination : Id → Id} {s : State R}
  {es : List Event}

/-- The vehicle's thread can take its next step, at some time and with some draw. -/
def CanStep (net : Network) (s : State R) (v : Id) : Prop :=
  ∃ time draw e t, drive net s v time draw = some (e, t)

/-- `v` could take its next step if `w` did not hold the mutex. -/
def Prevents (net : Network) (s : State R) (w v : Id) : Prop :=
  s.mtx = some w ∧ ¬ CanStep net s v ∧ CanStep net { s with mtx := none } v

/-- No vehicle that was granted entry at an intersection with a green light is prevented by one
that waits for green at another, and no thread holds the mutex while it waits. -/
structure Independent (net : Network) (s : State R) : Prop where
  goes_on : ∀ v w, (s.vehicles v).currDestination ≠ (s.vehicles w).currDestination →
    s.crossings.Granted v →
    (s.intersections (s.vehicles v).currDestination).trafficLight.currentPhase = .green →
    (s.vehicles w).pc = .addVehicleToQueue .waitForGreen → ¬ Prevents net s w v
  unheld : ∀ w, (s.vehicles w).pc = .addVehicleToQueue .waitForGreen → s.mtx ≠ some w

omit [Double R] in
lemma place_eq_waiting {x : Vehicle R} :
    x.place = .waiting ↔ x.pc = .addVehicleToQueue .waitForGreen := by
  unfold Vehicle.place
  rcases x.pc with _ | _ | _ | pc | _ | _ | _ | _
  case addVehicleToQueue => cases pc <;> simp
  all_goals simp

lemma run_held (h : Trace (Step net) (init street destination) es s) : s.lights.Held :=
  h.reaches.invariant (I := fun s => s.lights.Held)
    (by intro v hv; simp [State.lights, init, Vehicle.place] at hv)
    fun _ _ hu ⟨_, hstep⟩ => hu.step (step_lights hstep)

lemma independent_iff (h : Trace (Step net) (init street destination) es s) :
    Independent net s ↔ ∀ v, s.lights.place v ≠ .waiting := by
  constructor
  · intro hind v hv
    exact hind.unheld v (place_eq_waiting.mp hv) (run_held h v (by simp [hv]))
  · intro hno
    have hpc : ∀ w, (s.vehicles w).pc ≠ .addVehicleToQueue .waitForGreen :=
      fun w hw => hno w (place_eq_waiting.mpr hw)
    exact ⟨fun _ w _ _ _ hw => absurd hw (hpc w), fun w hw => absurd hw (hpc w)⟩

/-- **Intersections do not block one another** in a run in which each vehicle finds its light
green when it checks it. As soon as one finds it red, they do. -/
theorem intersections_independent :
    (∀ es (s : State R),
      Trace (fun e s t => Step net e s t ∧ GreenCheck e s) (init street destination) es s →
      Independent net s) ∧
    ∀ es (s t : State R) e, Trace (Step net) (init street destination) es s → Step net e s t →
      ¬ GreenCheck e s → ¬ Independent net t := by
  constructor
  · intro es s hrun
    refine (independent_iff (hrun.mono fun _ _ _ h => h.1)).mpr ?_
    refine hrun.reaches.invariant (I := fun s => ∀ v, s.lights.place v ≠ .waiting) ?_ ?_
    · intro v
      simp [State.lights, init, Vehicle.place]
    · rintro u v hu ⟨e, hstep, hgreen⟩
      exact Lights.not_waiting_step hu (step_lights hstep) ((greenCheck_iff hstep).mp hgreen)
  · intro es s t e hrun hstep hred hind
    obtain ⟨i, v, rfl⟩ : ∃ i v, e = .getCurrentPhase i v .red := by
      simpa [greenCheck_iff hstep] using hred
    exact (independent_iff (hrun.snoc hstep)).mp hind v
      (Lights.waiting_of_red (step_lights hstep))

lemma prevents_of_relock {v w : Id} (hv : (s.vehicles v).pc = .addVehicleToQueue .relock)
    (hw : s.mtx = some w) : Prevents net s w v := by
  refine ⟨hw, ?_, 0, 0, ?_⟩
  · rintro ⟨time, draw, e, t, h⟩
    simp [drive, hv, addVehicleToQueue, lock, hw] at h
  · simp [drive, hv, addVehicleToQueue, lock]

end Blocking

/-- Vehicle 2 is granted entry at intersection 1, whose light is green; then vehicle 1 finds
the light of intersection 0 red. -/
def redElsewhere : List Thread :=
  .replicate 6 (.drive 2 3000 0) ++ .replicate 4 (.processVehicleQueue 1) ++
    [.cycleThroughPhases 1, .drive 2 3000 0] ++ .replicate 6 (.drive 1 3000 0) ++
    .replicate 4 (.processVehicleQueue 0) ++ .replicate 3 (.drive 1 3000 0)

/-- The second vehicle cannot go on, though its light is green. -/
theorem waits_at_other_intersection : ¬ ∀ (net : Network) (street destination : Id → Id)
    (es : List Event) (s : State ℚ), Trace (Step net) (init street destination) es s →
    Independent net s := by
  intro h
  have hplay : (play deadEnd (init (fun _ => 0) (fun v => v - 1) : State ℚ) redElsewhere).map
      (fun run => (((run.2.vehicles 1).pc, (run.2.vehicles 1).currDestination),
        ((run.2.vehicles 2).pc, (run.2.vehicles 2).currDestination),
        (run.2.intersections 1).trafficLight.currentPhase, run.2.mtx)) =
      some ((.addVehicleToQueue .waitForGreen, 0), (.addVehicleToQueue .relock, 1), .green,
        some 1) := by
    decide +kernel
  obtain ⟨⟨es, s⟩, hrun, hs⟩ := Option.map_eq_some_iff.mp hplay
  obtain ⟨⟨hpc₁, hdest₁⟩, ⟨hpc₂, hdest₂⟩, hgreen, hmtx⟩ := by simpa using hs
  have hgranted : s.crossings.Granted 2 := .inl (by simp [State.crossings, Vehicle.stage, hpc₂])
  exact (h _ _ _ _ _ (play_trace hrun)).goes_on 2 1 (by simp [hdest₁, hdest₂]) hgranted
    (by rw [hdest₂]; exact hgreen) hpc₁ (prevents_of_relock hpc₂ hmtx)

/-- Both vehicles are granted entry and find their lights green; the second is let through first,
and the first after it. -/
def greenElsewhere : List Thread :=
  .replicate 6 (.drive 2 3000 0) ++ .replicate 6 (.drive 1 3000 0) ++
    .replicate 4 (.processVehicleQueue 1) ++ .replicate 4 (.processVehicleQueue 0) ++
    [.cycleThroughPhases 1, .cycleThroughPhases 0, .drive 2 3000 0, .drive 1 3000 0] ++
    .replicate 3 (.drive 2 3000 0) ++ .replicate 3 (.drive 1 3000 0)

/-- With green lights the two vehicles pass the two intersections, and nobody waits. -/
theorem intersections_independent_green : ∃ (es : List Event) (s s' : State ℚ),
    Trace (Step deadEnd) (init (fun _ => 0) (fun v => v - 1)) es s ∧
      .addVehicleToQueueReturns 1 2 ∈ es ∧ Step deadEnd (.addVehicleToQueueReturns 0 1) s s' ∧
      Independent deadEnd s := by
  have hplay : (play deadEnd (init (fun _ => 0) (fun v => v - 1) : State ℚ) greenElsewhere).map
      (fun run => (run.1.getLast?, (run.1.all fun e => !e.findsRed),
        run.1.dropLast.contains (.addVehicleToQueueReturns 1 2))) =
      some (some (.addVehicleToQueueReturns 0 1), true, true) := by
    decide +kernel
  obtain ⟨⟨es, s⟩, hrun, hes⟩ := Option.map_eq_some_iff.mp hplay
  obtain ⟨hlast, hgreen, hother⟩ : es.getLast? = some (.addVehicleToQueueReturns 0 1) ∧
      (es.all fun e => !e.findsRed) = true ∧
      es.dropLast.contains (.addVehicleToQueueReturns 1 2) = true := by
    simpa using hes
  obtain ⟨t, t', hbefore, hret⟩ := green_run hrun hlast hgreen
  exact ⟨_, t, t', hbefore.mono fun _ _ _ h => h.1, by simpa using hother, hret,
    intersections_independent.1 _ t hbefore⟩

end SelfTraining.Traffic
