import Mathlib.Algebra.Order.Archimedean.Basic
import Mathlib.Tactic.Linarith
import SelfTraining.Traffic.Flag
import SelfTraining.Traffic.ConsoleMutex
import SelfTraining.Traffic.Roads

/-!
What a vehicle can be brought to do, if the threads are scheduled for it.

Its own thread may need `_mtx`, whose holder prints or waits at a light, and it may wait at a
light itself. A light only has to go on with its cycle: red, once sent, is the newest of its
messages, and whoever receives red passes.
-/

namespace SelfTraining.Traffic

open Steps

/-! ### Schedules -/

section Schedules

variable {R : Type} [Double R] {net : Network} {s t u : State R} {i v : Id} {e : Event}

/-- The threads can be scheduled so that the simulation comes from one state to the other. -/
abbrev Leads (net : Network) : State R → State R → Prop :=
  Reaches fun s t => ∃ e, Step net e s t

lemma leads_drive (time draw : ℕ) (h : drive net s v time draw = some (e, t)) : Leads net s t :=
  .single ⟨e, .drive v time draw, h⟩

lemma leads_process (h : processVehicleQueue s i = some (e, t)) : Leads net s t :=
  .single ⟨e, .processVehicleQueue i, h⟩

/-- A schedule in which one vehicle and the lights go on, and which the crossings do not show. -/
structure Aside (net : Network) (v : Id) (s t : State R) : Prop where
  leads : Leads net s t
  others : ∀ w, w ≠ v → t.vehicles w = s.vehicles w
  crossings : t.crossings = s.crossings

lemma Aside.trans (h : Aside net v s t) (h' : Aside net v t u) : Aside net v s u where
  leads := h.leads.trans h'.leads
  others w hw := (h'.others w hw).trans (h.others w hw)
  crossings := h'.crossings.trans h.crossings

lemma aside_goto {pc : DrivePc} (h : drive net s v 0 0 = some (e, s.goto v pc))
    (hstage : Vehicle.stage { s.vehicles v with pc } = (s.vehicles v).stage) :
    Aside net v s (s.goto v pc) where
  leads := leads_drive 0 0 h
  others w hw := by simp [State.goto, State.setVehicle, hw]
  crossings := State.crossings_goto_same hstage

lemma aside_unlock {pc : DrivePc} (h : drive net s v 0 0 = some (e, unlock s v pc))
    (hstage : Vehicle.stage { s.vehicles v with pc } = (s.vehicles v).stage) :
    Aside net v s (unlock s v pc) where
  leads := leads_drive 0 0 h
  others w hw := by simp [unlock, State.goto, State.setVehicle, hw]
  crossings := State.crossings_goto_same hstage

/-! ### A light -/

/-- How many steps of its cycle it takes until a light has sent a red phase. -/
def TrafficLight.untilRed (light : TrafficLight) : ℕ :=
  match light.pc, light.currentPhase with
  | .send .red, _ => 1
  | .toggle, .green => 2
  | .send .green, .green => 3
  | .toggle, .red => 4
  | .send .green, .red => 5

variable (net) in
lemma aside_cycle (s : State R) (i v : Id) :
    Aside net v s (cycleThroughPhases s i).2 ∧
      (cycleThroughPhases s i).2.vehicles = s.vehicles ∧
      (cycleThroughPhases s i).2.mtx = s.mtx := by
  rcases hcycle : cycleThroughPhases s i with ⟨e, t⟩
  have hleads : Leads net s t := .single ⟨e, .cycleThroughPhases i, by simp [next, hcycle]⟩
  cases cycleThroughPhases_cases hcycle with
  | toggle | send =>
    exact ⟨⟨hleads, fun _ _ => rfl, State.crossings_setIntersection_same rfl⟩, rfl, rfl⟩

omit [Double R] in
/-- The light sends a red phase next, or comes nearer to it. -/
lemma untilRed_cycle (s : State R) (i : Id) :
    (((cycleThroughPhases s i).2.intersections i).trafficLight.msgQueue =
      (s.intersections i).trafficLight.msgQueue ++ [.red]) ∨
    ((cycleThroughPhases s i).2.intersections i).trafficLight.untilRed <
      (s.intersections i).trafficLight.untilRed := by
  rcases hpc : (s.intersections i).trafficLight.pc with _ | (_ | _)
  case send.red =>
    exact .inl (by simp [cycleThroughPhases, hpc, State.setIntersection, MessageQueue.send])
  all_goals
    refine .inr ?_
    cases hphase : (s.intersections i).trafficLight.currentPhase <;>
      simp [cycleThroughPhases, State.setIntersection, TrafficLight.untilRed, hpc, hphase]

lemma red_sent (net : Network) (s : State R) (i v : Id) : ∃ t queue, Aside net v s t ∧
    t.vehicles = s.vehicles ∧ t.mtx = s.mtx ∧
    (t.intersections i).trafficLight.msgQueue = queue ++ [.red] := by
  induction hn : (s.intersections i).trafficLight.untilRed using Nat.strong_induction_on
    generalizing s with
  | _ n ih =>
    obtain ⟨haside, hvehicles, hmtx⟩ := aside_cycle net s i v
    rcases untilRed_cycle s i with hred | hlt
    · exact ⟨_, _, haside, hvehicles, hmtx, hred⟩
    · obtain ⟨t, queue, ht, htv, htm, hred⟩ := ih _ (hn ▸ hlt) (cycleThroughPhases s i).2 rfl
      exact ⟨t, queue, haside.trans ht, htv.trans hvehicles, htm.trans hmtx, hred⟩

/-! ### The mutex -/

variable (net) in
lemma passes_unlockAgain (hpc : (s.vehicles v).pc = .addVehicleToQueue .unlockAgain) :
    ∃ t, Aside net v s t ∧ t.mtx = none ∧
      t.vehicles v = { s.vehicles v with pc := .entryGranted } := by
  refine ⟨unlock s v .entryGranted, 
    aside_unlock (e := .addVehicleToQueueReturns (s.vehicles v).currDestination v) ?_ ?_, rfl, ?_⟩
  · simp only [drive, hpc, addVehicleToQueue]
  · simp [Vehicle.stage, hpc]
  · simp [unlock, State.goto, State.setVehicle]

variable (net) in
lemma passes_waitForGreen (hpc : (s.vehicles v).pc = .addVehicleToQueue .waitForGreen) :
    ∃ t, Aside net v s t ∧ t.mtx = none ∧
      t.vehicles v = { s.vehicles v with pc := .entryGranted } := by
  obtain ⟨s₁, queue, hs₁, hvehicles, -, hred⟩ := red_sent net s (s.vehicles v).currDestination v
  have hpc₁ : (s₁.vehicles v).pc = .addVehicleToQueue .waitForGreen := by rw [hvehicles, hpc]
  let i := (s₁.vehicles v).currDestination
  let x := s₁.intersections i
  let s₂ := (s₁.setIntersection i
    { x with trafficLight := { x.trafficLight with msgQueue := queue } }).goto v
    (.addVehicleToQueue .unlockAgain)
  have hreceive : x.trafficLight.msgQueue.receive = some (.red, queue) := by
    have hqueue : x.trafficLight.msgQueue = queue ++ [.red] := by
      simpa [x, i, hvehicles] using hred
    simp [MessageQueue.receive, hqueue]
  have hs₂ : Aside net v s₁ s₂ := by
    refine ⟨leads_drive 0 0 (e := .receive i v .red) (v := v) ?_, fun w hw => ?_, ?_⟩
    · simp only [drive, hpc₁, addVehicleToQueue]
      rw [show (s₁.intersections (s₁.vehicles v).currDestination).trafficLight.msgQueue.receive =
        some (.red, queue) from hreceive]
      rfl
    · simp [s₂, State.goto, State.setVehicle, State.setIntersection, hw]
    · rw [State.crossings_goto_same]
      · exact State.crossings_setIntersection_same rfl
      · simp [State.setIntersection, Vehicle.stage, hpc₁]
  have hvehicle₂ : s₂.vehicles v =
      { s.vehicles v with pc := .addVehicleToQueue .unlockAgain } := by
    simp [s₂, State.goto, State.setVehicle, State.setIntersection, hvehicles]
  obtain ⟨t, ht, hmtx, hvehicle⟩ := passes_unlockAgain net (s := s₂) (v := v)
    (by rw [hvehicle₂])
  exact ⟨t, (hs₁.trans hs₂).trans ht, hmtx, by rw [hvehicle, hvehicle₂]⟩

variable (net) in
/-- **A vehicle at its light can pass it,** whatever the light shows. -/
lemma passes_light {pc : AddPc} (hpc : (s.vehicles v).pc = .addVehicleToQueue pc)
    (h : pc = .getCurrentPhase ∨ pc = .waitForGreen ∨ pc = .unlockAgain) :
    ∃ t, Aside net v s t ∧ t.mtx = none ∧
      t.vehicles v = { s.vehicles v with pc := .entryGranted } := by
  rcases h with rfl | rfl | rfl
  · let phase := (s.intersections (s.vehicles v).currDestination).trafficLight.currentPhase
    let s₁ := s.goto v (.addVehicleToQueue (if phase = .red then .waitForGreen else .unlockAgain))
    have hs₁ : Aside net v s s₁ := by
      refine aside_goto
        (e := .getCurrentPhase (s.vehicles v).currDestination v phase) ?_ ?_
      · simp only [drive, hpc, addVehicleToQueue]
        rfl
      · split <;> simp [Vehicle.stage, hpc]
    have hvehicle₁ : s₁.vehicles v = { s.vehicles v with
        pc := .addVehicleToQueue (if phase = .red then .waitForGreen else .unlockAgain) } := by
      simp [s₁, State.goto, State.setVehicle]
    obtain ⟨t, ht, hmtx, hvehicle⟩ : ∃ t, Aside net v s₁ t ∧ t.mtx = none ∧
        t.vehicles v = { s₁.vehicles v with pc := .entryGranted } := by
      by_cases hphase : phase = .red
      · exact passes_waitForGreen net (by simp [hvehicle₁, hphase])
      · exact passes_unlockAgain net (by simp [hvehicle₁, hphase])
    exact ⟨t, hs₁.trans ht, hmtx, by rw [hvehicle, hvehicle₁]⟩
  · exact passes_waitForGreen net hpc
  · exact passes_unlockAgain net hpc

variable (net) in
lemma mutex_freed {w : Id} (howner : ∀ v, s.mtx = some v → (s.vehicles v).place ≠ .away)
    (hw : (s.vehicles w).place = .away) :
    ∃ t, Leads net s t ∧ t.mtx = none ∧ t.crossings = s.crossings ∧
      t.vehicles w = s.vehicles w := by
  cases hmtx : s.mtx with
  | none => exact ⟨s, .refl, hmtx, rfl, rfl⟩
  | some v =>
    have hv := howner v hmtx
    have hne : w ≠ v := by
      rintro rfl
      exact hv hw
    obtain ⟨t, ht, htm⟩ : ∃ t, Aside net v s t ∧ t.mtx = none := by
      unfold Vehicle.place at hv
      split at hv
      · next hpc =>
        refine ⟨unlock s v .cycle, aside_unlock (e := .tau) ?_ ?_, rfl⟩
        · simp only [drive, hpc]
        · simp [Vehicle.stage, hpc]
      · next hpc =>
        refine ⟨unlock s v (.addVehicleToQueue .pushBack),
          aside_unlock (e := .tau) ?_ ?_, rfl⟩
        · simp only [drive, hpc, addVehicleToQueue]
        · simp [Vehicle.stage, hpc]
      · next hpc =>
        obtain ⟨t, ht, htm, -⟩ := passes_light net hpc (.inl rfl)
        exact ⟨t, ht, htm⟩
      · next hpc =>
        obtain ⟨t, ht, htm, -⟩ := passes_light net hpc (.inr (.inl rfl))
        exact ⟨t, ht, htm⟩
      · next hpc =>
        obtain ⟨t, ht, htm, -⟩ := passes_light net hpc (.inr (.inr rfl))
        exact ⟨t, ht, htm⟩
      · exact absurd rfl hv
    exact ⟨t, ht.leads, htm, ht.crossings, ht.others w hne⟩

end Schedules

/-! ### Reachable states -/

lemma Lights.owner_step {l m : Lights} {e : Event} (h : ∀ v, l.mtx = some v → l.place v ≠ .away)
    (hstep : Lights.Step e l m) : ∀ v, m.mtx = some v → m.place v ≠ .away := by
  -- a vehicle that stays near the mutex
  have hset : ∀ {w place}, place ≠ .away → ∀ v, l.mtx = some v →
      (l.setPlace w place).place v ≠ .away := by
    intro w place hplace v hv
    by_cases hvw : v = w
    · subst hvw
      simpa using hplace
    · simpa [hvw] using h v hv
  cases hstep with
  | quiet => exact h
  | turn => exact h
  | lock _ _ place hplace =>
    intro v hv
    obtain rfl := Option.some_injective _ hv
    rcases hplace with rfl | rfl <;> simp
  | unlock => simp
  | getCurrentPhase => exact hset (by split <;> simp)
  | receive => exact hset (by split <;> simp)
  | returns => simp
  | toggle => exact h
  | send => exact h

section Exact

variable {net : Network} {s t : State ℚ} {i v : Id} {e : Event}

lemma Adds.speed {pc : AddPc} (h : Adds s i v pc e t) (w : Id) :
    (t.vehicles w).speed = (s.vehicles w).speed := by
  have hset : ∀ x : Vehicle ℚ, x.speed = (s.vehicles v).speed →
      ((s.setVehicle v x).vehicles w).speed = (s.vehicles w).speed := by
    intro x hx
    by_cases hw : w = v
    · subst hw
      simpa [State.setVehicle] using hx
    · simp [State.setVehicle, hw]
  cases h with
  | lock | unlock | pushBack | wait | relock | getCurrentPhase | waitForGreen | unlockAgain =>
    exact hset _ rfl

/-- No vehicle comes to a stop: speeds are only divided and multiplied. -/
lemma Drives.speed_pos (h : Drives net s v e t) (hs : ∀ w, 0 < (s.vehicles w).speed) (w : Id) :
    0 < (t.vehicles w).speed := by
  -- only the speed of the vehicle itself can change
  have hset : ∀ x : Vehicle ℚ, 0 < x.speed → 0 < ((s.setVehicle v x).vehicles w).speed := by
    intro x hx
    by_cases hw : w = v
    · subst hw
      simpa [State.setVehicle] using hx
    · simpa [State.setVehicle, hw] using hs w
  cases h with
  | lock | unlock | choose | goOn | vehicleHasLeft => exact hset _ (hs v)
  | cycle => exact hset _ (hs v)
  | addVehicleToQueue _ hadds =>
    rw [hadds.speed w]
    exact hs w
  | entryGranted =>
    apply hset
    exact div_pos (hs v) (by norm_num)
  | assign =>
    apply hset
    exact mul_pos (hs v) (by norm_num)

/-- What the argument uses of a state that has been reached. -/
structure Running (s : State ℚ) : Prop where
  live : s.crossings.Live
  owner : ∀ v, s.mtx = some v → (s.vehicles v).place ≠ .away
  moving : ∀ v, 0 < (s.vehicles v).speed

lemma Running.step (hs : Running s) (h : Step net e s t) : Running t where
  live := hs.live.step (step_crossings h)
  owner := Lights.owner_step hs.owner (step_lights h)
  moving := by
    rcases step_cases h with ⟨v, hdrive⟩ | ⟨i, hprocess⟩ | ⟨i, hcycle⟩
    · exact hdrive.speed_pos hs.moving
    · rw [hprocess.vehicles]
      exact hs.moving
    · rw [hcycle.vehicles]
      exact hs.moving

lemma Running.leads (hs : Running s) (h : Leads net s t) : Running t :=
  h.invariant hs fun _ _ hu ⟨_, hstep⟩ => hu.step hstep

lemma init_running (street destination : Id → Id) : Running (init street destination) where
  live :=
    { init_lined with
      queuedUp := by simp [State.crossings, init, Vehicle.stage]
      owned := by simp [State.crossings, init, Intersection.desk] }
  owner := by simp [init]
  moving := by simp [init]

/-! ### A vehicle inside the intersection gets out -/

lemma exists_time {x : Vehicle ℚ} (hx : 0 < x.speed) :
    ∃ time, 1 ≤ time ∧ 1 ≤ (x.move time).completion := by
  obtain ⟨n, hn⟩ := exists_nat_ge ((1000 - x.posStreet) * 1000 / x.speed)
  refine ⟨n + 1, by omega, ?_⟩
  have hfar : (1000 - x.posStreet) * 1000 ≤ x.speed * ((n + 1 : ℕ) : ℚ) := by
    have hmul := (div_le_iff₀ hx).mp hn
    push_cast
    linarith
  have hpos : 1000 ≤ x.posStreet + x.speed * ((n + 1 : ℕ) : ℚ) / ((1000 : ℕ) : ℚ) := by
    have hdiv : 1000 - x.posStreet ≤ x.speed * ((n + 1 : ℕ) : ℚ) / ((1000 : ℕ) : ℚ) := by
      rw [le_div_iff₀ (by norm_num)]
      simpa using hfar
    linarith
  change 1 ≤ (x.posStreet + x.speed * ((n + 1 : ℕ) : ℚ) / ((1000 : ℕ) : ℚ)) / (1000.0 : ℚ)
  rw [le_div_iff₀ (by norm_num)]
  norm_num at hpos ⊢
  exact hpos

/-- The vehicle can be let go on until it is about to call `vehicleHasLeft`, and nothing of this
is seen in the crossings. -/
def Exits (net : Network) (s : State ℚ) (v : Id) : Prop :=
  ∃ t next far, Leads net s t ∧ t.crossings = s.crossings ∧
    (t.vehicles v).pc = .vehicleHasLeft next far

lemma Exits.of_leads (ht : Exits net t v) (h : Leads net s t) (hc : t.crossings = s.crossings) :
    Exits net s v := by
  obtain ⟨u, next, far, hu, huc, hpc⟩ := ht
  exact ⟨u, next, far, h.trans hu, huc.trans hc, hpc⟩

lemma exits_completed (hpc : (s.vehicles v).pc = .crossed)
    (hentered : (s.vehicles v).hasEnteredIntersection = true)
    (hdone : 1 ≤ (s.vehicles v).completion) : Exits net s v := by
  let options := net.queryStreets (s.vehicles v).currDestination (s.vehicles v).currStreet
  obtain ⟨next, hnext⟩ : ∃ next, (if 0 < options.length then options[0]?
      else some (s.vehicles v).currStreet) = some next := by
    by_cases h : 0 < options.length
    · exact ⟨options[0], by simp [h]⟩
    · exact ⟨_, if_neg h⟩
  let far := net.otherEnd next (s.vehicles v).currDestination
  have hstep : drive net s v 0 0 = some (.tau, s.goto v (.vehicleHasLeft next far)) := by
    have hcrossed : (1.0 : ℚ) ≤ (s.vehicles v).completion := by
      norm_num
      exact hdone
    simp only [drive, hpc]
    rw [if_pos ⟨hcrossed, hentered⟩]
    exact congrArg (Option.map _) hnext
  refine ⟨_, next, far, leads_drive 0 0 hstep, State.crossings_goto_same ?_, ?_⟩
  · simp [Vehicle.stage, hpc, hentered]
  · simp [State.goto, State.setVehicle]

lemma exits_cycle (hspeed : 0 < (s.vehicles v).speed) (hpc : (s.vehicles v).pc = .cycle)
    (hentered : (s.vehicles v).hasEnteredIntersection = true) : Exits net s v := by
  obtain ⟨time, htime, hdone⟩ := exists_time hspeed
  let x : Vehicle ℚ := { (s.vehicles v).move time with pc := .crossed }
  have hmove : ((s.vehicles v).move time).hasEnteredIntersection = true := hentered
  have hstep : drive net s v time 0 = some (.tau, s.setVehicle v x) := by
    simp [drive, hpc, htime, hmove, x]
  have hx : (s.setVehicle v x).vehicles v = x := by simp [State.setVehicle]
  refine Exits.of_leads (exits_completed ?_ ?_ ?_) (leads_drive time 0 hstep)
    (State.crossings_setVehicle_same ?_ rfl rfl)
  · rw [hx]
  · rw [hx]
    exact hentered
  · rw [hx]
    exact hdone
  · simp [x, Vehicle.stage, hpc, hentered, Vehicle.move]

lemma exits_goto {pc : DrivePc} {time draw : ℕ}
    (h : drive net s v time draw = some (e, s.goto v pc))
    (hstage : Vehicle.stage { s.vehicles v with pc } = (s.vehicles v).stage)
    (hexits : Exits net (s.goto v pc) v) : Exits net s v :=
  hexits.of_leads (leads_drive time draw h) (State.crossings_goto_same hstage)

lemma exits_crossed (hspeed : 0 < (s.vehicles v).speed) (hpc : (s.vehicles v).pc = .crossed)
    (hentered : (s.vehicles v).hasEnteredIntersection = true) : Exits net s v := by
  by_cases hdone : 1 ≤ (s.vehicles v).completion
  · exact exits_completed hpc hentered hdone
  · have hstep : drive net s v 0 0 = some (.tau, s.goto v .cycle) := by
      have hcrossed : ¬ (1.0 : ℚ) ≤ (s.vehicles v).completion := by
        norm_num
        exact not_le.mp hdone
      simp only [drive, hpc]
      exact if_neg fun h => hcrossed h.1
    refine exits_goto hstep (by simp [Vehicle.stage, hpc]) (exits_cycle ?_ ?_ ?_)
    · simpa [State.goto, State.setVehicle] using hspeed
    · simp [State.goto, State.setVehicle]
    · simpa [State.goto, State.setVehicle] using hentered

lemma exits_unlock (hspeed : 0 < (s.vehicles v).speed) (hpc : (s.vehicles v).pc = .unlock)
    (hentered : (s.vehicles v).hasEnteredIntersection = true) : Exits net s v := by
  have hstep : drive net s v 0 0 = some (.tau, unlock s v .cycle) := by simp only [drive, hpc]
  refine Exits.of_leads (exits_cycle ?_ ?_ ?_) (leads_drive 0 0 hstep)
    (State.crossings_goto_same (by simp [Vehicle.stage, hpc]))
  · simpa [unlock, State.goto, State.setVehicle] using hspeed
  · simp [unlock, State.goto, State.setVehicle]
  · simpa [unlock, State.goto, State.setVehicle] using hentered

lemma exits_entryGranted (hspeed : 0 < (s.vehicles v).speed)
    (hpc : (s.vehicles v).pc = .entryGranted) : Exits net s v := by
  let x : Vehicle ℚ := { s.vehicles v with
    speed := (s.vehicles v).speed / 10.0
    hasEnteredIntersection := true
    pc := .crossed }
  have hstep : drive net s v 0 0 = some (.tau, s.setVehicle v x) := by simp only [drive, hpc]; rfl
  have hx : (s.setVehicle v x).vehicles v = x := by simp [State.setVehicle]
  refine Exits.of_leads (exits_crossed ?_ ?_ ?_) (leads_drive 0 0 hstep)
    (State.crossings_setVehicle_same (by simp [x, Vehicle.stage, hpc]) rfl rfl)
  · rw [hx]
    exact div_pos hspeed (by norm_num)
  · rw [hx]
  · rw [hx]

lemma exits_light (hspeed : 0 < (s.vehicles v).speed) {pc : AddPc}
    (hpc : (s.vehicles v).pc = .addVehicleToQueue pc)
    (h : pc = .getCurrentPhase ∨ pc = .waitForGreen ∨ pc = .unlockAgain) : Exits net s v := by
  obtain ⟨t, ht, -, hvehicle⟩ := passes_light net hpc h
  refine Exits.of_leads (exits_entryGranted ?_ ?_) ht.leads ht.crossings
  · rw [hvehicle]
    exact hspeed
  · rw [hvehicle]

variable (net) in
lemma Running.takes_mutex (hs : Running s) {pc : DrivePc} (pc' : DrivePc)
    (hpc : (s.vehicles v).pc = pc) (haway : (s.vehicles v).place = .away)
    (hlock : ∀ u : State ℚ, (u.vehicles v).pc = pc → drive net u v 0 0 = lock u v pc') :
    ∃ t, Leads net s t ∧ t.vehicles v = { s.vehicles v with pc := pc' } ∧
      t.crossings = s.crossings.setStage v (Vehicle.stage { s.vehicles v with pc := pc' }) := by
  obtain ⟨u, hu, hmtx, hcrossings, hvehicle⟩ := mutex_freed net hs.owner haway
  let t : State ℚ := { u.goto v pc' with mtx := some v }
  have hstep : drive net u v 0 0 = some (.tau, t) := by
    rw [hlock u (by rw [hvehicle, hpc])]
    exact if_pos hmtx
  refine ⟨t, hu.trans (leads_drive 0 0 hstep), ?_, ?_⟩
  · simp [t, State.goto, State.setVehicle, hvehicle]
  · change (u.goto v pc').crossings = _
    rw [State.goto, State.crossings_setVehicle, hcrossings, hvehicle]
    simp [Crossings.setStage, State.crossings]

lemma Running.exits_relock (hs : Running s) (hpc : (s.vehicles v).pc = .addVehicleToQueue .relock) :
    Exits net s v := by
  obtain ⟨t, ht, hvehicle, hcrossings⟩ :=
    hs.takes_mutex net (.addVehicleToQueue .getCurrentPhase) hpc
      (by simp [Vehicle.place, hpc]) fun u hu => by simp only [drive, hu, addVehicleToQueue]
  refine Exits.of_leads (exits_light ?_ ?_ (.inl rfl)) ht ?_
  · rw [hvehicle]
    exact hs.moving v
  · rw [hvehicle]
  · rw [hcrossings]
    have hstage : s.crossings.stage v = .inside := by simp [State.crossings, Vehicle.stage, hpc]
    simp [Crossings.setStage, Vehicle.stage, ← hstage]

lemma Running.exits_lock (hs : Running s) (hpc : (s.vehicles v).pc = .lock)
    (hentered : (s.vehicles v).hasEnteredIntersection = true) : Exits net s v := by
  obtain ⟨t, ht, hvehicle, hcrossings⟩ := hs.takes_mutex net .unlock hpc
    (by simp [Vehicle.place, hpc]) fun u hu => by simp only [drive, hu]
  refine Exits.of_leads (exits_unlock ?_ ?_ ?_) ht ?_
  · rw [hvehicle]
    exact hs.moving v
  · rw [hvehicle]
  · rw [hvehicle]
    exact hentered
  · rw [hcrossings]
    have hstage : s.crossings.stage v = .inside := by
      simp [State.crossings, Vehicle.stage, hpc, hentered]
    simp [Crossings.setStage, Vehicle.stage, hentered, ← hstage]

variable (net) in
/-- **A vehicle inside an intersection can get out of it.** -/
lemma Running.exits (hs : Running s) (hv : s.crossings.stage v = .inside) : Exits net s v := by
  have hv : (s.vehicles v).stage = .inside := hv
  have hspeed := hs.moving v
  unfold Vehicle.stage at hv
  split at hv
  · next hpc => exact hs.exits_lock hpc (by simpa using hv)
  · next hpc => exact exits_unlock hspeed hpc (by simpa using hv)
  · next hpc => exact exits_cycle hspeed hpc (by simpa using hv)
  · next hpc => exact exits_crossed hspeed hpc (by simpa using hv)
  · cases hv
  · cases hv
  · cases hv
  · cases hv
  · cases hv
  · next hpc => exact hs.exits_relock hpc
  · next hpc => exact exits_light hspeed hpc (.inl rfl)
  · next hpc => exact exits_light hspeed hpc (.inr (.inl rfl))
  · next hpc => exact exits_light hspeed hpc (.inr (.inr rfl))
  · next hpc => exact exits_entryGranted hspeed hpc
  · next next far hpc => exact ⟨s, next, far, .refl, rfl, hpc⟩

variable (net) in
/-- **A vehicle that was granted entry can leave,** and then the flag of its intersection is down
and everybody else is where it was. -/
lemma Running.leaves (hs : Running s) (hv : s.crossings.Granted v) :
    ∃ t u, Leads net s t ∧ Step net (.vehicleHasLeft (s.vehicles v).currDestination v) t u ∧
      u.crossings = (s.crossings.setStage v .driving).setDesk (s.vehicles v).currDestination
        { s.crossings.desk (s.vehicles v).currDestination with isBlocked := false } := by
  -- it is called in
  obtain ⟨s₁, hs₁, hcrossings₁⟩ : ∃ s₁, Leads net s s₁ ∧
      s₁.crossings = s.crossings.setStage v .inside := by
    rcases hv with hv | ⟨p, hv, hp⟩
    · exact ⟨s, .refl, by simp [Crossings.setStage, ← hv]⟩
    · have hpc := pc_of_waiting hv
      have hset : s.isSet p = true := hp
      have hstep : drive net s v 0 0 = some (.tau, s.goto v (.addVehicleToQueue .relock)) := by
        simp [drive, hpc, addVehicleToQueue, hset]
      refine ⟨_, leads_drive 0 0 hstep, ?_⟩
      rw [State.goto, State.crossings_setVehicle]
      simp [Crossings.setStage, State.crossings, Vehicle.stage]
  have hinside : s₁.crossings.stage v = .inside := by
    rw [hcrossings₁]
    simp
  obtain ⟨t, next, far, ht, hcrossings, hpc⟩ := (hs.leads hs₁).exits net hinside
  have hdest : (t.vehicles v).currDestination = (s.vehicles v).currDestination := by
    change t.crossings.destination v = s.crossings.destination v
    rw [hcrossings, hcrossings₁]
    rfl
  let u := (t.setIntersection (t.vehicles v).currDestination
    ((t.intersections (t.vehicles v).currDestination).setIsBlocked false)).goto v (.assign next far)
  have hstep : drive net t v 0 0 = some (.vehicleHasLeft (t.vehicles v).currDestination v, u) := by
    simp only [drive, hpc]
    rfl
  refine ⟨t, u, hs₁.trans ht, hdest ▸ ⟨.drive v 0 0, hstep⟩, ?_⟩
  have hu : u.crossings = (t.crossings.setStage v .driving).setDesk (t.vehicles v).currDestination
      { t.crossings.desk (t.vehicles v).currDestination with isBlocked := false } := by
    simp only [u]
    rw [State.goto, State.crossings_setVehicle, State.crossings_setIntersection]
    simp [Crossings.setDesk, Crossings.setStage, State.crossings, Vehicle.stage, Intersection.desk,
      Intersection.setIsBlocked, State.setIntersection]
  rw [hu, hdest, hcrossings, hcrossings₁]
  simp [Crossings.setDesk, Crossings.setStage]

/-! ### A vehicle that drives gets to the queue -/

/-- The vehicle can be let go on until it waits for a promise. -/
def Asks (net : Network) (s : State ℚ) (v : Id) : Prop :=
  ∃ t p, Leads net s t ∧ t.crossings.stage v = .waiting p

lemma Asks.of_leads (ht : Asks net t v) (h : Leads net s t) : Asks net s v := by
  obtain ⟨u, p, hu, hp⟩ := ht
  exact ⟨u, p, h.trans hu, hp⟩

lemma asks_pushBack (hpc : (s.vehicles v).pc = .addVehicleToQueue .pushBack) : Asks net s v := by
  let i := (s.vehicles v).currDestination
  let promise : Promise := ⟨v, (s.vehicles v).calls⟩
  let x : Vehicle ℚ := { s.vehicles v with
    calls := (s.vehicles v).calls + 1
    pc := .addVehicleToQueue (.wait promise) }
  let u := s.setIntersection i { s.intersections i with
    waitingVehicles := (s.intersections i).waitingVehicles.pushBack v promise }
  have hstep : drive net s v 0 0 = some (.pushBack i promise, u.setVehicle v x) := by
    simp only [drive, hpc, addVehicleToQueue]
    rfl
  refine ⟨_, promise, leads_drive 0 0 hstep, ?_⟩
  simp [State.crossings, State.setVehicle, Vehicle.stage, x]

lemma asks_unlock (hpc : (s.vehicles v).pc = .addVehicleToQueue .unlock) : Asks net s v := by
  have hstep : drive net s v 0 0 = some (.tau, unlock s v (.addVehicleToQueue .pushBack)) := by
    simp only [drive, hpc, addVehicleToQueue]
  refine Asks.of_leads (asks_pushBack ?_) (leads_drive 0 0 hstep)
  simp [unlock, State.goto, State.setVehicle]

lemma Running.asks_lock (hs : Running s) (hpc : (s.vehicles v).pc = .addVehicleToQueue .lock) :
    Asks net s v := by
  obtain ⟨t, ht, hvehicle, -⟩ := hs.takes_mutex net (.addVehicleToQueue .unlock) hpc
    (by simp [Vehicle.place, hpc]) fun u hu => by simp only [drive, hu, addVehicleToQueue]
  refine Asks.of_leads (asks_unlock ?_) ht
  rw [hvehicle]

lemma Running.asks_cycle (hs : Running s) (hpc : (s.vehicles v).pc = .cycle)
    (hentered : (s.vehicles v).hasEnteredIntersection = false) : Asks net s v := by
  obtain ⟨time, htime, hdone⟩ := exists_time (hs.moving v)
  let x : Vehicle ℚ := { (s.vehicles v).move time with pc := .addVehicleToQueue .lock }
  have hmove : ((s.vehicles v).move time).hasEnteredIntersection = false := hentered
  have hhalt : (0.9 : ℚ) ≤ ((s.vehicles v).move time).completion := by
    have hlt : (0.9 : ℚ) ≤ 1 := by norm_num
    exact hlt.trans hdone
  have hstep : drive net s v time 0 = some (.tau, s.setVehicle v x) := by
    simp [drive, hpc, htime, hmove, hhalt, x]
  have hleads := leads_drive time 0 hstep
  refine Asks.of_leads ((hs.leads hleads).asks_lock ?_) hleads
  simp [State.setVehicle, x]

lemma Running.asks_crossed (hs : Running s) (hpc : (s.vehicles v).pc = .crossed)
    (hentered : (s.vehicles v).hasEnteredIntersection = false) : Asks net s v := by
  have hstep : drive net s v 0 0 = some (.tau, s.goto v .cycle) := by
    simp [drive, hpc, hentered]
  have hleads := leads_drive 0 0 hstep
  refine Asks.of_leads ((hs.leads hleads).asks_cycle ?_ ?_) hleads
  · simp [State.goto, State.setVehicle]
  · simpa [State.goto, State.setVehicle] using hentered

lemma Running.asks_unlock (hs : Running s) (hpc : (s.vehicles v).pc = .unlock)
    (hentered : (s.vehicles v).hasEnteredIntersection = false) : Asks net s v := by
  have hstep : drive net s v 0 0 = some (.tau, unlock s v .cycle) := by simp only [drive, hpc]
  have hleads := leads_drive 0 0 hstep
  refine Asks.of_leads ((hs.leads hleads).asks_cycle ?_ ?_) hleads
  · simp [unlock, State.goto, State.setVehicle]
  · simpa [unlock, State.goto, State.setVehicle] using hentered

lemma Running.asks_start (hs : Running s) (hpc : (s.vehicles v).pc = .lock)
    (hentered : (s.vehicles v).hasEnteredIntersection = false) : Asks net s v := by
  obtain ⟨t, ht, hvehicle, -⟩ := hs.takes_mutex net .unlock hpc (by simp [Vehicle.place, hpc])
    fun u hu => by simp only [drive, hu]
  refine Asks.of_leads ((hs.leads ht).asks_unlock ?_ ?_) ht
  · rw [hvehicle]
  · rw [hvehicle]
    exact hentered

lemma Running.asks_assign (hs : Running s) {next far : Id}
    (hpc : (s.vehicles v).pc = .assign next far) : Asks net s v := by
  let x : Vehicle ℚ := { ((s.vehicles v).setCurrentDestination far).setCurrentStreet next with
    speed := (s.vehicles v).speed * 10.0
    hasEnteredIntersection := false
    pc := .cycle }
  have hstep : drive net s v 0 0 = some (.tau, s.setVehicle v x) := by
    simp only [drive, hpc]
    rfl
  have hleads := leads_drive 0 0 hstep
  refine Asks.of_leads ((hs.leads hleads).asks_cycle ?_ ?_) hleads
  all_goals simp [State.setVehicle, x]

variable (net) in
/-- **A vehicle that drives can get to the queue** of its intersection. -/
lemma Running.asks (hs : Running s) (hv : s.crossings.stage v = .driving) : Asks net s v := by
  have hv : (s.vehicles v).stage = .driving := hv
  unfold Vehicle.stage at hv
  split at hv
  · next hpc => exact hs.asks_start hpc (by simpa using hv)
  · next hpc => exact hs.asks_unlock hpc (by simpa using hv)
  · next hpc => exact hs.asks_cycle hpc (by simpa using hv)
  · next hpc => exact hs.asks_crossed hpc (by simpa using hv)
  · cases hv
  · next hpc => exact hs.asks_lock hpc
  · next hpc => exact Traffic.asks_unlock hpc
  · next hpc => exact asks_pushBack hpc
  · next hpc => exact hs.asks_assign hpc
  all_goals cases hv

end Exact

end SelfTraining.Traffic
