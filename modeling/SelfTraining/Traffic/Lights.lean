import Mathlib.Tactic.Simps.Basic
import SelfTraining.Traffic.Threads

/-!
What a vehicle has to do with the console mutex and with the light of the intersection it
drives to, without streets, positions and queues.

A vehicle is away from both, or stands at one of the places at which its thread holds
`_mtx`. Every run of the simulation is a run of these lights.
-/

namespace SelfTraining.Traffic

open Steps

/-- Where a vehicle's thread stands, as far as the mutex and the light matter. -/
inductive Place where
  | away
  | printing
  | checking
  | waiting
  | passed
  deriving DecidableEq

structure Lights where
  place : Id → Place
  destination : Id → Id
  mtx : Option Id
  phase : Id → TrafficLightPhase
  msgQueue : Id → MessageQueue TrafficLightPhase

namespace Lights

@[simps]
def setPlace (l : Lights) (v : Id) (place : Place) : Lights :=
  { l with place := Function.update l.place v place }

/-- A step that has nothing to do with a light. -/
def Dark : Event → Prop
  | .tau | .pushBack _ _ | .setValue _ _ | .vehicleHasLeft _ _ => True
  | _ => False

/-- What the threads do to the mutex and the lights, and what it shows. -/
inductive Step : Event → Lights → Lights → Prop where
  | quiet {l : Lights} {e : Event} (he : Dark e) : Step e l l
  | turn {l : Lights} {v : Id} (i : Id) (hv : l.place v = .away) :
    Step .tau l { l with destination := Function.update l.destination v i }
  | lock {l : Lights} {v : Id} (hv : l.place v = .away) (hm : l.mtx = none) (place : Place)
      (hplace : place = .printing ∨ place = .checking) :
    Step .tau l { l.setPlace v place with mtx := some v }
  | unlock {l : Lights} {v : Id} (hv : l.place v = .printing) :
    Step .tau l { l.setPlace v .away with mtx := none }
  | getCurrentPhase {l : Lights} {v : Id} (hv : l.place v = .checking) :
    Step (.getCurrentPhase (l.destination v) v (l.phase (l.destination v))) l
      (l.setPlace v (if l.phase (l.destination v) = .red then .waiting else .passed))
  | receive {l : Lights} {v : Id} {msg : TrafficLightPhase}
      {msgQueue : MessageQueue TrafficLightPhase} (hv : l.place v = .waiting)
      (hq : (l.msgQueue (l.destination v)).receive = some (msg, msgQueue)) :
    Step (.receive (l.destination v) v msg) l
      { l.setPlace v (if msg = .green then .waiting else .passed) with
        msgQueue := Function.update l.msgQueue (l.destination v) msgQueue }
  | returns {l : Lights} {v : Id} (hv : l.place v = .passed) :
    Step (.addVehicleToQueueReturns (l.destination v) v) l
      { l.setPlace v .away with mtx := none }
  | toggle {l : Lights} (i : Id) (phase : TrafficLightPhase) :
    Step (.toggle i phase) l { l with phase := Function.update l.phase i phase }
  | send {l : Lights} (i : Id) (msg : TrafficLightPhase) :
    Step (.send i msg) l
      { l with msgQueue := Function.update l.msgQueue i ((l.msgQueue i).send msg) }

lemma Step.phase_eq {l m : Lights} {i v : Id} {phase : TrafficLightPhase}
    (h : Step (.getCurrentPhase i v phase) l m) : phase = l.phase i := by
  cases h with
  | quiet he => exact he.elim
  | getCurrentPhase => rfl

lemma Step.place_of_returns {l m : Lights} {i v : Id}
    (h : Step (.addVehicleToQueueReturns i v) l m) :
    l.place v = .passed ∧ l.destination v = i := by
  cases h with
  | quiet he => exact he.elim
  | returns hv => exact ⟨hv, rfl⟩

lemma Step.congr {l m m' : Lights} {e : Event} (h : Step e l m) (hm : m' = m) : Step e l m' :=
  hm ▸ h

end Lights

/-! ### The simulation runs the lights -/

section View

variable {R : Type}

/-- The place that a statement of a vehicle's thread belongs to. -/
def Vehicle.place (x : Vehicle R) : Place :=
  match x.pc with
  | .unlock | .addVehicleToQueue .unlock => .printing
  | .addVehicleToQueue .getCurrentPhase => .checking
  | .addVehicleToQueue .waitForGreen => .waiting
  | .addVehicleToQueue .unlockAgain => .passed
  | _ => .away

namespace State

def lights (s : State R) : Lights where
  place v := (s.vehicles v).place
  destination v := (s.vehicles v).currDestination
  mtx := s.mtx
  phase i := (s.intersections i).trafficLight.currentPhase
  msgQueue i := (s.intersections i).trafficLight.msgQueue

lemma lights_setVehicle (s : State R) (v : Id) (x : Vehicle R) :
    (s.setVehicle v x).lights = { s.lights with
      place := Function.update s.lights.place v x.place
      destination := Function.update s.lights.destination v x.currDestination } := by
  simp only [lights, setVehicle, Lights.mk.injEq, and_true]
  refine ⟨?_, ?_⟩ <;> ext w <;> by_cases hw : w = v <;> simp [Function.update, hw]

lemma lights_setIntersection (s : State R) (i : Id) (x : Intersection) :
    (s.setIntersection i x).lights = { s.lights with
      phase := Function.update s.lights.phase i x.trafficLight.currentPhase
      msgQueue := Function.update s.lights.msgQueue i x.trafficLight.msgQueue } := by
  simp only [lights, setIntersection, Lights.mk.injEq, true_and]
  refine ⟨?_, ?_⟩ <;> ext j <;> by_cases hj : j = i <;> simp [Function.update, hj]

lemma lights_goto (s : State R) (v : Id) (pc : DrivePc) :
    (s.goto v pc).lights =
      s.lights.setPlace v (Vehicle.place { s.vehicles v with pc }) := by
  rw [goto, lights_setVehicle]
  simp [Lights.setPlace, lights]

lemma lights_setVehicle_same {s : State R} {v : Id} {x : Vehicle R}
    (hplace : x.place = (s.vehicles v).place)
    (hdest : x.currDestination = (s.vehicles v).currDestination) :
    (s.setVehicle v x).lights = s.lights := by
  rw [lights_setVehicle, hplace, hdest]
  simp [lights]

lemma lights_setIntersection_same {s : State R} {i : Id} {x : Intersection}
    (h : x.trafficLight = (s.intersections i).trafficLight) :
    (s.setIntersection i x).lights = s.lights := by
  rw [lights_setIntersection, h]
  simp [lights]

lemma lights_mtx (s : State R) (mtx : Option Id) :
    ({ s with mtx } : State R).lights = { s.lights with mtx } := rfl

lemma lights_isSet (s : State R) (isSet : Promise → Bool) :
    ({ s with isSet } : State R).lights = s.lights := rfl

end State

lemma Lights.Step.of_eq {l m : Lights} {e : Event} (h : m = l) (he : Lights.Dark e := by trivial) :
    Lights.Step e l m := by
  subst h
  exact .quiet he

section Threads

variable {s t : State R} {v : Id} {e : Event}

lemma lock_lights {pc : DrivePc} (hv : (s.vehicles v).place = .away)
    (hplace : Vehicle.place { s.vehicles v with pc } = .printing ∨
      Vehicle.place { s.vehicles v with pc } = .checking) (hmtx : s.mtx = none) :
    Lights.Step .tau s.lights
      (State.lights { s.goto v pc with mtx := some v }) := by
  refine (Lights.Step.lock (l := s.lights) (v := v) hv hmtx _ hplace).congr ?_
  rw [State.lights_mtx, State.lights_goto]

lemma unlock_lights {pc : DrivePc} (hv : (s.vehicles v).place = .printing)
    (hplace : Vehicle.place { s.vehicles v with pc } = .away) :
    Lights.Step .tau s.lights (unlock s v pc).lights := by
  refine (Lights.Step.unlock (l := s.lights) hv).congr ?_
  rw [unlock, State.lights_mtx, State.lights_goto, hplace]

lemma Adds.lights {pc : AddPc} (hpc : (s.vehicles v).pc = .addVehicleToQueue pc)
    (h : Adds s (s.vehicles v).currDestination v pc e t) :
    Lights.Step e s.lights t.lights := by
  cases h with
  | lock hmtx =>
    exact lock_lights (by simp [Vehicle.place, hpc]) (by simp [Vehicle.place]) hmtx
  | unlock => exact unlock_lights (by simp [Vehicle.place, hpc]) (by simp [Vehicle.place])
  | pushBack =>
    refine .of_eq (Eq.trans (State.lights_setVehicle_same ?_ rfl) ?_)
    · simp [State.setIntersection, Vehicle.place, hpc]
    · exact State.lights_setIntersection_same rfl
  | wait hset => exact .of_eq (State.lights_setVehicle_same (by simp [Vehicle.place, hpc]) rfl)
  | relock hmtx =>
    exact lock_lights (by simp [Vehicle.place, hpc]) (by simp [Vehicle.place]) hmtx
  | @getCurrentPhase phase hphase =>
    subst hphase
    have hv : s.lights.place v = .checking := by simp [State.lights, Vehicle.place, hpc]
    refine (Lights.Step.getCurrentPhase (l := s.lights) hv).congr ?_
    rw [State.lights_goto]
    cases hphase : (s.intersections (s.vehicles v).currDestination).trafficLight.currentPhase <;>
      simp [Vehicle.place, State.lights, TrafficLight.getCurrentPhase, hphase]
  | @waitForGreen msg msgQueue hmsg =>
    have hv : s.lights.place v = .waiting := by simp [State.lights, Vehicle.place, hpc]
    refine (Lights.Step.receive (l := s.lights) hv hmsg).congr ?_
    rw [State.lights_goto, State.lights_setIntersection]
    cases msg <;> simp [Lights.setPlace, State.lights, Vehicle.place]
  | unlockAgain =>
    have hv : s.lights.place v = .passed := by simp [State.lights, Vehicle.place, hpc]
    refine (Lights.Step.returns (l := s.lights) hv).congr ?_
    rw [Traffic.unlock, State.lights_mtx, State.lights_goto]
    simp [Vehicle.place]

lemma Drives.lights [Double R] {net : Network} (h : Drives net s v e t) :
    Lights.Step e s.lights t.lights := by
  cases h with
  | lock hpc hmtx =>
    exact lock_lights (by simp [Vehicle.place, hpc]) (by simp [Vehicle.place]) hmtx
  | unlock hpc => exact unlock_lights (by simp [Vehicle.place, hpc]) (by simp [Vehicle.place])
  | cycle hpc time =>
    refine .of_eq (State.lights_setVehicle_same ?_ rfl)
    split <;> simp [Vehicle.place, hpc]
  | addVehicleToQueue hpc hadds => exact hadds.lights hpc
  | entryGranted hpc =>
    exact .of_eq (State.lights_setVehicle_same (by simp [Vehicle.place, hpc]) rfl)
  | choose hpc hentered hnext =>
    exact .of_eq (State.lights_setVehicle_same (by simp [Vehicle.place, hpc]) rfl)
  | goOn hpc => exact .of_eq (State.lights_setVehicle_same (by simp [Vehicle.place, hpc]) rfl)
  | vehicleHasLeft hpc =>
    refine .of_eq (Eq.trans (State.lights_setVehicle_same ?_ rfl) ?_)
    · simp [State.setIntersection, Vehicle.place, hpc]
    · exact State.lights_setIntersection_same rfl
  | @assign nextStreet nextIntersection hpc =>
    have hv : s.lights.place v = .away := by simp [State.lights, Vehicle.place, hpc]
    refine (Lights.Step.turn nextIntersection hv).congr ?_
    rw [State.lights_setVehicle]
    simp [State.lights, Vehicle.place, Vehicle.setCurrentStreet, Vehicle.setCurrentDestination,
      hpc]

lemma Processes.lights {i : Id} (h : Processes s i e t) : Lights.Step e s.lights t.lights := by
  cases h with
  | getSize hpc => exact .of_eq (State.lights_setIntersection_same rfl)
  | isBlocked hpc => exact .of_eq (State.lights_setIntersection_same rfl)
  | setIsBlocked hpc => exact .of_eq (State.lights_setIntersection_same rfl)
  | permitEntry hpc hfirst =>
    exact .of_eq ((State.lights_isSet _ _).trans (State.lights_setIntersection_same rfl))

lemma Cycles.lights {i : Id} (h : Cycles s i e t) : Lights.Step e s.lights t.lights := by
  cases h with
  | @toggle phase =>
    refine (Lights.Step.toggle i phase).congr ?_
    rw [State.lights_setIntersection]
    simp [State.lights]
  | @send msg =>
    refine (Lights.Step.send i msg).congr ?_
    rw [State.lights_setIntersection]
    simp [State.lights]

/-- **The simulation runs the lights.** Every step of a thread is a step of the lights with
the same event. -/
theorem step_lights [Double R] {net : Network} (h : Step net e s t) :
    Lights.Step e s.lights t.lights := by
  rcases step_cases h with ⟨v, hdrive⟩ | ⟨i, hprocess⟩ | ⟨i, hcycle⟩
  · exact hdrive.lights
  · exact hprocess.lights
  · exact hcycle.lights

/-- A vehicle that checks its light in the step finds it green. -/
def GreenCheck (e : Event) (s : State R) : Prop :=
  ∀ i v phase, e = .getCurrentPhase i v phase →
    (s.intersections i).trafficLight.currentPhase = .green

lemma greenCheck_iff [Double R] {net : Network} (h : Step net e s t) :
    GreenCheck e s ↔ ∀ i v, e ≠ .getCurrentPhase i v .red := by
  constructor
  · rintro hgreen i v rfl
    have hphase := (step_lights h).phase_eq
    have hlight := hgreen i v .red rfl
    rw [show s.lights.phase i = .green from hlight] at hphase
    cases hphase
  · rintro hne i v phase rfl
    cases phase with
    | red => exact absurd rfl (hne i v)
    | green => exact (step_lights h).phase_eq.symm

end Threads

end View

end SelfTraining.Traffic
