import Mathlib.Tactic.Simps.Basic
import SelfTraining.Traffic.Threads

/-!
What the entry protocol of the intersections comes to, without streets, positions, lights and
locks.

A vehicle drives, waits on a promise, or is inside the intersection it drives to; an
intersection's desk is its queue, its flag and the place of its processing thread. Every
run of the simulation is a run of these crossings.
-/

namespace SelfTraining.Traffic

open Steps

inductive Stage where
  | driving
  | waiting (promise : Promise)
  | inside
  deriving DecidableEq

structure Desk where
  waitingVehicles : WaitingVehicles
  isBlocked : Bool
  pc : ProcessPc

structure Crossings where
  stage : Id → Stage
  destination : Id → Id
  calls : Id → ℕ
  desk : Id → Desk
  isSet : Promise → Bool

namespace Crossings

@[simps]
def setStage (c : Crossings) (v : Id) (stage : Stage) : Crossings :=
  { c with stage := Function.update c.stage v stage }

@[simps]
def setDesk (c : Crossings) (i : Id) (desk : Desk) : Crossings :=
  { c with desk := Function.update c.desk i desk }

/-- The protocol: what vehicles and desks do to the crossings, and what it shows. -/
inductive Step : Event → Crossings → Crossings → Prop where
  | quiet {c : Crossings} {e : Event} (hpush : ∀ i p, e ≠ .pushBack i p)
      (hset : ∀ i p, e ≠ .setValue i p) (hleft : ∀ i v, e ≠ .vehicleHasLeft i v) : Step e c c
  | turn {c : Crossings} {v : Id} (i : Id) (hv : c.stage v = .driving) :
    Step .tau c { c with destination := Function.update c.destination v i }
  | pushBack {c : Crossings} {v : Id} (hv : c.stage v = .driving) :
    Step (.pushBack (c.destination v) ⟨v, c.calls v⟩) c
      { (c.setStage v (.waiting ⟨v, c.calls v⟩)).setDesk (c.destination v)
          { c.desk (c.destination v) with
            waitingVehicles :=
              (c.desk (c.destination v)).waitingVehicles.pushBack v ⟨v, c.calls v⟩ } with
        calls := Function.update c.calls v (c.calls v + 1) }
  | enter {c : Crossings} {v : Id} {p : Promise} (hv : c.stage v = .waiting p)
      (hp : c.isSet p = true) : Step .tau c (c.setStage v .inside)
  | leave {c : Crossings} {v : Id} (hv : c.stage v = .inside) :
    Step (.vehicleHasLeft (c.destination v) v) c
      ((c.setStage v .driving).setDesk (c.destination v)
        { c.desk (c.destination v) with isBlocked := false })
  | getSize {c : Crossings} {i : Id} (hi : (c.desk i).pc = .getSize) (pc : ProcessPc)
      (hpc : pc = if 0 < (c.desk i).waitingVehicles.getSize then .isBlocked else .getSize) :
    Step .tau c (c.setDesk i { c.desk i with pc })
  | isBlocked {c : Crossings} {i : Id} (hi : (c.desk i).pc = .isBlocked) (pc : ProcessPc)
      (hpc : pc = if (c.desk i).isBlocked then .getSize else .setIsBlocked) :
    Step .tau c (c.setDesk i { c.desk i with pc })
  | setIsBlocked {c : Crossings} {i : Id} (hi : (c.desk i).pc = .setIsBlocked) :
    Step .tau c (c.setDesk i { c.desk i with isBlocked := true, pc := .permitEntry })
  | permitEntry {c : Crossings} {i : Id} {p : Promise} {q : WaitingVehicles}
      (hi : (c.desk i).pc = .permitEntry)
      (hq : (c.desk i).waitingVehicles.permitEntryToFirstInQueue = some (p, q)) :
    Step (.setValue i p) c
      { c.setDesk i { c.desk i with waitingVehicles := q, pc := .getSize } with
        isSet := Function.update c.isSet p true }

end Crossings

/-! ### The simulation runs the protocol -/

section View

variable {R : Type}

/-- The stage a place in `drive` belongs to. -/
def Vehicle.stage (x : Vehicle R) : Stage :=
  match x.pc with
  | .lock | .unlock | .cycle | .crossed =>
    if x.hasEnteredIntersection then .inside else .driving
  | .addVehicleToQueue (.wait promise) => .waiting promise
  | .addVehicleToQueue .lock | .addVehicleToQueue .unlock | .addVehicleToQueue .pushBack
  | .assign _ _ => .driving
  | .addVehicleToQueue .relock | .addVehicleToQueue .getCurrentPhase
  | .addVehicleToQueue .waitForGreen | .addVehicleToQueue .unlockAgain
  | .entryGranted | .vehicleHasLeft _ _ => .inside

def Intersection.desk (x : Intersection) : Desk := ⟨x.waitingVehicles, x.isBlocked, x.pc⟩

namespace State

def crossings (s : State R) : Crossings where
  stage v := (s.vehicles v).stage
  destination v := (s.vehicles v).currDestination
  calls v := (s.vehicles v).calls
  desk i := (s.intersections i).desk
  isSet := s.isSet

lemma crossings_setVehicle (s : State R) (v : Id) (x : Vehicle R) :
    (s.setVehicle v x).crossings = { s.crossings with
      stage := Function.update s.crossings.stage v x.stage
      destination := Function.update s.crossings.destination v x.currDestination
      calls := Function.update s.crossings.calls v x.calls } := by
  simp only [crossings, setVehicle, Crossings.mk.injEq, and_true]
  refine ⟨?_, ?_, ?_⟩ <;> ext w <;> by_cases hw : w = v <;> simp [Function.update, hw]

lemma crossings_setIntersection (s : State R) (i : Id) (x : Intersection) :
    (s.setIntersection i x).crossings = s.crossings.setDesk i x.desk := by
  simp only [crossings, setIntersection, Crossings.setDesk, Crossings.mk.injEq, and_true, true_and]
  ext j
  by_cases hj : j = i <;> simp [Function.update, hj]

lemma crossings_setVehicle_same {s : State R} {v : Id} {x : Vehicle R}
    (hstage : x.stage = (s.vehicles v).stage)
    (hdest : x.currDestination = (s.vehicles v).currDestination)
    (hcalls : x.calls = (s.vehicles v).calls) :
    (s.setVehicle v x).crossings = s.crossings := by
  rw [crossings_setVehicle, hstage, hdest, hcalls]
  simp [crossings]

lemma crossings_setIntersection_same {s : State R} {i : Id} {x : Intersection}
    (h : x.desk = (s.intersections i).desk) : (s.setIntersection i x).crossings = s.crossings := by
  rw [crossings_setIntersection, h]
  simp [crossings, Crossings.setDesk]

lemma crossings_goto_same {s : State R} {v : Id} {pc : DrivePc}
    (h : Vehicle.stage { s.vehicles v with pc } = (s.vehicles v).stage) :
    (s.goto v pc).crossings = s.crossings :=
  crossings_setVehicle_same h rfl rfl

lemma crossings_isSet (s : State R) (isSet : Promise → Bool) :
    ({ s with isSet } : State R).crossings = { s.crossings with isSet } := rfl

end State

lemma Crossings.Step.congr {c d d' : Crossings} {e : Event} (h : Crossings.Step e c d)
    (hd : d' = d) : Crossings.Step e c d' :=
  hd ▸ h

lemma Crossings.Step.of_eq {c d : Crossings} {e : Event} (h : d = c)
    (hpush : ∀ i p, e ≠ .pushBack i p := by simp) (hset : ∀ i p, e ≠ .setValue i p := by simp)
    (hleft : ∀ i v, e ≠ .vehicleHasLeft i v := by simp) : Crossings.Step e c d := by
  subst h
  exact .quiet hpush hset hleft

section Threads

variable {s t : State R} {v : Id} {e : Event}

lemma Adds.crossings {pc : AddPc} (hpc : (s.vehicles v).pc = .addVehicleToQueue pc)
    (h : Adds s (s.vehicles v).currDestination v pc e t) :
    Crossings.Step e s.crossings t.crossings := by
  cases h with
  | lock hmtx => exact .of_eq (State.crossings_goto_same (by simp [Vehicle.stage, hpc]))
  | unlock => exact .of_eq (State.crossings_goto_same (by simp [Vehicle.stage, hpc]))
  | pushBack =>
    have hdriving : s.crossings.stage v = .driving := by
      simp [State.crossings, Vehicle.stage, hpc]
    refine (Crossings.Step.pushBack hdriving).congr ?_
    rw [State.crossings_setVehicle, State.crossings_setIntersection]
    simp [Crossings.setDesk, Crossings.setStage, State.crossings, Vehicle.stage, Intersection.desk]
  | @wait promise hset =>
    have hwait : s.crossings.stage v = .waiting promise := by
      simp [State.crossings, Vehicle.stage, hpc]
    refine (Crossings.Step.enter hwait hset).congr ?_
    rw [State.goto, State.crossings_setVehicle]
    simp [Crossings.setStage, State.crossings, Vehicle.stage]
  | relock hmtx => exact .of_eq (State.crossings_goto_same (by simp [Vehicle.stage, hpc]))
  | getCurrentPhase hphase =>
    refine .of_eq (State.crossings_goto_same ?_)
    split <;> simp [Vehicle.stage, hpc]
  | waitForGreen hmsg =>
    refine .of_eq ?_
    rw [State.crossings_goto_same]
    · exact State.crossings_setIntersection_same rfl
    · split <;> simp [State.setIntersection, Vehicle.stage, hpc]
  | unlockAgain => exact .of_eq (State.crossings_goto_same (by simp [Vehicle.stage, hpc]))

lemma Processes.crossings {i : Id} (h : Processes s i e t) :
    Crossings.Step e s.crossings t.crossings := by
  cases h with
  | getSize hpc =>
    rw [State.crossings_setIntersection]
    exact .getSize hpc _ rfl
  | isBlocked hpc =>
    rw [State.crossings_setIntersection]
    exact .isBlocked hpc _ rfl
  | setIsBlocked hpc =>
    rw [State.crossings_setIntersection]
    exact .setIsBlocked hpc
  | permitEntry hpc hfirst =>
    refine (Crossings.Step.permitEntry (c := s.crossings) hpc hfirst).congr ?_
    rw [State.crossings_isSet, State.crossings_setIntersection]
    rfl

lemma Cycles.crossings {i : Id} (h : Cycles s i e t) :
    Crossings.Step e s.crossings t.crossings := by
  cases h with
  | toggle => exact .of_eq (State.crossings_setIntersection_same rfl)
  | send => exact .of_eq (State.crossings_setIntersection_same rfl)

end Threads

section Protocol

variable [Double R] {net : Network} {s t : State R} {v : Id} {e : Event}

lemma Drives.crossings (h : Drives net s v e t) : Crossings.Step e s.crossings t.crossings := by
  cases h with
  | lock hpc hmtx => exact .of_eq (State.crossings_goto_same (by simp [Vehicle.stage, hpc]))
  | unlock hpc => exact .of_eq (State.crossings_goto_same (by simp [Vehicle.stage, hpc]))
  | cycle hpc time =>
    refine .of_eq (State.crossings_setVehicle_same ?_ rfl rfl)
    split
    · next hentry => simp [Vehicle.stage, hpc, hentry.2]
    · simp [Vehicle.stage, Vehicle.move, hpc]
  | addVehicleToQueue hpc hadds => exact hadds.crossings hpc
  | entryGranted hpc =>
    exact .of_eq (State.crossings_setVehicle_same (by simp [Vehicle.stage, hpc]) rfl rfl)
  | choose hpc hentered hnext =>
    exact .of_eq (State.crossings_goto_same (by simp [Vehicle.stage, hpc, hentered]))
  | goOn hpc => exact .of_eq (State.crossings_goto_same (by simp [Vehicle.stage, hpc]))
  | vehicleHasLeft hpc =>
    have hinside : s.crossings.stage v = .inside := by simp [State.crossings, Vehicle.stage, hpc]
    refine (Crossings.Step.leave hinside).congr ?_
    rw [State.goto, State.crossings_setVehicle, State.crossings_setIntersection]
    simp [Crossings.setDesk, Crossings.setStage, State.crossings, Vehicle.stage, Intersection.desk,
      Intersection.setIsBlocked, State.setIntersection]
  | @assign nextStreet nextIntersection hpc =>
    have hdriving : s.crossings.stage v = .driving := by
      simp [State.crossings, Vehicle.stage, hpc]
    refine (Crossings.Step.turn nextIntersection hdriving).congr ?_
    rw [State.crossings_setVehicle]
    simp [State.crossings, Vehicle.stage, Vehicle.setCurrentStreet, Vehicle.setCurrentDestination,
      hpc]

/-- **The simulation runs the protocol.** Every step of a thread is a step of the crossings
with the same event. -/
theorem step_crossings (h : Step net e s t) : Crossings.Step e s.crossings t.crossings := by
  rcases step_cases h with ⟨v, hdrive⟩ | ⟨i, hprocess⟩ | ⟨i, hcycle⟩
  · exact hdrive.crossings
  · exact hprocess.crossings
  · exact hcycle.crossings

end Protocol

end View

end SelfTraining.Traffic
