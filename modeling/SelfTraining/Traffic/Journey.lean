import SelfTraining.Traffic.EntryOrder
import SelfTraining.Traffic.Roads

/-!
The journey of one vehicle, whatever the others do.

A vehicle drives, queues, is called in, stops at a red light or not, passes and leaves, and
then drives on to an intersection that its next street leads to. Of a run of the simulation
only the events that the vehicle takes part in are looked at, among them the permit, which
the intersection gives.
-/

namespace SelfTraining.Traffic

open Steps

inductive Leg where
  | driving
  | queued
  | called
  | halted
  | passed
  | inside
  deriving DecidableEq

structure Journey where
  street : Id
  destination : Id
  calls : ℕ
  leg : Leg
  deriving DecidableEq

/-- What a vehicle does on its way, one intersection after the other. -/
inductive Journey.Step (layout : Layout) (v : Id) : Event → Journey → Journey → Prop where
  | pushBack (street i : Id) (k : ℕ) :
    Step layout v (.pushBack i ⟨v, k⟩) ⟨street, i, k, .driving⟩ ⟨street, i, k + 1, .queued⟩
  | setValue (street i : Id) (k : ℕ) :
    Step layout v (.setValue i ⟨v, k⟩) ⟨street, i, k + 1, .queued⟩ ⟨street, i, k + 1, .called⟩
  | green (street i : Id) (k : ℕ) :
    Step layout v (.getCurrentPhase i v .green) ⟨street, i, k, .called⟩ ⟨street, i, k, .passed⟩
  | red (street i : Id) (k : ℕ) :
    Step layout v (.getCurrentPhase i v .red) ⟨street, i, k, .called⟩ ⟨street, i, k, .halted⟩
  | receiveGreen (street i : Id) (k : ℕ) :
    Step layout v (.receive i v .green) ⟨street, i, k, .halted⟩ ⟨street, i, k, .halted⟩
  | receiveRed (street i : Id) (k : ℕ) :
    Step layout v (.receive i v .red) ⟨street, i, k, .halted⟩ ⟨street, i, k, .passed⟩
  | returns (street i : Id) (k : ℕ) :
    Step layout v (.addVehicleToQueueReturns i v) ⟨street, i, k, .passed⟩ ⟨street, i, k, .inside⟩
  | left {street i next far : Id} (k : ℕ) (h : layout.Turn street i next far) :
    Step layout v (.vehicleHasLeft i v) ⟨street, i, k, .inside⟩ ⟨next, far, k, .driving⟩

/-- The event, if the vehicle takes part in it. -/
def Event.of (v : Id) (e : Event) : Option Event :=
  match e with
  | .pushBack _ p | .setValue _ p => if p.vehicle = v then some e else none
  | .getCurrentPhase _ w _ | .receive _ w _ | .addVehicleToQueueReturns _ w
  | .vehicleHasLeft _ w => if w = v then some e else none
  | .tau | .toggle _ _ | .send _ _ => none

/-! ### The journey of a vehicle in a state -/

section View

variable {R : Type}

/-- Where a vehicle is on its journey; `isSet` tells whether its promise has been set. -/
def Vehicle.leg (isSet : Promise → Bool) (x : Vehicle R) : Leg :=
  match x.pc with
  | .lock | .unlock | .cycle | .crossed => if x.hasEnteredIntersection then .inside else .driving
  | .addVehicleToQueue (.wait promise) => if isSet promise then .called else .queued
  | .addVehicleToQueue .relock | .addVehicleToQueue .getCurrentPhase => .called
  | .addVehicleToQueue .waitForGreen => .halted
  | .addVehicleToQueue .unlockAgain => .passed
  | .addVehicleToQueue .lock | .addVehicleToQueue .unlock | .addVehicleToQueue .pushBack
  | .assign _ _ => .driving
  | .entryGranted | .vehicleHasLeft _ _ => .inside

/-- A vehicle that has left an intersection is on its next street, also before its members
say so. -/
def Vehicle.journey (isSet : Promise → Bool) (x : Vehicle R) : Journey :=
  match x.pc with
  | .assign next far => ⟨next, far, x.calls, .driving⟩
  | _ => ⟨x.currStreet, x.currDestination, x.calls, x.leg isSet⟩

def State.journey (s : State R) (v : Id) : Journey := (s.vehicles v).journey s.isSet

lemma journey_congr {isSet : Promise → Bool} {x y : Vehicle R}
    (hstreet : y.currStreet = x.currStreet) (hdest : y.currDestination = x.currDestination)
    (hcalls : y.calls = x.calls) (hleg : y.leg isSet = x.leg isSet)
    (hx : ∀ next far, x.pc ≠ .assign next far) (hy : ∀ next far, y.pc ≠ .assign next far) :
    y.journey isSet = x.journey isSet := by
  have hj : ∀ z : Vehicle R, (∀ next far, z.pc ≠ .assign next far) →
      z.journey isSet = ⟨z.currStreet, z.currDestination, z.calls, z.leg isSet⟩ := by
    intro z hz
    unfold Vehicle.journey
    split
    · next hpc => exact absurd hpc (hz _ _)
    · rfl
  rw [hj x hx, hj y hy, hstreet, hdest, hcalls, hleg]

end View

/-! ### Promises and calls -/

namespace Crossings

variable {c d : Crossings} {e : Event}

/-- Whoever waits, waits for the promise of its latest call. -/
def Latest (c : Crossings) : Prop := ∀ v p, c.stage v = .waiting p → c.calls v = p.call + 1

lemma Latest.step (hc : Latest c) (h : Step e c d) : Latest d := by
  -- a vehicle that comes to a stage in which it does not wait
  have hset : ∀ {v stage}, (∀ p, stage ≠ Stage.waiting p) → Latest (c.setStage v stage) := by
    intro v stage hstage w p hw
    by_cases hwv : w = v
    · subst hwv
      exact absurd (by simpa using hw) (hstage p)
    · exact hc w p (by simpa [hwv] using hw)
  cases h with
  | quiet => exact hc
  | turn => exact hc
  | @pushBack _ v hv =>
    intro w p hw
    by_cases hwv : w = v
    · subst hwv
      obtain rfl : (⟨w, c.calls w⟩ : Promise) = p := by simpa using hw
      simp
    · simpa [hwv] using hc w p (by simpa [hwv] using hw)
  | enter => exact hset (by simp)
  | @leave _ v =>
    have hdriving : Latest (c.setStage v .driving) := hset (by simp)
    exact hdriving
  | getSize => exact hc
  | isBlocked => exact hc
  | setIsBlocked => exact hc
  | permitEntry => exact hc

end Crossings

/-! ### One step -/

section Steps

variable {R : Type} {layout : Layout} {s t : State R} {i v w : Id} {e : Event}

lemma journey_silent (he : e.of v = none) (h : t.journey v = s.journey v) :
    Trace (Journey.Step layout v) (s.journey v) (e.of v).toList (t.journey v) := by
  rw [he, h]
  exact .nil

lemma journey_shown {j j' : Journey} (he : e.of v = some e) (hj : s.journey v = j)
    (hj' : t.journey v = j') (h : Journey.Step layout v e j j') :
    Trace (Journey.Step layout v) (s.journey v) (e.of v).toList (t.journey v) := by
  rw [he, hj, hj']
  exact .snoc .nil h

lemma journey_goto {pc : DrivePc} (hpc : ∀ next far, (s.vehicles v).pc ≠ .assign next far)
    (hpc' : ∀ next far, pc ≠ .assign next far)
    (hleg : Vehicle.leg s.isSet { s.vehicles v with pc } = (s.vehicles v).leg s.isSet) :
    (s.goto v pc).journey v = s.journey v := by
  simp only [State.journey, State.goto, State.setVehicle, Function.update_self]
  exact journey_congr rfl rfl rfl hleg hpc hpc'

lemma journey_other {x : Vehicle R} (hw : v ≠ w) : (s.setVehicle w x).journey v = s.journey v := by
  simp [State.journey, State.setVehicle, hw]

lemma Adds.journey {pc : AddPc} (hpc : (s.vehicles v).pc = .addVehicleToQueue pc)
    (hc : Crossings.Sound s.crossings) (h : Adds s (s.vehicles v).currDestination v pc e t) :
    Trace (Journey.Step layout v) (s.journey v) (e.of v).toList (t.journey v) := by
  cases h with
  | lock =>
    exact journey_silent rfl (journey_goto (by simp [hpc]) (by simp) (by simp [Vehicle.leg, hpc]))
  | unlock =>
    exact journey_silent rfl (journey_goto (by simp [hpc]) (by simp) (by simp [Vehicle.leg, hpc]))
  | pushBack =>
    have hunset : s.isSet ⟨v, (s.vehicles v).calls⟩ = false := hc.next_not_set v
    refine journey_shown (by simp [Event.of]) ?_ ?_
      (.pushBack (s.vehicles v).currStreet (s.vehicles v).currDestination (s.vehicles v).calls)
    · simp [State.journey, Vehicle.journey, Vehicle.leg, hpc]
    · simp [State.journey, Vehicle.journey, Vehicle.leg, State.setVehicle, State.setIntersection,
        hunset]
  | wait hset =>
    refine journey_silent rfl (journey_goto (by simp [hpc]) (by simp) ?_)
    simp [Vehicle.leg, hpc, hset]
  | relock =>
    exact journey_silent rfl (journey_goto (by simp [hpc]) (by simp) (by simp [Vehicle.leg, hpc]))
  | @getCurrentPhase phase =>
    cases phase with
    | red =>
      refine journey_shown (by simp [Event.of]) ?_ ?_
        (.red (s.vehicles v).currStreet (s.vehicles v).currDestination (s.vehicles v).calls)
      all_goals
        simp [State.journey, Vehicle.journey, Vehicle.leg, State.goto, State.setVehicle, hpc]
    | green =>
      refine journey_shown (by simp [Event.of]) ?_ ?_
        (.green (s.vehicles v).currStreet (s.vehicles v).currDestination (s.vehicles v).calls)
      all_goals
        simp [State.journey, Vehicle.journey, Vehicle.leg, State.goto, State.setVehicle, hpc]
  | @waitForGreen msg =>
    cases msg with
    | red =>
      refine journey_shown (by simp [Event.of]) ?_ ?_
        (.receiveRed (s.vehicles v).currStreet (s.vehicles v).currDestination (s.vehicles v).calls)
      all_goals simp [State.journey, Vehicle.journey, Vehicle.leg, State.goto, State.setVehicle,
        State.setIntersection, hpc]
    | green =>
      refine journey_shown (by simp [Event.of]) ?_ ?_
        (.receiveGreen (s.vehicles v).currStreet (s.vehicles v).currDestination
          (s.vehicles v).calls)
      all_goals simp [State.journey, Vehicle.journey, Vehicle.leg, State.goto, State.setVehicle,
        State.setIntersection, hpc]
  | unlockAgain =>
    refine journey_shown (by simp [Event.of]) ?_ ?_
      (.returns (s.vehicles v).currStreet (s.vehicles v).currDestination (s.vehicles v).calls)
    all_goals simp [State.journey, Vehicle.journey, Vehicle.leg, Traffic.unlock, State.goto,
      State.setVehicle, hpc]

/-- **One step of the vehicle's own thread** is a step of its journey, or is not seen. -/
lemma Drives.journey [Double R] {net : Network} (hc : Crossings.Sound s.crossings)
    (hroad : OnRoad layout (s.vehicles v)) (h : Drives net s v e t) :
    Trace (Journey.Step layout v) (s.journey v) (e.of v).toList (t.journey v) := by
  cases h with
  | lock hpc | unlock hpc | goOn hpc =>
    exact journey_silent rfl (journey_goto (by simp [hpc]) (by simp) (by simp [Vehicle.leg, hpc]))
  | cycle hpc time =>
    refine journey_silent rfl ?_
    simp only [State.journey, State.setVehicle, Function.update_self]
    refine journey_congr rfl rfl rfl ?_ (by simp [hpc]) fun next far => ?_
    · split
      · next hentry => simp [Vehicle.leg, hpc, hentry.2]
      · simp [Vehicle.leg, Vehicle.move, hpc]
    · dsimp only
      split <;> simp
  | addVehicleToQueue hpc hadds => exact hadds.journey hpc hc
  | entryGranted hpc =>
    refine journey_silent rfl ?_
    simp only [State.journey, State.setVehicle, Function.update_self]
    exact journey_congr rfl rfl rfl (by simp [Vehicle.leg, hpc]) (by simp [hpc]) (by simp)
  | choose hpc hentered =>
    exact journey_silent rfl (journey_goto (by simp [hpc]) (by simp)
      (by simp [Vehicle.leg, hpc, hentered]))
  | @vehicleHasLeft next far hpc =>
    refine journey_shown (by simp [Event.of]) ?_ ?_
      (.left (s.vehicles v).calls (hroad.chosen next far (.inl hpc)))
    all_goals simp [State.journey, Vehicle.journey, Vehicle.leg, State.goto, State.setVehicle,
      State.setIntersection, hpc]
  | assign hpc =>
    refine journey_silent rfl ?_
    simp [State.journey, Vehicle.journey, Vehicle.leg, State.setVehicle, hpc,
      Vehicle.setCurrentStreet, Vehicle.setCurrentDestination]

lemma Drives.journey_other [Double R] {net : Network} (h : Drives net s w e t) (hw : v ≠ w) :
    e.of v = none ∧ t.journey v = s.journey v := by
  have hne : w ≠ v := hw.symm
  cases h with
  | addVehicleToQueue hpc hadds =>
    cases hadds with
    | lock | unlock | pushBack | wait | relock | getCurrentPhase | waitForGreen | unlockAgain =>
      exact ⟨by simp [Event.of, hne], SelfTraining.Traffic.journey_other hw⟩
  | lock | unlock | cycle | entryGranted | choose | goOn | vehicleHasLeft | assign =>
    exact ⟨by simp [Event.of, hne], SelfTraining.Traffic.journey_other hw⟩

lemma Processes.journey (hc : Crossings.Sound s.crossings) (hlatest : s.crossings.Latest)
    (h : Processes s i e t) :
    Trace (Journey.Step layout v) (s.journey v) (e.of v).toList (t.journey v) := by
  cases h with
  | getSize | isBlocked | setIsBlocked => exact journey_silent rfl rfl
  | @permitEntry p q _ hfirst =>
    obtain ⟨hstage, hdest, hunset⟩ := hc.queued i p
      (by simp [State.crossings, Intersection.desk, Crossings.permitEntry_promises hfirst])
    by_cases hv : p.vehicle = v
    · subst hv
      have hpc := pc_of_waiting hstage
      have hcall : (s.vehicles p.vehicle).calls = p.call + 1 := hlatest _ p hstage
      have hdest : (s.vehicles p.vehicle).currDestination = i := hdest
      have hunset : s.isSet p = false := hunset
      refine journey_shown (by simp [Event.of]) ?_ ?_
        (.setValue (s.vehicles p.vehicle).currStreet i p.call)
      · simp [State.journey, Vehicle.journey, Vehicle.leg, hpc, hunset, hcall, hdest]
      · simp [State.journey, Vehicle.journey, Vehicle.leg, State.setIntersection, hpc, hcall, hdest]
    · refine journey_silent (by simp [Event.of, hv]) ?_
      -- the vehicle waits for another promise
      have hother : ∀ r, (s.vehicles v).stage = .waiting r → r ≠ p := by
        rintro r hr rfl
        exact hv (hc.own v r hr).1
      simp only [State.journey, State.setIntersection, Vehicle.journey]
      split
      · rfl
      · rw [Journey.mk.injEq]
        refine ⟨rfl, rfl, rfl, ?_⟩
        unfold Vehicle.leg
        split
        case h_5 promise hpc =>
          have hne := hother promise (by simp [Vehicle.stage, hpc])
          simp [hne]
        all_goals rfl

lemma Cycles.journey (h : Cycles s i e t) :
    e.of v = none ∧ t.journey v = s.journey v := by
  cases h with
  | toggle | send => exact ⟨rfl, rfl⟩

end Steps

/-! ### Runs -/

section Runs

variable {R : Type} [Double R] {layout : Layout} {null : Id} {calls : List Setter}
variable {street destination : Id → Id} {s t : State R} {v : Id} {e : Event} {es : List Event}

/-- **One step, whichever thread takes it,** is a step of the vehicle's journey or is not seen. -/
lemma journey_step (hlined : Crossings.Lined s.crossings) (hlatest : s.crossings.Latest)
    (hroad : OnRoad layout (s.vehicles v)) (h : Step (Network.build null calls) e s t) :
    Trace (Journey.Step layout v) (s.journey v) (e.of v).toList (t.journey v) := by
  rcases step_cases h with ⟨w, hdrive⟩ | ⟨i, hprocess⟩ | ⟨i, hcycle⟩
  · by_cases hw : v = w
    · subst hw
      exact hdrive.journey hlined.toSound hroad
    · obtain ⟨he, ht⟩ := hdrive.journey_other hw
      exact journey_silent he ht
  · exact hprocess.journey hlined.toSound hlatest
  · obtain ⟨he, ht⟩ := hcycle.journey (v := v)
    exact journey_silent he ht

/-- The journey that the state shows, with what holds of the state for it to go on. -/
structure Shows (layout : Layout) (v : Id) (s : State R) (j : Journey) : Prop where
  journey : j = s.journey v
  lined : Crossings.Lined s.crossings
  latest : s.crossings.Latest
  onRoad : OnRoad layout (s.vehicles v)

lemma init_shows (hv : layout.Meets (street v) (destination v)) :
    Shows layout v (init street destination : State R)
      ⟨street v, destination v, 0, .driving⟩ where
  journey := rfl
  lined := init_lined
  latest := by simp [Crossings.Latest, State.crossings, init, Vehicle.stage]
  onRoad := ⟨hv, by simp [init]⟩

lemma Shows.step (hcalls : calls.Perm layout.setters) {j : Journey} (hj : Shows layout v s j)
    (h : Step (Network.build null calls) e s t) :
    ∃ j', Trace (Journey.Step layout v) j (e.of v).toList j' ∧ Shows layout v t j' := by
  obtain ⟨rfl, hlined, hlatest, hroad⟩ := hj
  have hcrossings := step_crossings h
  exact ⟨t.journey v, journey_step hlined hlatest hroad h, rfl, hlined.step hcrossings,
    hlatest.step hcrossings, (hroad.step hcalls h).1⟩

lemma shows_of_run (hcalls : calls.Perm layout.setters)
    (hv : layout.Meets (street v) (destination v))
    (h : Trace (Step (Network.build null calls)) (init street destination : State R) es s) :
    ∃ j, Trace (Journey.Step layout v) ⟨street v, destination v, 0, .driving⟩
      (es.filterMap (Event.of v)) j ∧ Shows layout v s j :=
  h.simulate (fun _ _ _ _ hj hstep => hj.step hcalls hstep) (init_shows hv)

/-- **A vehicle's journey.** Whatever the other vehicles, the intersections and the lights do in
between, and in whatever order the network was built: what a vehicle takes part in along a
run of the simulation is a journey from its first street, on which each intersection is
passed in the same order of events and is left for a street that it joins. -/
theorem vehicle_journey (layout : Layout) (null : Id) (calls : List Setter)
    (hcalls : calls.Perm layout.setters) (street destination : Id → Id) (v : Id)
    (hv : layout.Meets (street v) (destination v)) (es : List Event) (s : State R)
    (h : Trace (Step (Network.build null calls)) (init street destination) es s) :
    Trace (Journey.Step layout v) ⟨street v, destination v, 0, .driving⟩
      (es.filterMap (Event.of v)) (s.journey v) := by
  obtain ⟨j, hrun, rfl, -⟩ := shows_of_run hcalls hv h
  exact hrun

end Runs

/-! ### The way over the intersections -/

/-- The intersection that an event shows a vehicle leave. -/
def Event.leftAt (v : Id) : Event → Option Id
  | .vehicleHasLeft i w => if w = v then some i else none
  | _ => none

/-- A way that starts on a street, crosses the intersections listed and comes to a street and
the intersection that it leads to. -/
inductive Layout.Way (layout : Layout) (street i : Id) : List Id → Id → Id → Prop where
  | nil : Way layout street i [] street i
  | turn {crossed : List Id} {street' j next far : Id} :
    Way layout street i crossed street' j → layout.Turn street' j next far →
    Way layout street i (crossed ++ [j]) next far

lemma way_of_journey {layout : Layout} {v : Id} {j j' : Journey} {es : List Event}
    (h : Trace (Journey.Step layout v) j es j') :
    layout.Way j.street j.destination (es.filterMap (Event.leftAt v)) j'.street
      j'.destination := by
  induction h with
  | nil => exact .nil
  | snoc _ hstep ih =>
    rw [List.filterMap_append]
    cases hstep with
    | left k hturn => simpa [Event.leftAt] using ih.turn hturn
    | _ =>
      rw [List.filterMap_cons_none rfl, List.filterMap_nil, List.append_nil]
      exact ih

lemma filterMap_leftAt_of {v : Id} (es : List Event) :
    (es.filterMap (Event.of v)).filterMap (Event.leftAt v) = es.filterMap (Event.leftAt v) := by
  rw [List.filterMap_filterMap]
  refine List.filterMap_congr fun e _ => ?_
  cases e with
  | vehicleHasLeft i w => by_cases hw : w = v <;> simp [Event.of, Event.leftAt, hw]
  | _ => simp [Event.of, Event.leftAt, Option.bind_eq_none_iff]

/-- Vehicles 1 and 2 come to intersection 1, and the first is let in. It finds the light red, and
takes the message that it is green, and then the one that it is red; it leaves, and the second is
let in. -/
def turningOnRed : List Thread :=
  .replicate 6 (.drive 1 3000 0) ++ .replicate 6 (.drive 2 3000 0) ++
    .replicate 4 (.processVehicleQueue 1) ++ .replicate 3 (.drive 1 3000 0) ++
    .replicate 2 (.cycleThroughPhases 1) ++ [.drive 1 3000 0] ++
    .replicate 2 (.cycleThroughPhases 1) ++ .replicate 6 (.drive 1 3000 0) ++
    .replicate 4 (.processVehicleQueue 1)

/-- The vehicle that turns at intersection 1 goes through all legs of its journey, with the other
behind it in the queue. -/
theorem vehicle_journey_turning : ∃ es s,
    Trace (Step (Network.build 0 twoStreets.setters))
      (init (fun _ => 10) (fun _ => 1) : State ℚ) es s ∧
      es.filterMap (Event.of 1) = [.pushBack 1 ⟨1, 0⟩, .setValue 1 ⟨1, 0⟩,
        .getCurrentPhase 1 1 .red, .receive 1 1 .green, .receive 1 1 .red,
        .addVehicleToQueueReturns 1 1, .vehicleHasLeft 1 1] ∧
      es.filterMap (Event.of 2) = [.pushBack 1 ⟨2, 0⟩, .setValue 1 ⟨2, 0⟩] ∧
      Trace (Journey.Step twoStreets 1) ⟨10, 1, 0, .driving⟩ (es.filterMap (Event.of 1))
        (s.journey 1) := by
  have hplay : (play (Network.build 0 twoStreets.setters)
      (init (fun _ => 10) (fun _ => 1) : State ℚ) turningOnRed).map
      (fun run => (run.1.filterMap (Event.of 1), run.1.filterMap (Event.of 2))) =
      some ([.pushBack 1 ⟨1, 0⟩, .setValue 1 ⟨1, 0⟩, .getCurrentPhase 1 1 .red,
        .receive 1 1 .green, .receive 1 1 .red, .addVehicleToQueueReturns 1 1,
        .vehicleHasLeft 1 1], [.pushBack 1 ⟨2, 0⟩, .setValue 1 ⟨2, 0⟩]) := by
    decide +kernel
  obtain ⟨⟨es, s⟩, hrun, hes⟩ := Option.map_eq_some_iff.mp hplay
  obtain ⟨hfirst, hsecond⟩ := Prod.mk.injEq .. ▸ hes
  exact ⟨es, s, play_trace hrun, hfirst, hsecond, vehicle_journey twoStreets 0 _ (.refl _)
    (fun _ => 10) (fun _ => 1) 1 ⟨⟨10, 0, 1⟩, .head _, rfl, .inr rfl⟩ es s (play_trace hrun)⟩

end SelfTraining.Traffic
