import Mathlib.Algebra.Order.Field.Rat
import Mathlib.Logic.Function.Basic
import Mathlib.Data.List.Basic
import SelfTraining.Lib.Steps

/-!
The concurrent traffic simulation: vehicles, intersections and traffic lights, each with
its threads, as one step relation.

A step is what one thread does between two accesses to shared memory: taking or giving
back the static `_mtx`, one operation of a queue under the queue's own mutex, one read or
write of `_isBlocked` or of `_currentPhase`. Objects are known by their `_id`; two objects
never share one.
-/

namespace SelfTraining.Traffic

open Steps

/-- The `_id` of a traffic object. -/
abbrev Id := ℕ

/-- The operations of `double` that `drive` uses. Nothing is assumed of their rounding. -/
class Double (R : Type) extends Add R, Mul R, Div R, NatCast R, OfScientific R, LE R where
  decLe : DecidableLE R

instance Double.decidableLE {R : Type} [Double R] : DecidableLE R := Double.decLe

instance : Double Float where
  natCast := Float.ofNat
  decLe := inferInstance

instance : Double ℚ where
  decLe := inferInstance

/-! ### Traffic lights -/

inductive TrafficLightPhase where
  | red
  | green
  deriving DecidableEq

/-- `MessageQueue`, by its `_queue` from front to back. -/
abbrev MessageQueue (T : Type) := List T

def MessageQueue.send {T : Type} (queue : MessageQueue T) (msg : T) : MessageQueue T :=
  queue ++ [msg]

/-- `none` while the receiver has to wait. -/
def MessageQueue.receive {T : Type} (queue : MessageQueue T) : Option (T × MessageQueue T) :=
  queue.getLast?.map fun msg => (msg, queue.dropLast)

/-- Where `cycleThroughPhases` stands. -/
inductive CyclePc where
  | toggle
  | send (msg : TrafficLightPhase)
  deriving DecidableEq

structure TrafficLight where
  currentPhase : TrafficLightPhase
  msgQueue : MessageQueue TrafficLightPhase
  pc : CyclePc

def TrafficLight.getCurrentPhase (light : TrafficLight) : TrafficLightPhase :=
  light.currentPhase

/-! ### Waiting vehicles -/

/-- The promise a vehicle makes for one of its calls of `addVehicleToQueue`. -/
structure Promise where
  vehicle : Id
  call : ℕ
  deriving DecidableEq

structure WaitingVehicles where
  vehicles : List Id
  promises : List Promise

namespace WaitingVehicles

def getSize (q : WaitingVehicles) : ℕ := q.vehicles.length

def pushBack (q : WaitingVehicles) (vehicle : Id) (promise : Promise) : WaitingVehicles :=
  ⟨q.vehicles ++ [vehicle], q.promises ++ [promise]⟩

/-- The promise that is set, and the queue without its front; `none` on empty vectors, where
the call is undefined. -/
def permitEntryToFirstInQueue (q : WaitingVehicles) : Option (Promise × WaitingVehicles) :=
  match q.promises, q.vehicles with
  | firstPromise :: promises, _ :: vehicles => some (firstPromise, ⟨vehicles, promises⟩)
  | _, _ => none

end WaitingVehicles

/-! ### Intersections and streets -/

/-- Where `processVehicleQueue` stands. -/
inductive ProcessPc where
  | getSize
  | isBlocked
  | setIsBlocked
  | permitEntry
  deriving DecidableEq

structure Intersection where
  waitingVehicles : WaitingVehicles
  isBlocked : Bool
  trafficLight : TrafficLight
  pc : ProcessPc

def Intersection.setIsBlocked (x : Intersection) (isBlocked : Bool) : Intersection :=
  { x with isBlocked }

/-- The streets' two ends and each intersection's `_streets`. -/
structure Network where
  getInIntersection : Id → Id
  getOutIntersection : Id → Id
  streets : Id → List Id

namespace Network

/-- `_length` of every street. -/
def getLength {R : Type} [Double R] : R := 1000.0

/-- Streets without ends yet, whose pointers are both `null`. -/
def unbuilt (null : Id) : Network := ⟨fun _ => null, fun _ => null, fun _ => []⟩

def addStreet (net : Network) (i street : Id) : Network :=
  { net with streets := Function.update net.streets i (net.streets i ++ [street]) }

def setInIntersection (net : Network) (street i : Id) : Network :=
  { net with getInIntersection := Function.update net.getInIntersection street i }.addStreet i
    street

def setOutIntersection (net : Network) (street i : Id) : Network :=
  { net with getOutIntersection := Function.update net.getOutIntersection street i }.addStreet i
    street

def queryStreets (net : Network) (i incoming : Id) : List Id :=
  (net.streets i).filter (incoming != ·)

/-- The end of a street that the given intersection is not: `i1`, seen from the destination,
and `nextIntersection`, seen from the intersection crossed. -/
def otherEnd (net : Network) (street i : Id) : Id :=
  if net.getInIntersection street = i then net.getOutIntersection street
  else net.getInIntersection street

end Network

/-! ### Vehicles -/

/-- Where a vehicle's thread stands inside `addVehicleToQueue`. -/
inductive AddPc where
  | lock
  | unlock
  | pushBack
  | wait (promise : Promise)
  | relock
  | getCurrentPhase
  | waitForGreen
  | unlockAgain
  deriving DecidableEq

/-- Where a vehicle's thread stands in `drive`. -/
inductive DrivePc where
  | lock
  | unlock
  | cycle
  | addVehicleToQueue (pc : AddPc)
  | entryGranted
  | crossed
  | vehicleHasLeft (nextStreet nextIntersection : Id)
  | assign (nextStreet nextIntersection : Id)
  deriving DecidableEq

structure Vehicle (R : Type) where
  currStreet : Id
  currDestination : Id
  posStreet : R
  speed : R
  hasEnteredIntersection : Bool
  completion : R
  /-- How many calls of `addVehicleToQueue` have made their promise. -/
  calls : ℕ
  pc : DrivePc

namespace Vehicle

variable {R : Type}

def setCurrentStreet (x : Vehicle R) (street : Id) : Vehicle R := { x with currStreet := street }

def setCurrentDestination [Double R] (x : Vehicle R) (destination : Id) : Vehicle R :=
  { x with currDestination := destination, posStreet := 0.0 }

/-- The arithmetic of one cycle: the new position and the completion rate. -/
def move [Double R] (x : Vehicle R) (timeSinceLastUpdate : ℕ) : Vehicle R :=
  let posStreet := x.posStreet + x.speed * (timeSinceLastUpdate : R) / (1000 : ℕ)
  { x with posStreet, completion := posStreet / Network.getLength }

end Vehicle

/-! ### States -/

structure State (R : Type) where
  vehicles : Id → Vehicle R
  intersections : Id → Intersection
  /-- The holder of `TrafficObject::_mtx`. -/
  mtx : Option Id
  /-- The promises that have been set. -/
  isSet : Promise → Bool

namespace State

variable {R : Type}

def setVehicle (s : State R) (v : Id) (x : Vehicle R) : State R :=
  { s with vehicles := Function.update s.vehicles v x }

def setIntersection (s : State R) (i : Id) (x : Intersection) : State R :=
  { s with intersections := Function.update s.intersections i x }

/-- The vehicle's thread goes on at `pc`. -/
def goto (s : State R) (v : Id) (pc : DrivePc) : State R :=
  s.setVehicle v { s.vehicles v with pc }

end State

/-- What a step shows. -/
inductive Event where
  | tau
  | pushBack (i : Id) (promise : Promise)
  | setValue (i : Id) (promise : Promise)
  | getCurrentPhase (i v : Id) (phase : TrafficLightPhase)
  | receive (i v : Id) (msg : TrafficLightPhase)
  | addVehicleToQueueReturns (i v : Id)
  | vehicleHasLeft (i v : Id)
  | toggle (i : Id) (phase : TrafficLightPhase)
  | send (i : Id) (msg : TrafficLightPhase)
  deriving DecidableEq

/-! ### The threads -/

section Threads

variable {R : Type} [Double R]

/-- `lck.lock()`; no step while another thread holds the mutex. -/
def lock (s : State R) (v : Id) (pc : DrivePc) : Option (Event × State R) :=
  if s.mtx = none then some (.tau, { s.goto v pc with mtx := some v }) else none

/-- `lck.unlock()`. -/
def unlock (s : State R) (v : Id) (pc : DrivePc) : State R :=
  { s.goto v pc with mtx := none }

/-- The next statement of `Intersection::addVehicleToQueue`, called by vehicle `v`. -/
def addVehicleToQueue (s : State R) (i v : Id) : AddPc → Option (Event × State R)
  | .lock => lock s v (.addVehicleToQueue .unlock)
  | .unlock => some (.tau, unlock s v (.addVehicleToQueue .pushBack))
  | .pushBack =>
    let vehicle := s.vehicles v
    let x := s.intersections i
    let promise : Promise := ⟨v, vehicle.calls⟩
    some (.pushBack i promise,
      (s.setIntersection i
        { x with waitingVehicles := x.waitingVehicles.pushBack v promise }).setVehicle v
        { vehicle with calls := vehicle.calls + 1, pc := .addVehicleToQueue (.wait promise) })
  | .wait promise =>
    if s.isSet promise then some (.tau, s.goto v (.addVehicleToQueue .relock)) else none
  | .relock => lock s v (.addVehicleToQueue .getCurrentPhase)
  | .getCurrentPhase =>
    let phase := (s.intersections i).trafficLight.getCurrentPhase
    some (.getCurrentPhase i v phase, s.goto v (.addVehicleToQueue
      (if phase = .red then .waitForGreen else .unlockAgain)))
  | .waitForGreen =>
    let x := s.intersections i
    x.trafficLight.msgQueue.receive.map fun (msg, msgQueue) =>
      (.receive i v msg,
        (s.setIntersection i { x with trafficLight := { x.trafficLight with msgQueue } }).goto v
          (.addVehicleToQueue (if msg = .green then .waitForGreen else .unlockAgain)))
  | .unlockAgain => some (.addVehicleToQueueReturns i v, unlock s v .entryGranted)

/-- The next statement of `Vehicle::drive`. The clock gives `timeSinceLastUpdate`, the
random engine `draw`. -/
def drive (net : Network) (s : State R) (v timeSinceLastUpdate draw : ℕ) :
    Option (Event × State R) :=
  let x := s.vehicles v
  match x.pc with
  | .lock => lock s v .unlock
  | .unlock => some (.tau, unlock s v .cycle)
  | .cycle =>
    if 1 ≤ timeSinceLastUpdate then
      let x := x.move timeSinceLastUpdate
      some (.tau, s.setVehicle v { x with
        pc := if 0.9 ≤ x.completion ∧ x.hasEnteredIntersection = false then
          .addVehicleToQueue .lock else .crossed })
    else none
  | .addVehicleToQueue pc => addVehicleToQueue s x.currDestination v pc
  | .entryGranted =>
    some (.tau, s.setVehicle v
      { x with speed := x.speed / 10.0, hasEnteredIntersection := true, pc := .crossed })
  | .crossed =>
    if 1.0 ≤ x.completion ∧ x.hasEnteredIntersection = true then
      let streetOptions := net.queryStreets x.currDestination x.currStreet
      let nextStreet :=
        if 0 < streetOptions.length then streetOptions[draw]? else some x.currStreet
      nextStreet.map fun nextStreet =>
        (.tau, s.goto v
          (.vehicleHasLeft nextStreet (net.otherEnd nextStreet x.currDestination)))
    else some (.tau, s.goto v .cycle)
  | .vehicleHasLeft nextStreet nextIntersection =>
    let i := x.currDestination
    some (.vehicleHasLeft i v,
      (s.setIntersection i ((s.intersections i).setIsBlocked false)).goto v
        (.assign nextStreet nextIntersection))
  | .assign nextStreet nextIntersection =>
    let x := (x.setCurrentDestination nextIntersection).setCurrentStreet nextStreet
    some (.tau, s.setVehicle v
      { x with speed := x.speed * 10.0, hasEnteredIntersection := false, pc := .cycle })

/-- The next statement of `Intersection::processVehicleQueue`. -/
def processVehicleQueue (s : State R) (i : Id) : Option (Event × State R) :=
  let x := s.intersections i
  match x.pc with
  | .getSize =>
    some (.tau, s.setIntersection i
      { x with pc := if 0 < x.waitingVehicles.getSize then .isBlocked else .getSize })
  | .isBlocked =>
    some (.tau, s.setIntersection i
      { x with pc := if x.isBlocked then .getSize else .setIsBlocked })
  | .setIsBlocked =>
    some (.tau, s.setIntersection i { x.setIsBlocked true with pc := .permitEntry })
  | .permitEntry =>
    x.waitingVehicles.permitEntryToFirstInQueue.map fun (promise, waitingVehicles) =>
      (.setValue i promise,
        { s.setIntersection i { x with waitingVehicles, pc := .getSize } with
          isSet := Function.update s.isSet promise true })

/-- The next statement of `TrafficLight::cycleThroughPhases`; the time to the next toggle is
left open. -/
def cycleThroughPhases (s : State R) (i : Id) : Event × State R :=
  let x := s.intersections i
  let light := x.trafficLight
  match light.pc with
  | .toggle =>
    let phase := if light.currentPhase = .red then .green else .red
    (.toggle i phase, s.setIntersection i
      { x with trafficLight := { light with currentPhase := phase, pc := .send phase } })
  | .send msg =>
    (.send i msg, s.setIntersection i
      { x with trafficLight := { light with msgQueue := light.msgQueue.send msg, pc := .toggle } })

/-- One of the threads, with what its next statement takes from outside. -/
inductive Thread where
  | drive (v timeSinceLastUpdate draw : ℕ)
  | processVehicleQueue (i : Id)
  | cycleThroughPhases (i : Id)

def next (net : Network) (s : State R) : Thread → Option (Event × State R)
  | .drive v timeSinceLastUpdate draw => drive net s v timeSinceLastUpdate draw
  | .processVehicleQueue i => processVehicleQueue s i
  | .cycleThroughPhases i => some (cycleThroughPhases s i)

/-- Some thread takes its next step. -/
def Step (net : Network) (e : Event) (s t : State R) : Prop :=
  ∃ thread, next net s thread = some (e, t)

/-- The state in which the threads are launched: every vehicle stands at the start of a street
with a destination, nobody waits and no intersection is blocked. -/
def init (street destination : Id → Id) : State R where
  vehicles v := ⟨street v, destination v, 0.0, (400 : ℕ), false, 0.0, 0, .lock⟩
  intersections _ := ⟨⟨[], []⟩, false, ⟨.red, [], .toggle⟩, .getSize⟩
  mtx := none
  isSet _ := false

/-- Lets the threads of a schedule take their next steps in order. -/
def play (net : Network) (s : State R) : List Thread → Option (List Event × State R)
  | [] => some ([], s)
  | thread :: schedule => do
    let (e, t) ← next net s thread
    let (es, u) ← play net t schedule
    return (e :: es, u)

lemma play_trace {net : Network} {s t : State R} {es : List Event} {schedule : List Thread}
    (h : play net s schedule = some (es, t)) : Trace (Step net) s es t := by
  induction schedule generalizing s es with
  | nil =>
    obtain ⟨rfl, rfl⟩ : [] = es ∧ s = t := by simpa [play] using h
    exact .nil
  | cons thread schedule ih =>
    simp only [play, Option.bind_eq_bind, Option.bind_eq_some_iff, Prod.exists] at h
    obtain ⟨e, u, hnext, es', u', hplay, heq⟩ := h
    obtain ⟨rfl, rfl⟩ : e :: es' = es ∧ u' = t := by simpa using heq
    exact .cons ⟨thread, hnext⟩ (ih hplay)

end Threads

end SelfTraining.Traffic
