import SelfTraining.Lib.Fifo
import SelfTraining.Traffic.MutualExclusion

/-!
The order in which an intersection grants entry: its queue is a waiting line.

The test of the size and the removal take the lock one after the other, but only the
processing thread removes, so that a queue that was found to be filled stays so. The two
vectors are read side by side, the promise at a place being that of the vehicle there.
-/

namespace SelfTraining.Traffic

open Steps

namespace Crossings

variable {c d : Crossings} {e : Event}

/-! ### The two vectors -/

/-- The vehicles of a queue are those of its promises, and behind the test of the size the
queue is not empty. -/
structure Lined (c : Crossings) : Prop extends Sound c where
  aligned : ∀ i, (c.desk i).waitingVehicles.vehicles =
    (c.desk i).waitingVehicles.promises.map Promise.vehicle
  filled : ∀ i, (c.desk i).pc ≠ .getSize → (c.desk i).waitingVehicles.promises ≠ []

lemma permitEntry_vehicles {q q' : WaitingVehicles} {p : Promise}
    (h : q.permitEntryToFirstInQueue = some (p, q')) : q'.vehicles = q.vehicles.tail := by
  unfold WaitingVehicles.permitEntryToFirstInQueue at h
  split at h
  · rename_i hv
    obtain ⟨rfl, rfl⟩ := by simpa using h
    simp [hv]
  · cases h

lemma Lined.setDesk (hc : Lined c) {i : Id} {desk : Desk} (hd : Sound d)
    (hdesk : d.desk = Function.update c.desk i desk)
    (ha : desk.waitingVehicles.vehicles = desk.waitingVehicles.promises.map Promise.vehicle)
    (hf : desk.pc ≠ .getSize → desk.waitingVehicles.promises ≠ []) : Lined d := by
  refine { hd with aligned := fun j => ?_, filled := fun j hj => ?_ }
  · by_cases h : j = i
    · subst h
      simpa [hdesk] using ha
    · simpa [hdesk, h] using hc.aligned j
  · by_cases h : j = i
    · subst h
      simpa [hdesk] using hf (by simpa [hdesk] using hj)
    · simpa [hdesk, h] using hc.filled j (by simpa [hdesk, h] using hj)

/-- **One step keeps the two vectors side by side.** -/
lemma Lined.step (hc : Lined c) (h : Step e c d) : Lined d := by
  have hd := hc.toSound.step h
  cases h with
  | quiet => exact hc
  | turn => exact { hd with aligned := hc.aligned, filled := hc.filled }
  | enter => exact { hd with aligned := hc.aligned, filled := hc.filled }
  | @pushBack _ v hv =>
    refine hc.setDesk hd rfl ?_ fun _ => ?_
    · simp [WaitingVehicles.pushBack, hc.aligned]
    · simp [WaitingVehicles.pushBack]
  | @leave _ v hv =>
    exact hc.setDesk hd rfl (hc.aligned _) (hc.filled (c.destination v))
  | @getSize _ i hi pc hpc =>
    refine hc.setDesk hd rfl (hc.aligned i) fun hne hnil => hne ?_
    -- an empty queue fails the test
    change pc = .getSize
    have hsize : (c.desk i).waitingVehicles.vehicles = [] := by simp_all [hc.aligned]
    rw [hpc, WaitingVehicles.getSize, hsize]
    rfl
  | @isBlocked _ i hi pc hpc =>
    exact hc.setDesk hd rfl (hc.aligned i) fun _ => hc.filled i (by simp [hi])
  | @setIsBlocked _ i hi =>
    exact hc.setDesk hd rfl (hc.aligned i) fun _ => hc.filled i (by simp [hi])
  | @permitEntry _ i p q hi hq =>
    refine hc.setDesk hd rfl ?_ fun hne => absurd rfl hne
    change q.vehicles = q.promises.map Promise.vehicle
    rw [permitEntry_vehicles hq, hc.aligned, permitEntry_promises hq]
    rfl

lemma Lined.permitEntry_defined (hc : Lined c) {i : Id} (hi : (c.desk i).pc ≠ .getSize) :
    ∃ p q, (c.desk i).waitingVehicles.permitEntryToFirstInQueue = some (p, q) := by
  obtain ⟨p, ps, hps⟩ := List.exists_cons_of_ne_nil (hc.filled i hi)
  refine ⟨p, ⟨ps.map Promise.vehicle, ps⟩, ?_⟩
  unfold WaitingVehicles.permitEntryToFirstInQueue
  simp [hps, hc.aligned]

/-! ### The waiting line -/

/-- What a step shows of the waiting line of an intersection. -/
def lineEvent (i : Id) : Event → Option (Fifo.Event Promise)
  | .pushBack j p => if j = i then some (.arrive p) else none
  | .setValue j p => if j = i then some (.serve p) else none
  | _ => none

lemma lineEvent_eq_none {i : Id} {e : Event} (hpush : ∀ j p, e ≠ .pushBack j p)
    (hset : ∀ j p, e ≠ .setValue j p) : lineEvent i e = none := by
  cases e <;> simp_all [lineEvent]

lemma promises_setDesk {i j : Id} {desk : Desk}
    (h : desk.waitingVehicles = (c.desk j).waitingVehicles) :
    ((c.setDesk j desk).desk i).waitingVehicles = (c.desk i).waitingVehicles := by
  by_cases hi : i = j
  · subst hi
    simpa using h
  · simp [hi]

/-- **The queue of an intersection is a waiting line.** Each step of the protocol leaves it,
or puts a promise to its back, or takes the one at its front. -/
theorem line_step (i : Id) (h : Step e c d) :
    Trace Fifo.Step (c.desk i).waitingVehicles.promises (lineEvent i e).toList
      (d.desk i).waitingVehicles.promises := by
  -- a step that shows nothing and keeps the queue
  have hsilent : lineEvent i e = none →
      (d.desk i).waitingVehicles = (c.desk i).waitingVehicles →
      Trace Fifo.Step (c.desk i).waitingVehicles.promises (lineEvent i e).toList
        (d.desk i).waitingVehicles.promises := by
    intro he hd
    rw [he, hd]
    exact .nil
  cases h with
  | quiet hpush hset => exact hsilent (lineEvent_eq_none hpush hset) rfl
  | turn => exact hsilent rfl rfl
  | enter => exact hsilent rfl rfl
  | leave => exact hsilent rfl (promises_setDesk rfl)
  | getSize => exact hsilent rfl (promises_setDesk rfl)
  | isBlocked => exact hsilent rfl (promises_setDesk rfl)
  | setIsBlocked => exact hsilent rfl (promises_setDesk rfl)
  | @pushBack _ v hv =>
    by_cases hi : c.destination v = i
    · subst hi
      simpa [lineEvent, WaitingVehicles.pushBack] using .snoc .nil (Fifo.Step.arrive _ _)
    · exact hsilent (by simp [lineEvent, hi]) (by simp [Ne.symm hi])
  | @permitEntry _ j p q hj hq =>
    by_cases hi : j = i
    · subst hi
      rw [permitEntry_promises hq]
      simpa [lineEvent] using .snoc .nil (Fifo.Step.serve _ _)
    · exact hsilent (by simp [lineEvent, hi]) (by simp [Ne.symm hi])

/-! ### Promises that are set -/

/-- The promise that a step sets. -/
def setPromise : Event → Option Promise
  | .setValue _ p => some p
  | _ => none

lemma Lined.setPromise_step (hc : Lined c) (h : Step e c d) :
    (∀ p, setPromise e = some p → c.isSet p = false ∧ d.isSet p = true) ∧
      ∀ p, c.isSet p = true → d.isSet p = true := by
  cases h with
  | @permitEntry _ i p q hi hq =>
    have hqueued := hc.queued i p (by simp [permitEntry_promises hq])
    refine ⟨fun r hr => ?_, fun r hr => ?_⟩
    · obtain rfl : p = r := by simpa [setPromise] using hr
      exact ⟨hqueued.2.2, by simp⟩
    · by_cases hrp : r = p
      · simp [hrp]
      · simpa [hrp] using hr
  | @quiet _ e hpush hset =>
    refine ⟨fun p hp => ?_, fun _ hp => hp⟩
    cases e <;> simp_all [setPromise]
  | _ => exact ⟨by simp [setPromise], fun _ hp => hp⟩

end Crossings

/-! ### Runs of the simulation -/

lemma pc_of_waiting {R : Type} {x : Vehicle R} {p : Promise} (h : x.stage = .waiting p) :
    x.pc = .addVehicleToQueue (.wait p) := by
  obtain ⟨_, _, _, _, entered, _, _, pc⟩ := x
  rcases pc with _ | _ | _ | pc | _ | _ | _ | _
  case addVehicleToQueue => cases pc <;> simp_all [Vehicle.stage]
  all_goals cases entered <;> simp [Vehicle.stage] at h

section Runs

variable {R : Type} [Double R] {net : Network} {street destination : Id → Id} {s : State R}
  {es : List Event}

/-- The promises pushed to an intersection's queue, in order. -/
def pushed (i : Id) (es : List Event) : List Promise :=
  Fifo.arrivals (es.filterMap (Crossings.lineEvent i))

/-- The promises an intersection has set, in order. -/
def granted (i : Id) (es : List Event) : List Promise :=
  Fifo.services (es.filterMap (Crossings.lineEvent i))

lemma init_lined : Crossings.Lined (init street destination : State R).crossings where
  toSound :=
    have hgated : Crossings.Gated (init street destination : State R).crossings 0 none :=
      init_gated 0
    hgated.sound
  aligned i := by simp [State.crossings, init, Intersection.desk]
  filled i hi := by simp [State.crossings, init, Intersection.desk] at hi

lemma run_lined (h : Trace (Step net) (init street destination) es s) :
    Crossings.Lined s.crossings :=
  h.reaches.invariant (I := fun s => Crossings.Lined s.crossings) init_lined
    fun _ _ hu ⟨_, hstep⟩ => hu.step (step_crossings hstep)

lemma run_line (h : Trace (Step net) (init street destination) es s) (i : Id) :
    Trace Fifo.Step [] (es.filterMap (Crossings.lineEvent i))
      (s.intersections i).waitingVehicles.promises := by
  obtain ⟨line, hline, rfl⟩ := h.simulate
    (R := fun s line => line = (s.intersections i).waitingVehicles.promises)
    (fun e s t line hs hstep => by
      subst hs
      exact ⟨_, Crossings.line_step i (step_crossings hstep), rfl⟩) rfl
  exact hline

lemma run_setPromise (h : Trace (Step net) (init street destination) es s) :
    (es.filterMap Crossings.setPromise).Nodup ∧
      ∀ p ∈ es.filterMap Crossings.setPromise, s.isSet p = true := by
  induction h with
  | nil => simp
  | @snoc es e t u hrun hstep ih =>
    obtain ⟨hnew, hold⟩ := (run_lined hrun).setPromise_step (step_crossings hstep)
    obtain ⟨hnodup, hset⟩ := ih
    have hkeep : ∀ p ∈ es.filterMap Crossings.setPromise, u.isSet p = true :=
      fun p hp => hold p (hset p hp)
    rw [List.filterMap_append]
    cases he : Crossings.setPromise e with
    | none => simpa [List.filterMap_cons, he] using ⟨hnodup, by simpa using hkeep⟩
    | some p =>
      obtain ⟨hunset, hnow⟩ := hnew p he
      -- the promise was not set before, so it is none of those
      have hfresh : p ∉ es.filterMap Crossings.setPromise := by
        intro hp
        have hp' : t.isSet p = true := hset p hp
        rw [show t.isSet p = false from hunset] at hp'
        exact Bool.false_ne_true hp'
      rw [List.filterMap_cons_some he, List.filterMap_nil]
      refine ⟨hnodup.append (List.nodup_singleton p) (by simpa using hfresh), fun r hr => ?_⟩
      rcases List.mem_append.mp hr with hr | hr
      · exact hkeep r hr
      · obtain rfl := List.mem_singleton.mp hr
        exact hnow

/-- **Entry is granted first come, first served, and once.** In every reachable state the
vehicles in a queue are those that wait for the promises beside them, and the processing
thread removes from vectors that are not empty. No promise is set twice, and the promises
pushed to an intersection are those it has set and then those still queued, in one order. -/
theorem granted_in_order (h : Trace (Step net) (init street destination) es s) (i : Id) :
    (s.intersections i).waitingVehicles.vehicles =
        (s.intersections i).waitingVehicles.promises.map Promise.vehicle ∧
      (∀ p ∈ (s.intersections i).waitingVehicles.promises,
        (s.vehicles p.vehicle).pc = .addVehicleToQueue (.wait p) ∧
          (s.vehicles p.vehicle).currDestination = i) ∧
      ((s.intersections i).pc = .permitEntry → ∃ p q,
        (s.intersections i).waitingVehicles.permitEntryToFirstInQueue = some (p, q)) ∧
      (es.filterMap Crossings.setPromise).Nodup ∧
      pushed i es = granted i es ++ (s.intersections i).waitingVehicles.promises := by
  have hc := run_lined h
  refine ⟨hc.aligned i, fun p hp => ?_, fun hpc => ?_, (run_setPromise h).1,
    Fifo.arrivals_eq (run_line h i)⟩
  · obtain ⟨hstage, hdest, -⟩ := hc.queued i p hp
    exact ⟨pc_of_waiting hstage, hdest⟩
  · have hne : (s.crossings.desk i).pc ≠ .getSize := by
      change (s.intersections i).pc ≠ .getSize
      simp [hpc]
    exact hc.permitEntry_defined hne

end Runs

/-- Vehicles 1 and 2 come to intersection 0, and both wait there. -/
def bothWait : List Thread := .replicate 6 (.drive 1 3000 0) ++ .replicate 6 (.drive 2 3000 0)

/-- The first is let in, crosses on green and leaves, and the second is let in after it. -/
def oneByOne : List Thread :=
  .replicate 4 (.processVehicleQueue 0) ++ [.cycleThroughPhases 0] ++
    .replicate 7 (.drive 1 3000 0) ++ .replicate 4 (.processVehicleQueue 0)

/-- Two vehicles stand in the queue of an intersection and are let in one after the other. -/
theorem granted_in_order_two_vehicles : ∃ es₁ s₁ es₂ s,
    Trace (Step deadEnd) (init (fun _ => 0) (fun _ => 0) : State ℚ) es₁ s₁ ∧
      (s₁.intersections 0).waitingVehicles.promises = [⟨1, 0⟩, ⟨2, 0⟩] ∧
      pushed 0 es₁ = granted 0 es₁ ++ (s₁.intersections 0).waitingVehicles.promises ∧
      Trace (Step deadEnd) s₁ es₂ s ∧ granted 0 (es₁ ++ es₂) = [⟨1, 0⟩, ⟨2, 0⟩] ∧
      pushed 0 (es₁ ++ es₂) =
        granted 0 (es₁ ++ es₂) ++ (s.intersections 0).waitingVehicles.promises := by
  have hplay : (play deadEnd (init (fun _ => 0) (fun _ => 0) : State ℚ) bothWait).bind
      (fun run => (play deadEnd run.2 oneByOne).map fun run' =>
        ((run.2.intersections 0).waitingVehicles.promises, granted 0 (run.1 ++ run'.1))) =
      some ([⟨1, 0⟩, ⟨2, 0⟩], [⟨1, 0⟩, ⟨2, 0⟩]) := by
    decide +kernel
  obtain ⟨⟨es₁, s₁⟩, hrun₁, hrest⟩ := Option.bind_eq_some_iff.mp hplay
  obtain ⟨⟨es₂, s⟩, hrun₂, hes⟩ := Option.map_eq_some_iff.mp hrest
  obtain ⟨hqueue, hgranted⟩ := Prod.mk.injEq .. ▸ hes
  have h₁ := play_trace hrun₁
  have h₂ := play_trace hrun₂
  exact ⟨es₁, s₁, es₂, s, h₁, hqueue, (granted_in_order h₁ 0).2.2.2.2, h₂, hgranted,
    (granted_in_order (h₁.append h₂) 0).2.2.2.2⟩

end SelfTraining.Traffic
