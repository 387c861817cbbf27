import SelfTraining.Traffic.Model

/-!
What the next statement of a thread can do.

One constructor for each outcome of a statement: the event that it shows, the state that it
leaves, and the test that has led to it.
-/

namespace SelfTraining.Traffic

variable {R : Type}

/-- What `addVehicleToQueue` does next, by the statement it stands at. -/
inductive Adds (s : State R) (i v : Id) : AddPc → Event → State R → Prop where
  | lock (hmtx : s.mtx = none) :
    Adds s i v .lock .tau { s.goto v (.addVehicleToQueue .unlock) with mtx := some v }
  | unlock : Adds s i v .unlock .tau (unlock s v (.addVehicleToQueue .pushBack))
  | pushBack :
    Adds s i v .pushBack (.pushBack i ⟨v, (s.vehicles v).calls⟩)
      ((s.setIntersection i { s.intersections i with
        waitingVehicles := (s.intersections i).waitingVehicles.pushBack v
          ⟨v, (s.vehicles v).calls⟩ }).setVehicle v
        { s.vehicles v with
          calls := (s.vehicles v).calls + 1
          pc := .addVehicleToQueue (.wait ⟨v, (s.vehicles v).calls⟩) })
  | wait {promise : Promise} (hset : s.isSet promise = true) :
    Adds s i v (.wait promise) .tau (s.goto v (.addVehicleToQueue .relock))
  | relock (hmtx : s.mtx = none) :
    Adds s i v .relock .tau { s.goto v (.addVehicleToQueue .getCurrentPhase) with mtx := some v }
  | getCurrentPhase {phase : TrafficLightPhase}
      (hphase : (s.intersections i).trafficLight.getCurrentPhase = phase) :
    Adds s i v .getCurrentPhase (.getCurrentPhase i v phase) (s.goto v (.addVehicleToQueue
      (if phase = .red then .waitForGreen else .unlockAgain)))
  | waitForGreen {msg : TrafficLightPhase} {msgQueue : MessageQueue TrafficLightPhase}
      (hmsg : (s.intersections i).trafficLight.msgQueue.receive = some (msg, msgQueue)) :
    Adds s i v .waitForGreen (.receive i v msg)
      ((s.setIntersection i { s.intersections i with
        trafficLight := { (s.intersections i).trafficLight with msgQueue } }).goto v
        (.addVehicleToQueue (if msg = .green then .waitForGreen else .unlockAgain)))
  | unlockAgain :
    Adds s i v .unlockAgain (.addVehicleToQueueReturns i v) (unlock s v .entryGranted)

/-- What `processVehicleQueue` does next. -/
inductive Processes (s : State R) (i : Id) : Event → State R → Prop where
  | getSize (hpc : (s.intersections i).pc = .getSize) :
    Processes s i .tau (s.setIntersection i { s.intersections i with
      pc := if 0 < (s.intersections i).waitingVehicles.getSize then .isBlocked else .getSize })
  | isBlocked (hpc : (s.intersections i).pc = .isBlocked) :
    Processes s i .tau (s.setIntersection i { s.intersections i with
      pc := if (s.intersections i).isBlocked then .getSize else .setIsBlocked })
  | setIsBlocked (hpc : (s.intersections i).pc = .setIsBlocked) :
    Processes s i .tau (s.setIntersection i
      { (s.intersections i).setIsBlocked true with pc := .permitEntry })
  | permitEntry {promise : Promise} {waitingVehicles : WaitingVehicles}
      (hpc : (s.intersections i).pc = .permitEntry)
      (hfirst : (s.intersections i).waitingVehicles.permitEntryToFirstInQueue =
        some (promise, waitingVehicles)) :
    Processes s i (.setValue i promise)
      { s.setIntersection i { s.intersections i with waitingVehicles, pc := .getSize } with
        isSet := Function.update s.isSet promise true }

/-- What `cycleThroughPhases` does next. -/
inductive Cycles (s : State R) (i : Id) : Event → State R → Prop where
  | toggle {phase : TrafficLightPhase} :
    Cycles s i (.toggle i phase) (s.setIntersection i { s.intersections i with
      trafficLight := { (s.intersections i).trafficLight with
        currentPhase := phase
        pc := .send phase } })
  | send {msg : TrafficLightPhase} :
    Cycles s i (.send i msg) (s.setIntersection i { s.intersections i with
      trafficLight := { (s.intersections i).trafficLight with
        msgQueue := (s.intersections i).trafficLight.msgQueue.send msg
        pc := .toggle } })

/-- What `drive` does next. -/
inductive Drives [Double R] (net : Network) (s : State R) (v : Id) : Event → State R → Prop where
  | lock (hpc : (s.vehicles v).pc = .lock) (hmtx : s.mtx = none) :
    Drives net s v .tau { s.goto v .unlock with mtx := some v }
  | unlock (hpc : (s.vehicles v).pc = .unlock) : Drives net s v .tau (unlock s v .cycle)
  | cycle (hpc : (s.vehicles v).pc = .cycle) (time : ℕ) :
    Drives net s v .tau (s.setVehicle v { (s.vehicles v).move time with
      pc := if 0.9 ≤ ((s.vehicles v).move time).completion ∧
          (s.vehicles v).hasEnteredIntersection = false then
        .addVehicleToQueue .lock else .crossed })
  | addVehicleToQueue {pc : AddPc} {e : Event} {t : State R}
      (hpc : (s.vehicles v).pc = .addVehicleToQueue pc)
      (hadds : Adds s (s.vehicles v).currDestination v pc e t) : Drives net s v e t
  | entryGranted (hpc : (s.vehicles v).pc = .entryGranted) :
    Drives net s v .tau (s.setVehicle v { s.vehicles v with
      speed := (s.vehicles v).speed / 10.0
      hasEnteredIntersection := true
      pc := .crossed })
  | choose {draw : ℕ} {nextStreet : Id} (hpc : (s.vehicles v).pc = .crossed)
      (hentered : (s.vehicles v).hasEnteredIntersection = true)
      (hnext : (if 0 < (net.queryStreets (s.vehicles v).currDestination
          (s.vehicles v).currStreet).length then
        (net.queryStreets (s.vehicles v).currDestination (s.vehicles v).currStreet)[draw]?
        else some (s.vehicles v).currStreet) = some nextStreet) :
    Drives net s v .tau (s.goto v (.vehicleHasLeft nextStreet
      (net.otherEnd nextStreet (s.vehicles v).currDestination)))
  | goOn (hpc : (s.vehicles v).pc = .crossed) : Drives net s v .tau (s.goto v .cycle)
  | vehicleHasLeft {nextStreet nextIntersection : Id}
      (hpc : (s.vehicles v).pc = .vehicleHasLeft nextStreet nextIntersection) :
    Drives net s v (.vehicleHasLeft (s.vehicles v).currDestination v)
      ((s.setIntersection (s.vehicles v).currDestination
        ((s.intersections (s.vehicles v).currDestination).setIsBlocked false)).goto v
        (.assign nextStreet nextIntersection))
  | assign {nextStreet nextIntersection : Id}
      (hpc : (s.vehicles v).pc = .assign nextStreet nextIntersection) :
    Drives net s v .tau (s.setVehicle v
      { ((s.vehicles v).setCurrentDestination nextIntersection).setCurrentStreet nextStreet with
        speed := (s.vehicles v).speed * 10.0
        hasEnteredIntersection := false
        pc := .cycle })

/-! ### No statement does anything else -/

section Outcomes

variable {s t : State R} {i v : Id} {e : Event}

lemma lock_cases {pc : DrivePc} (h : lock s v pc = some (e, t)) :
    s.mtx = none ∧ e = .tau ∧ t = { s.goto v pc with mtx := some v } := by
  unfold lock at h
  split at h
  · next hmtx =>
    obtain ⟨rfl, rfl⟩ : Event.tau = e ∧ _ = t := by simpa using h
    exact ⟨hmtx, rfl, rfl⟩
  · cases h

lemma addVehicleToQueue_cases {pc : AddPc} (h : addVehicleToQueue s i v pc = some (e, t)) :
    Adds s i v pc e t := by
  cases pc with
  | lock =>
    obtain ⟨hmtx, rfl, rfl⟩ := lock_cases h
    exact .lock hmtx
  | unlock =>
    obtain ⟨rfl, rfl⟩ : Event.tau = e ∧ _ = t := by simpa [addVehicleToQueue] using h
    exact .unlock
  | pushBack =>
    obtain ⟨rfl, rfl⟩ : Event.pushBack _ _ = e ∧ _ = t := by simpa [addVehicleToQueue] using h
    exact .pushBack
  | wait promise =>
    simp only [addVehicleToQueue] at h
    split at h
    · next hset =>
      obtain ⟨rfl, rfl⟩ : Event.tau = e ∧ _ = t := by simpa using h
      exact .wait hset
    · cases h
  | relock =>
    obtain ⟨hmtx, rfl, rfl⟩ := lock_cases h
    exact .relock hmtx
  | getCurrentPhase =>
    obtain ⟨rfl, rfl⟩ : Event.getCurrentPhase i v _ = e ∧ _ = t := by
      simpa [addVehicleToQueue] using h
    exact .getCurrentPhase rfl
  | waitForGreen =>
    simp only [addVehicleToQueue, Option.map_eq_some_iff, Prod.exists] at h
    obtain ⟨msg, msgQueue, hmsg, heq⟩ := h
    obtain ⟨rfl, rfl⟩ : Event.receive i v msg = e ∧ _ = t := by simpa using heq
    exact .waitForGreen hmsg
  | unlockAgain =>
    obtain ⟨rfl, rfl⟩ : Event.addVehicleToQueueReturns i v = e ∧ _ = t := by
      simpa [addVehicleToQueue] using h
    exact .unlockAgain

lemma processVehicleQueue_cases (h : processVehicleQueue s i = some (e, t)) :
    Processes s i e t := by
  cases hpc : (s.intersections i).pc with
  | getSize =>
    obtain ⟨rfl, rfl⟩ : Event.tau = e ∧ _ = t := by simpa [processVehicleQueue, hpc] using h
    exact .getSize hpc
  | isBlocked =>
    obtain ⟨rfl, rfl⟩ : Event.tau = e ∧ _ = t := by simpa [processVehicleQueue, hpc] using h
    exact .isBlocked hpc
  | setIsBlocked =>
    obtain ⟨rfl, rfl⟩ : Event.tau = e ∧ _ = t := by simpa [processVehicleQueue, hpc] using h
    exact .setIsBlocked hpc
  | permitEntry =>
    simp only [processVehicleQueue, hpc, Option.map_eq_some_iff, Prod.exists] at h
    obtain ⟨promise, waitingVehicles, hfirst, heq⟩ := h
    obtain ⟨rfl, rfl⟩ : Event.setValue i promise = e ∧ _ = t := by simpa using heq
    exact .permitEntry hpc hfirst

lemma cycleThroughPhases_cases (h : cycleThroughPhases s i = (e, t)) : Cycles s i e t := by
  cases hpc : (s.intersections i).trafficLight.pc with
  | toggle =>
    obtain ⟨rfl, rfl⟩ : Event.toggle i _ = e ∧ _ = t := by simpa [cycleThroughPhases, hpc] using h
    exact .toggle
  | send msg =>
    obtain ⟨rfl, rfl⟩ : Event.send i msg = e ∧ _ = t := by simpa [cycleThroughPhases, hpc] using h
    exact .send

variable [Double R] {net : Network}

lemma drive_cases {time draw : ℕ} (h : drive net s v time draw = some (e, t)) :
    Drives net s v e t := by
  cases hpc : (s.vehicles v).pc with
  | lock =>
    simp only [drive, hpc] at h
    obtain ⟨hmtx, rfl, rfl⟩ := lock_cases h
    exact .lock hpc hmtx
  | unlock =>
    obtain ⟨rfl, rfl⟩ : Event.tau = e ∧ _ = t := by simpa [drive, hpc] using h
    exact .unlock hpc
  | cycle =>
    simp only [drive, hpc] at h
    split at h
    · obtain ⟨rfl, rfl⟩ : Event.tau = e ∧ _ = t := by simpa using h
      exact .cycle hpc time
    · cases h
  | addVehicleToQueue pc =>
    simp only [drive, hpc] at h
    exact .addVehicleToQueue hpc (addVehicleToQueue_cases h)
  | entryGranted =>
    obtain ⟨rfl, rfl⟩ : Event.tau = e ∧ _ = t := by simpa [drive, hpc] using h
    exact .entryGranted hpc
  | crossed =>
    simp only [drive, hpc] at h
    split at h
    · next hcrossed =>
      obtain ⟨nextStreet, hnext, heq⟩ := Option.map_eq_some_iff.mp h
      obtain ⟨rfl, rfl⟩ : Event.tau = e ∧ _ = t := by simpa using heq
      exact .choose hpc hcrossed.2 hnext
    · obtain ⟨rfl, rfl⟩ : Event.tau = e ∧ _ = t := by simpa using h
      exact .goOn hpc
  | vehicleHasLeft nextStreet nextIntersection =>
    obtain ⟨rfl, rfl⟩ : Event.vehicleHasLeft _ v = e ∧ _ = t := by simpa [drive, hpc] using h
    exact .vehicleHasLeft hpc
  | assign nextStreet nextIntersection =>
    obtain ⟨rfl, rfl⟩ : Event.tau = e ∧ _ = t := by simpa [drive, hpc] using h
    exact .assign hpc

/-- A step is one of these, of one of the threads. -/
theorem step_cases (h : Step net e s t) :
    (∃ v, Drives net s v e t) ∨ (∃ i, Processes s i e t) ∨ ∃ i, Cycles s i e t := by
  obtain ⟨thread, hnext⟩ := h
  cases thread with
  | drive v time draw => exact .inl ⟨v, drive_cases hnext⟩
  | processVehicleQueue i => exact .inr (.inl ⟨i, processVehicleQueue_cases hnext⟩)
  | cycleThroughPhases i =>
    exact .inr (.inr ⟨i, cycleThroughPhases_cases (by simpa [next] using hnext)⟩)

end Outcomes

end SelfTraining.Traffic
