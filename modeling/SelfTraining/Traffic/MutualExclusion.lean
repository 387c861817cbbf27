import SelfTraining.Lib.Gate
import SelfTraining.Traffic.Crossing

/-!
Mutual exclusion at an intersection: the crossings of one intersection are a gate.

Going down from the gate, an occupied gate keeps the flag up and the processing thread away
from its permit, and the promises in the queues are those of vehicles still waiting.
-/

namespace SelfTraining.Traffic

open Steps

namespace Crossings

variable {c d : Crossings} {e : Event}

/-- The vehicle's promise has been set and it has not left the intersection since. -/
def Granted (c : Crossings) (v : Id) : Prop :=
  c.stage v = .inside ∨ ∃ p, c.stage v = .waiting p ∧ c.isSet p = true

lemma not_granted_of_driving {v : Id} (hv : c.stage v = .driving) : ¬ c.Granted v := by
  simp [Granted, hv]

/-! ### Promises -/

/-- Promises are made by the vehicle they name, set only once made, and queued only while
their vehicle waits for them at that intersection. -/
structure Sound (c : Crossings) : Prop where
  own : ∀ v p, c.stage v = .waiting p → p.vehicle = v ∧ p.call < c.calls v
  made : ∀ p, c.isSet p = true → p.call < c.calls p.vehicle
  queued : ∀ i, ∀ p ∈ (c.desk i).waitingVehicles.promises,
    c.stage p.vehicle = .waiting p ∧ c.destination p.vehicle = i ∧ c.isSet p = false
  nodup : ∀ i, (c.desk i).waitingVehicles.promises.Nodup

lemma Sound.next_not_set (hc : Sound c) (v : Id) : c.isSet ⟨v, c.calls v⟩ = false := by
  by_contra h
  have hlt := hc.made ⟨v, c.calls v⟩ (by simpa using h)
  simp at hlt

lemma permitEntry_promises {q q' : WaitingVehicles} {p : Promise}
    (h : q.permitEntryToFirstInQueue = some (p, q')) : q.promises = p :: q'.promises := by
  unfold WaitingVehicles.permitEntryToFirstInQueue at h
  split at h
  · rename_i hp _
    obtain ⟨rfl, rfl⟩ := by simpa using h
    exact hp
  · cases h

lemma Sound.setStage (hc : Sound c) {v : Id} {stage : Stage} (hstage : ∀ p, stage ≠ .waiting p)
    (hv : ∀ i, ∀ p ∈ (c.desk i).waitingVehicles.promises, p.vehicle ≠ v) :
    Sound (c.setStage v stage) where
  own w p hw := by
    by_cases h : w = v
    · subst h
      exact absurd (by simpa using hw) (hstage p)
    · exact hc.own w p (by simpa [h] using hw)
  made := hc.made
  queued i p hp := by simpa [hv i p hp] using hc.queued i p hp
  nodup := hc.nodup

/-- The flag and the place of the processing thread do not matter to the promises. -/
lemma Sound.setDesk (hc : Sound c) {i : Id} {desk : Desk}
    (h : desk.waitingVehicles = (c.desk i).waitingVehicles) : Sound (c.setDesk i desk) := by
  have hdesk : ∀ j, ((c.setDesk i desk).desk j).waitingVehicles = (c.desk j).waitingVehicles := by
    intro j
    by_cases hj : j = i
    · subst hj
      simpa using h
    · simp [hj]
  refine ⟨hc.own, hc.made, fun j p hp => ?_, fun j => ?_⟩
  · rw [hdesk j] at hp
    exact hc.queued j p hp
  · rw [hdesk j]
    exact hc.nodup j

lemma Sound.turn (hc : Sound c) {v : Id} (i : Id) (hv : c.stage v = .driving) :
    Sound { c with destination := Function.update c.destination v i } where
  own := hc.own
  made := hc.made
  queued j p hp := by
    obtain ⟨hstage, hdest, hset⟩ := hc.queued j p hp
    have hne : p.vehicle ≠ v := by
      rintro rfl
      simp [hv] at hstage
    exact ⟨hstage, by simpa [hne] using hdest, hset⟩
  nodup := hc.nodup

lemma Sound.pushBack (hc : Sound c) {v : Id} (hv : c.stage v = .driving) {i : Id}
    (hi : c.destination v = i) {q : WaitingVehicles}
    (hq : q.promises = (c.desk i).waitingVehicles.promises ++ [⟨v, c.calls v⟩]) :
    Sound { (c.setStage v (.waiting ⟨v, c.calls v⟩)).setDesk i
      { c.desk i with waitingVehicles := q } with
        calls := Function.update c.calls v (c.calls v + 1) } := by
  have hne : ∀ j, ∀ p ∈ (c.desk j).waitingVehicles.promises, p.vehicle ≠ v := by
    rintro j p hp rfl
    have := (hc.queued j p hp).1
    simp [hv] at this
  have hnew := hc.next_not_set v
  have hold : ∀ j, ∀ p ∈ (c.desk j).waitingVehicles.promises,
      Function.update c.stage v (.waiting ⟨v, c.calls v⟩) p.vehicle = .waiting p ∧
        c.destination p.vehicle = j ∧ c.isSet p = false := by
    intro j p hp
    simpa [hne j p hp] using hc.queued j p hp
  refine ⟨fun w p hw => ?_, fun p hp => ?_, fun j p hp => ?_, fun j => ?_⟩
  · by_cases h : w = v
    · subst h
      obtain rfl : (⟨w, c.calls w⟩ : Promise) = p := by simpa using hw
      simp
    · simpa [h] using hc.own w p (by simpa [h] using hw)
  · have := hc.made p hp
    by_cases h : p.vehicle = v
    · subst h
      simp only [Function.update_self]
      omega
    · simpa [h] using this
  · by_cases hj : j = i
    · subst hj
      simp only [setDesk_desk, Function.update_self, hq, List.mem_append, List.mem_singleton] at hp
      rcases hp with hp | rfl
      · exact hold j p hp
      · simp [hi, hnew]
    · exact hold j p (by simpa [hj] using hp)
  · by_cases hj : j = i
    · subst hj
      simp only [setDesk_desk, Function.update_self, hq]
      refine (hc.nodup j).append (List.nodup_singleton _) ?_
      simp only [List.disjoint_singleton]
      exact fun hp => hne j _ hp rfl
    · simpa [hj] using hc.nodup j

lemma Sound.permitEntry (hc : Sound c) {i : Id} {p : Promise} {q : WaitingVehicles} {pc : ProcessPc}
    (hq : (c.desk i).waitingVehicles.promises = p :: q.promises) :
    Sound { c.setDesk i { c.desk i with waitingVehicles := q, pc } with
      isSet := Function.update c.isSet p true } := by
  have hnodup := hc.nodup i
  rw [hq, List.nodup_cons] at hnodup
  have hfirst := hc.queued i p (by simp [hq])
  have hmem : ∀ j, ∀ r ∈ ((c.setDesk i { c.desk i with waitingVehicles := q, pc }).desk
      j).waitingVehicles.promises, r ∈ (c.desk j).waitingVehicles.promises ∧ r ≠ p := by
    intro j r hr
    by_cases hj : j = i
    · subst hj
      have hr : r ∈ q.promises := by simpa using hr
      refine ⟨by simp [hq, hr], ?_⟩
      rintro rfl
      exact hnodup.1 hr
    · have hr : r ∈ (c.desk j).waitingVehicles.promises := by simpa [hj] using hr
      refine ⟨hr, ?_⟩
      rintro rfl
      exact hj ((hc.queued j r hr).2.1.symm.trans hfirst.2.1)
  refine ⟨hc.own, fun r hr => ?_, fun j r hr => ?_, fun j => ?_⟩
  · by_cases h : r = p
    · subst h
      exact (hc.own _ r hfirst.1).2
    · exact hc.made r (by simpa [h] using hr)
  · obtain ⟨hr, hne⟩ := hmem j r hr
    simpa [hne] using hc.queued j r hr
  · by_cases hj : j = i
    · subst hj
      simpa using hnodup.2
    · simpa [hj] using hc.nodup j

/-- **One step keeps the promises in order.** -/
lemma Sound.step (hc : Sound c) (h : Step e c d) : Sound d := by
  cases h with
  | quiet => exact hc
  | turn i hv => exact hc.turn i hv
  | pushBack hv => exact hc.pushBack hv rfl rfl
  | enter hv hp =>
    refine hc.setStage (by simp) ?_
    rintro i r hr rfl
    obtain ⟨hstage, -, hset⟩ := hc.queued i r hr
    obtain rfl : _ = r := by simpa [hv] using hstage
    simp [hp] at hset
  | leave hv =>
    refine Sound.setDesk (hc.setStage (by simp) ?_) rfl
    rintro i r hr rfl
    have := (hc.queued i r hr).1
    simp [hv] at this
  | getSize => exact hc.setDesk rfl
  | isBlocked => exact hc.setDesk rfl
  | setIsBlocked => exact hc.setDesk rfl
  | permitEntry _ hq => exact hc.permitEntry (permitEntry_promises hq)

/-! ### The gate of an intersection -/

/-- What a step shows of the gate of an intersection. -/
def gateEvent (i : Id) : Event → Option (Gate.Event Id)
  | .setValue j p => if j = i then some (.enter p.vehicle) else none
  | .vehicleHasLeft j v => if j = i then some (.leave v) else none
  | _ => none

/-- The vehicle granted entry and not gone yet holds the gate. While the gate is held the flag
is up and the processing thread stays in front of its tests. -/
structure Gated (c : Crossings) (i : Id) (holder : Option Id) : Prop where
  sound : Sound c
  holds : ∀ v, holder = some v ↔ c.Granted v ∧ c.destination v = i
  blocked : holder ≠ none → (c.desk i).isBlocked = true ∧
    ((c.desk i).pc = .getSize ∨ (c.desk i).pc = .isBlocked)
  permit : (c.desk i).pc = .permitEntry → (c.desk i).isBlocked = true

variable {i : Id} {holder : Option Id}

/-- A step that changes neither who is granted entry nor the flag is not seen at the gate. -/
lemma Gated.silent (hg : Gated c i holder) (hd : Sound d)
    (hholds : ∀ v, d.Granted v ∧ d.destination v = i ↔ c.Granted v ∧ c.destination v = i)
    (hflag : (d.desk i).isBlocked = (c.desk i).isBlocked) (hpc : (d.desk i).pc = (c.desk i).pc) :
    Gated d i holder where
  sound := hd
  holds v := (hg.holds v).trans (hholds v).symm
  blocked h := by
    rw [hflag, hpc]
    exact hg.blocked h
  permit h := by
    rw [hflag]
    exact hg.permit (hpc ▸ h)

lemma Gated.turn (hg : Gated c i holder) {v : Id} (j : Id) (hv : c.stage v = .driving) :
    Gated { c with destination := Function.update c.destination v j } i holder := by
  refine hg.silent (hg.sound.turn j hv) (fun w => ?_) rfl rfl
  by_cases hw : w = v
  · subst hw
    have h := not_granted_of_driving hv
    constructor
    · rintro ⟨h', -⟩
      exact absurd h' h
    · rintro ⟨h', -⟩
      exact absurd h' h
  · simp [Granted, hw]

lemma Gated.pushBack (hg : Gated c i holder) {v : Id} (hv : c.stage v = .driving) :
    Gated { (c.setStage v (.waiting ⟨v, c.calls v⟩)).setDesk (c.destination v)
        { c.desk (c.destination v) with
          waitingVehicles :=
            (c.desk (c.destination v)).waitingVehicles.pushBack v ⟨v, c.calls v⟩ } with
        calls := Function.update c.calls v (c.calls v + 1) } i holder := by
  refine hg.silent (hg.sound.pushBack hv rfl rfl) (fun w => ?_) ?_ ?_
  · by_cases hw : w = v
    · subst hw
      simp [Granted, hv, hg.sound.next_not_set w]
    · simp [Granted, hw]
  all_goals by_cases hi : i = c.destination v
  all_goals simp [hi]

lemma Gated.enter (hg : Gated c i holder) {v : Id} {p : Promise} (hv : c.stage v = .waiting p)
    (hp : c.isSet p = true) : Gated (c.setStage v .inside) i holder := by
  refine hg.silent (hg.sound.step (.enter hv hp)) (fun w => ?_) rfl rfl
  by_cases hw : w = v
  · subst hw
    simp [Granted, hv, hp]
  · simp [Granted, hw]

lemma Gated.leave (hg : Gated c i holder) {v : Id} (hv : c.stage v = .inside) :
    ∃ b, Trace Gate.Step holder (gateEvent i (.vehicleHasLeft (c.destination v) v)).toList b ∧
      Gated ((c.setStage v .driving).setDesk (c.destination v)
        { c.desk (c.destination v) with isBlocked := false }) i b := by
  have hd := hg.sound.step (.leave hv)
  by_cases hi : c.destination v = i
  · subst hi
    obtain rfl : holder = some v := (hg.holds v).mpr ⟨.inl hv, rfl⟩
    refine ⟨none, by simpa [gateEvent] using .snoc .nil (Gate.Step.leave v), hd, fun w => ?_,
      by simp, fun h => ?_⟩
    · by_cases hw : w = v
      · subst hw
        simp [Granted]
      · have hother : ¬ (c.Granted w ∧ c.destination w = c.destination v) := fun h =>
          hw (by simpa using ((hg.holds w).mpr h).symm)
        simpa [Granted, hw] using hother
    · have := (hg.blocked (by simp)).2
      simp_all
  · refine ⟨holder, by simpa [gateEvent, hi] using .nil, hg.silent hd (fun w => ?_) ?_ ?_⟩
    · by_cases hw : w = v
      · subst hw
        simp [hi]
      · simp [Granted, hw]
    · simp [Ne.symm hi]
    · simp [Ne.symm hi]

lemma Gated.setDesk_ne (hg : Gated c i holder) {j : Id} {desk : Desk} (hj : j ≠ i)
    (hd : Sound (c.setDesk j desk)) : Gated (c.setDesk j desk) i holder :=
  hg.silent hd (fun _ => Iff.rfl) (by simp [hj.symm]) (by simp [hj.symm])

lemma Gated.test (hg : Gated c i holder) {pc : ProcessPc} (hpc : pc = .getSize ∨ pc = .isBlocked) :
    Gated (c.setDesk i { c.desk i with pc }) i holder where
  sound := hg.sound.setDesk rfl
  holds := hg.holds
  blocked h := by simpa using ⟨(hg.blocked h).1, hpc⟩
  permit h := by
    rcases hpc with rfl | rfl <;> simp at h

lemma Gated.getSize (hg : Gated c i holder) {j : Id} {pc : ProcessPc}
    (hpc : pc = if 0 < (c.desk j).waitingVehicles.getSize then .isBlocked else .getSize) :
    Gated (c.setDesk j { c.desk j with pc }) i holder := by
  by_cases h : j = i
  · subst h
    apply hg.test
    rw [hpc]
    split <;> simp
  · exact hg.setDesk_ne h (hg.sound.setDesk rfl)

lemma Gated.isBlocked (hg : Gated c i holder) {j : Id} {pc : ProcessPc}
    (hpc : pc = if (c.desk j).isBlocked then .getSize else .setIsBlocked) :
    Gated (c.setDesk j { c.desk j with pc }) i holder := by
  by_cases h : j = i
  · subst h
    cases hflag : (c.desk j).isBlocked with
    | true => exact hg.test (by simp [hpc, hflag])
    | false =>
      have hfree : holder = none := by
        by_contra hne
        simpa [hflag] using (hg.blocked hne).1
      exact ⟨hg.sound.setDesk rfl, hg.holds, by simp [hfree], by simp [hpc, hflag]⟩
  · exact hg.setDesk_ne h (hg.sound.setDesk rfl)

lemma Gated.setIsBlocked (hg : Gated c i holder) {j : Id} (hj : (c.desk j).pc = .setIsBlocked) :
    Gated (c.setDesk j { c.desk j with isBlocked := true, pc := .permitEntry }) i holder := by
  by_cases h : j = i
  · subst h
    have hfree : holder = none := by
      by_contra hne
      simpa [hj] using (hg.blocked hne).2
    exact ⟨hg.sound.setDesk rfl, hg.holds, by simp [hfree], by simp⟩
  · exact hg.setDesk_ne h (hg.sound.setDesk rfl)

lemma granted_permitEntry (hc : Sound c) {p : Promise} (hp : c.stage p.vehicle = .waiting p)
    (desk : Id → Desk) (v : Id) :
    Granted { c with desk, isSet := Function.update c.isSet p true } v ↔
      v = p.vehicle ∨ c.Granted v := by
  by_cases hv : v = p.vehicle
  · subst hv
    simp [Granted, hp]
  · have hne : ∀ r, c.stage v = .waiting r → r ≠ p := by
      rintro r hr rfl
      exact hv (hc.own v r hr).1.symm
    simp only [Granted, hv, false_or]
    refine or_congr_right (exists_congr fun r => and_congr_right fun hr => ?_)
    simp [hne r hr]

lemma Gated.permitEntry (hg : Gated c i holder) {j : Id} {p : Promise} {q : WaitingVehicles}
    (hj : (c.desk j).pc = .permitEntry)
    (hq : (c.desk j).waitingVehicles.permitEntryToFirstInQueue = some (p, q)) :
    ∃ b, Trace Gate.Step holder (gateEvent i (.setValue j p)).toList b ∧
      Gated { c.setDesk j { c.desk j with waitingVehicles := q, pc := .getSize } with
        isSet := Function.update c.isSet p true } i b := by
  have hd := hg.sound.step (.permitEntry hj hq)
  obtain ⟨hstage, hdest, -⟩ := hg.sound.queued j p (by simp [permitEntry_promises hq])
  have hgranted := granted_permitEntry hg.sound hstage
    (c.setDesk j { c.desk j with waitingVehicles := q, pc := .getSize }).desk
  by_cases h : j = i
  · subst h
    have hfree : holder = none := by
      by_contra hne
      simpa [hj] using (hg.blocked hne).2
    subst hfree
    refine ⟨some p.vehicle, by simpa [gateEvent] using .snoc .nil (Gate.Step.enter p.vehicle), hd,
      fun v => ?_, fun _ => by simp [hg.permit hj], by simp⟩
    have hnone : ¬ (c.Granted v ∧ c.destination v = j) := by simpa using (hg.holds v).not
    refine Iff.trans ?_ (and_congr_left' (hgranted v)).symm
    constructor
    · rintro heq
      obtain rfl : p.vehicle = v := by simpa using heq
      exact ⟨.inl rfl, hdest⟩
    · rintro ⟨rfl | hv, hvi⟩
      · rfl
      · exact absurd ⟨hv, hvi⟩ hnone
  · refine ⟨holder, by simpa [gateEvent, h] using .nil, hg.silent hd (fun v => ?_) ?_ ?_⟩
    · refine (and_congr_left' (hgranted v)).trans ?_
      constructor
      · rintro ⟨rfl | hv, hvi⟩
        · exact absurd (hdest.symm.trans hvi) h
        · exact ⟨hv, hvi⟩
      · rintro ⟨hv, hvi⟩
        exact ⟨.inr hv, hvi⟩
    · simp [Ne.symm h]
    · simp [Ne.symm h]

lemma gateEvent_eq_none {e : Event} (hset : ∀ j p, e ≠ .setValue j p)
    (hleft : ∀ j v, e ≠ .vehicleHasLeft j v) : gateEvent i e = none := by
  cases e <;> simp_all [gateEvent]

/-- **The crossings of an intersection are a gate.** Each step of the protocol is matched by
the gate, silently or by entering or leaving it. -/
theorem Gated.step (hg : Gated c i holder) (h : Step e c d) :
    ∃ b, Trace Gate.Step holder (gateEvent i e).toList b ∧ Gated d i b := by
  cases h with
  | quiet _ hset hleft =>
    rw [gateEvent_eq_none hset hleft]
    exact ⟨holder, .nil, hg⟩
  | turn j hv => exact ⟨holder, .nil, hg.turn j hv⟩
  | pushBack hv => exact ⟨holder, .nil, hg.pushBack hv⟩
  | enter hv hp => exact ⟨holder, .nil, hg.enter hv hp⟩
  | leave hv => exact hg.leave hv
  | getSize _ _ hpc => exact ⟨holder, .nil, hg.getSize hpc⟩
  | isBlocked _ _ hpc => exact ⟨holder, .nil, hg.isBlocked hpc⟩
  | setIsBlocked hj => exact ⟨holder, .nil, hg.setIsBlocked hj⟩
  | permitEntry hj hq => exact hg.permitEntry hj hq

end Crossings

/-! ### Runs of the simulation -/

section Runs

variable {R : Type} [Double R] {net : Network} {street destination : Id → Id} {s : State R}
  {es : List Event}

lemma init_gated (i : Id) :
    Crossings.Gated (init street destination : State R).crossings i none where
  sound := by
    refine ⟨?_, ?_, ?_, ?_⟩ <;>
      simp [State.crossings, init, Vehicle.stage, Intersection.desk]
  holds v := by simp [Crossings.Granted, State.crossings, init, Vehicle.stage]
  blocked h := absurd rfl h
  permit h := by simp [State.crossings, init, Intersection.desk] at h

lemma run_gated (h : Trace (Step net) (init street destination) es s) (i : Id) :
    ∃ holder, Trace Gate.Step none (es.filterMap (Crossings.gateEvent i)) holder ∧
      Crossings.Gated s.crossings i holder :=
  h.simulate (R := fun s holder => Crossings.Gated s.crossings i holder)
    (fun _ _ _ _ hg hstep => hg.step (step_crossings hstep)) (init_gated i)

/-- The vehicles at an intersection whose promise has been set and that have not called
`vehicleHasLeft` since, by what the run has shown. -/
def inside (i : Id) (es : List Event) : List Id :=
  Gate.inside (es.filterMap (Crossings.gateEvent i))

/-- **Mutual exclusion at an intersection.** In every reachable state at most one vehicle
whose promise has been set has not yet left, while there is one the flag is up, and
`vehicleHasLeft` is called by that vehicle only. -/
theorem mutual_exclusion (h : Trace (Step net) (init street destination) es s) (i : Id) :
    (inside i es).length ≤ 1 ∧
      (inside i es ≠ [] → (s.intersections i).isBlocked = true) ∧
      ∀ es₁ v es₂, es = es₁ ++ .vehicleHasLeft i v :: es₂ → v ∈ inside i es₁ := by
  obtain ⟨holder, hgate, hg⟩ := run_gated h i
  refine ⟨Gate.length_inside_le_one hgate, fun hne => ?_, ?_⟩
  · have hheld : holder ≠ none := by
      rintro rfl
      exact hne (Gate.inside_eq hgate)
    exact (hg.blocked hheld).1
  · rintro es₁ v es₂ rfl
    have hleave : Crossings.gateEvent i (.vehicleHasLeft i v) = some (.leave v) := by
      simp [Crossings.gateEvent]
    rw [List.filterMap_append, List.filterMap_cons_some hleave] at hgate
    exact Gate.mem_inside_of_leave hgate

end Runs

/-- One street from intersection 1 to intersection 0. -/
def deadEnd : Network := ⟨fun _ => 1, fun _ => 0, fun _ => [0]⟩

/-- Vehicles 1 and 2 come to intersection 0; the first is let in, crosses on green and leaves,
and the second is let in after it. -/
def twoVehicles : List Thread :=
  let approach v : List Thread := .replicate 6 (.drive v 3000 0)
  let permit : List Thread := .replicate 4 (.processVehicleQueue 0)
  approach 1 ++ permit ++ approach 2 ++ permit ++ [.cycleThroughPhases 0] ++
    .replicate 7 (.drive 1 3000 0) ++ permit

theorem mutual_exclusion_two_vehicles : ∃ es s,
    Trace (Step deadEnd) (init (fun _ => 0) (fun _ => 0) : State ℚ) es s ∧
      .vehicleHasLeft 0 1 ∈ es ∧ inside 0 es = [2] ∧ (s.intersections 0).isBlocked = true ∧
      ∀ es₁ v es₂, es = es₁ ++ .vehicleHasLeft 0 v :: es₂ → v ∈ inside 0 es₁ := by
  have hplay : (play deadEnd (init (fun _ => 0) (fun _ => 0) : State ℚ) twoVehicles).map
      (fun run => (run.1.contains (.vehicleHasLeft 0 1), inside 0 run.1)) = some (true, [2]) := by
    decide +kernel
  obtain ⟨⟨es, s⟩, hrun, hes⟩ := Option.map_eq_some_iff.mp hplay
  obtain ⟨hleft, hinside⟩ : Event.vehicleHasLeft 0 1 ∈ es ∧ inside 0 es = [2] := by
    simpa using hes
  obtain ⟨-, hblocked, honly⟩ := mutual_exclusion (play_trace hrun) 0
  exact ⟨es, s, play_trace hrun, hleft, hinside, hblocked (by simp [hinside]), honly⟩

end SelfTraining.Traffic
