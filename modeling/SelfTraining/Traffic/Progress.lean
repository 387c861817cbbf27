import SelfTraining.Traffic.Passing

/-!
No vehicle is ever stranded: whatever has happened, the threads can be scheduled so that it
gets through the intersection it drives to.

A vehicle that drives gets to the queue, a vehicle in the queue gets to its front behind those
that are let through before it, and a vehicle that was let in gets out.
-/

namespace SelfTraining.Traffic

open Steps

section Exact

variable {net : Network} {s t : State ℚ} {i v : Id} {e : Event}

/-! ### A vehicle in the queue gets to its front -/

/-- Nobody in the queue of the intersection is passed by: its vectors are kept, and whoever has
not been granted entry stays where it is. -/
structure Waits (i : Id) (c d : Crossings) : Prop where
  queue : (d.desk i).waitingVehicles = (c.desk i).waitingVehicles
  isSet : d.isSet = c.isSet
  stage : ∀ v, ¬ c.Granted v → d.stage v = c.stage v
  destination : d.destination = c.destination

/-- The processing thread comes to its permit, with the flag up. -/
def Permits (net : Network) (s : State ℚ) (i : Id) : Prop :=
  ∃ t, Leads net s t ∧ Waits i s.crossings t.crossings ∧ (t.intersections i).pc = .permitEntry

lemma Waits.refl (i : Id) (c : Crossings) : Waits i c c := ⟨rfl, rfl, fun _ _ => rfl, rfl⟩

lemma Waits.trans {c d d' : Crossings} (h : Waits i c d) (h' : Waits i d d')
    (hgranted : ∀ v, d.Granted v → c.Granted v) : Waits i c d' where
  queue := h'.queue.trans h.queue
  isSet := h'.isSet.trans h.isSet
  stage v hv := (h'.stage v fun hd => hv (hgranted v hd)).trans (h.stage v hv)
  destination := h'.destination.trans h.destination

lemma waits_setIntersection {x : Intersection}
    (hx : x.waitingVehicles = (s.intersections i).waitingVehicles) :
    Waits i s.crossings (s.setIntersection i x).crossings := by
  rw [State.crossings_setIntersection]
  refine ⟨?_, rfl, fun _ _ => rfl, rfl⟩
  simpa [State.crossings, Intersection.desk] using hx

lemma Permits.of_setIntersection {x : Intersection}
    (hstep : processVehicleQueue s i = some (e, s.setIntersection i x))
    (hx : x.waitingVehicles = (s.intersections i).waitingVehicles)
    (h : Permits net (s.setIntersection i x) i) : Permits net s i := by
  obtain ⟨t, ht, hwaits, hpc⟩ := h
  refine ⟨t, (leads_process hstep).trans ht, (waits_setIntersection hx).trans hwaits ?_, hpc⟩
  intro v hv
  rwa [State.crossings_setIntersection] at hv

lemma permits_setIsBlocked (hpc : (s.intersections i).pc = .setIsBlocked) : Permits net s i := by
  have hstep : processVehicleQueue s i = some (.tau, s.setIntersection i
      { (s.intersections i).setIsBlocked true with pc := .permitEntry }) := by
    simp only [processVehicleQueue, hpc]
  refine Permits.of_setIntersection hstep rfl ⟨_, .refl, Waits.refl i _, ?_⟩
  simp [State.setIntersection]

lemma permits_isBlocked (hpc : (s.intersections i).pc = .isBlocked)
    (hflag : (s.intersections i).isBlocked = false) : Permits net s i := by
  have hstep : processVehicleQueue s i = some (.tau, s.setIntersection i
      { s.intersections i with pc := .setIsBlocked }) := by
    simp [processVehicleQueue, hpc, hflag]
  refine Permits.of_setIntersection hstep rfl (permits_setIsBlocked ?_)
  simp [State.setIntersection]

lemma permits_getSize (hpc : (s.intersections i).pc = .getSize)
    (hsize : 0 < (s.intersections i).waitingVehicles.getSize)
    (hflag : (s.intersections i).isBlocked = false) : Permits net s i := by
  have hstep : processVehicleQueue s i = some (.tau, s.setIntersection i
      { s.intersections i with pc := .isBlocked }) := by
    simp [processVehicleQueue, hpc, hsize]
  refine Permits.of_setIntersection hstep rfl (permits_isBlocked ?_ ?_)
  · simp [State.setIntersection]
  · simpa [State.setIntersection] using hflag

variable (net) in
lemma permits_of_down (hsize : 0 < (s.intersections i).waitingVehicles.getSize)
    (hflag : (s.intersections i).isBlocked = false) : Permits net s i := by
  cases hpc : (s.intersections i).pc with
  | getSize => exact permits_getSize hpc hsize hflag
  | isBlocked => exact permits_isBlocked hpc hflag
  | setIsBlocked => exact permits_setIsBlocked hpc
  | permitEntry => exact ⟨s, .refl, Waits.refl i _, hpc⟩

variable (net) in
/-- An intersection with a queue comes to its next permit: the vehicle for which the flag is up
leaves. -/
lemma Running.permits (hs : Running s) (hsize : 0 < (s.intersections i).waitingVehicles.getSize) :
    Permits net s i := by
  by_cases hpc : (s.intersections i).pc = .permitEntry
  · exact ⟨s, .refl, Waits.refl i _, hpc⟩
  cases hflag : (s.intersections i).isBlocked with
  | false => exact permits_of_down net hsize hflag
  | true =>
    obtain ⟨w, hw, rfl⟩ := hs.live.owned i hflag hpc
    obtain ⟨t, u, ht, hleft, hu⟩ := hs.leaves net hw
    have hdest : s.crossings.destination w = (s.vehicles w).currDestination := rfl
    have hwaits : Waits (s.crossings.destination w) s.crossings u.crossings := by
      rw [hu]
      refine ⟨by simp [hdest], rfl, fun v hv => ?_, rfl⟩
      have hne : v ≠ w := fun heq => hv (heq ▸ hw)
      simp [hne]
    have hdesk : u.crossings.desk (s.crossings.destination w) =
        { s.crossings.desk (s.crossings.destination w) with isBlocked := false } := by
      rw [hu]
      simp [hdest]
    have hqueue : (u.intersections (s.crossings.destination w)).waitingVehicles =
        (s.intersections (s.crossings.destination w)).waitingVehicles :=
      congrArg Desk.waitingVehicles hdesk
    obtain ⟨t', ht', hwaits', hpc'⟩ := permits_of_down net (s := u)
      (by rw [hqueue]; exact hsize) (congrArg Desk.isBlocked hdesk)
    refine ⟨t', (ht.tail ⟨_, hleft⟩).trans ht', hwaits.trans hwaits' fun v hv => ?_, hpc'⟩
    -- only the vehicle that has left is no longer granted entry
    rw [hu] at hv
    by_cases hvw : v = w
    · exact hvw ▸ hw
    · simpa [Crossings.Granted, hvw] using hv

variable (net) in
lemma Running.pops (hs : Running s) {p : Promise} {rest : List Promise}
    (hqueue : (s.intersections i).waitingVehicles.promises = p :: rest) :
    ∃ t, Leads net s t ∧ (t.intersections i).waitingVehicles.promises = rest ∧
      t.isSet p = true ∧ (∀ v, ¬ s.crossings.Granted v → t.crossings.stage v =
        s.crossings.stage v) ∧ t.crossings.destination = s.crossings.destination := by
  have hsize : 0 < (s.intersections i).waitingVehicles.getSize := by
    have haligned : (s.intersections i).waitingVehicles.vehicles = _ := hs.live.aligned i
    have hpromises : (s.crossings.desk i).waitingVehicles.promises = p :: rest := hqueue
    simp [WaitingVehicles.getSize, haligned, hpromises]
  obtain ⟨t, ht, hwaits, hpc⟩ := hs.permits net hsize
  obtain ⟨p', q, hfirst⟩ := (hs.leads ht).live.permitEntry_defined (i := i) (by
    change (t.intersections i).pc ≠ .getSize
    simp [hpc])
  have hfirst : (t.intersections i).waitingVehicles.permitEntryToFirstInQueue = some (p', q) :=
    hfirst
  have hcons : p :: rest = p' :: q.promises := by
    rw [← hqueue, ← Crossings.permitEntry_promises hfirst]
    exact (congrArg WaitingVehicles.promises hwaits.queue).symm
  obtain ⟨rfl, rfl⟩ : p = p' ∧ rest = q.promises := by simpa using hcons
  let u : State ℚ := { t.setIntersection i { t.intersections i with
    waitingVehicles := q, pc := .getSize } with isSet := Function.update t.isSet p true }
  have hstep : processVehicleQueue t i = some (.setValue i p, u) := by
    simp [processVehicleQueue, hpc, hfirst, u]
  refine ⟨u, ht.trans (leads_process hstep), ?_, ?_, hwaits.stage, hwaits.destination⟩
  · simp [u, State.setIntersection]
  · simp [u]

variable (net) in
/-- **A vehicle in the queue can get to its front:** those before it are let in and leave. -/
lemma Running.granted_of_queued {p : Promise} : ∀ (front back : List Promise) {s : State ℚ},
    Running s → s.crossings.stage p.vehicle = .waiting p →
    (s.intersections i).waitingVehicles.promises = front ++ p :: back →
    ∃ t, Leads net s t ∧ t.crossings.Granted p.vehicle
  | [], back, s, hs, hp, hqueue => by
    obtain ⟨t, ht, -, hset, hstage, -⟩ := hs.pops net hqueue
    refine ⟨t, ht, ?_⟩
    by_cases hgranted : s.crossings.Granted p.vehicle
    · rcases hgranted with hin | ⟨p', hp', hset'⟩
      · rw [hp] at hin
        cases hin
      · obtain rfl : p = p' := by simpa [hp] using hp'
        have hqueued := (hs.live.queued i p (by
          change p ∈ (s.intersections i).waitingVehicles.promises
          simp [hqueue])).2.2
        rw [hqueued] at hset'
        cases hset'
    · exact .inr ⟨p, (hstage _ hgranted).trans hp, hset⟩
  | p₀ :: front, back, s, hs, hp, hqueue => by
    obtain ⟨t, ht, hrest, -, hstage, -⟩ := hs.pops net hqueue
    by_cases hgranted : s.crossings.Granted p.vehicle
    · exact ⟨s, .refl, hgranted⟩
    · obtain ⟨u, hu, hv⟩ := Running.granted_of_queued front back (hs.leads ht)
        ((hstage _ hgranted).trans hp) hrest
      exact ⟨u, ht.trans hu, hv⟩

/-! ### Every vehicle gets through -/

variable (net) in
lemma Running.gets_through (hs : Running s) (v : Id) :
    ∃ t u i, Leads net s t ∧ Step net (.vehicleHasLeft i v) t u := by
  -- granted entry, it leaves
  have hgranted : ∀ {t}, Leads net s t → t.crossings.Granted v →
      ∃ t u i, Leads net s t ∧ Step net (.vehicleHasLeft i v) t u := by
    intro t ht hv
    obtain ⟨t', u, ht', hleft, -⟩ := (hs.leads ht).leaves net hv
    exact ⟨t', u, _, ht.trans ht', hleft⟩
  -- waiting, it is granted entry
  have hwaiting : ∀ {t p}, Leads net s t → t.crossings.stage v = .waiting p →
      ∃ t u i, Leads net s t ∧ Step net (.vehicleHasLeft i v) t u := by
    intro t p ht hv
    have hlive := (hs.leads ht).live
    cases hset : t.crossings.isSet p with
    | true => exact hgranted ht (.inr ⟨p, hv, hset⟩)
    | false =>
      obtain ⟨front, back, hqueue⟩ := List.append_of_mem (hlive.queuedUp v p hv hset)
      obtain rfl : p.vehicle = v := (hlive.own v p hv).1
      obtain ⟨u, hu, hgrant⟩ := Running.granted_of_queued net front back (hs.leads ht) hv
        hqueue
      exact hgranted (ht.trans hu) hgrant
  cases hstage : s.crossings.stage v with
  | driving =>
    obtain ⟨t, p, ht, hp⟩ := hs.asks net hstage
    exact hwaiting ht hp
  | waiting p => exact hwaiting .refl hstage
  | inside => exact hgranted .refl (.inl hstage)

/-- The vehicle that leaves an intersection. -/
def Event.leaver : Event → Option Id
  | .vehicleHasLeft _ v => some v
  | _ => none

/-- **No vehicle is stranded.** Whatever has happened in a run, it can go on so that vehicles
leave their intersections in any order one likes, each as often as one likes. -/
theorem no_vehicle_stranded {street destination : Id → Id} {es : List Event}
    (h : Trace (Step net) (init street destination) es s) (vs : List Id) :
    ∃ es' t, Trace (Step net) s es' t ∧ vs.Sublist (es'.filterMap Event.leaver) := by
  have hs : Running s := h.reaches.invariant (init_running street destination)
    fun _ _ hu ⟨_, hstep⟩ => hu.step hstep
  clear h
  induction vs generalizing s with
  | nil => exact ⟨[], s, .nil, .slnil⟩
  | cons v vs ih =>
    obtain ⟨t, u, i, ht, hleft⟩ := hs.gets_through net v
    obtain ⟨es₁, hes₁⟩ := ht.exists_trace
    obtain ⟨es₂, t', hes₂, hvs⟩ := ih ((hs.leads ht).step hleft)
    refine ⟨es₁ ++ [.vehicleHasLeft i v] ++ es₂, t', (hes₁.snoc hleft).append hes₂, ?_⟩
    rw [List.filterMap_append, List.filterMap_append]
    exact List.Sublist.append (List.sublist_append_right _ [v]) hvs

end Exact

/-- Even where vehicle 1 holds the mutex at a red light and vehicle 2 cannot go on, both get
through, the second one first. -/
theorem no_vehicle_stranded_red_elsewhere : ∃ es s es' t,
    Trace (Step deadEnd) (init (fun _ => 0) (fun v => v - 1) : State ℚ) es s ∧ s.mtx = some 1 ∧
      Trace (Step deadEnd) s es' t ∧ [2, 1, 2].Sublist (es'.filterMap Event.leaver) := by
  have hplay : (play deadEnd (init (fun _ => 0) (fun v => v - 1) : State ℚ) redElsewhere).map
      (fun run => run.2.mtx) = some (some 1) := by
    decide +kernel
  obtain ⟨⟨es, s⟩, hrun, hmtx⟩ := Option.map_eq_some_iff.mp hplay
  obtain ⟨es', t, hrun', hleft⟩ := no_vehicle_stranded (play_trace hrun) [2, 1, 2]
  exact ⟨es, s, es', t, play_trace hrun, hmtx, hrun', hleft⟩

end SelfTraining.Traffic
