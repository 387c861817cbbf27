import Mathlib.Data.List.Nodup
import SelfTraining.Traffic.Threads

/-!
Where the vehicles drive: along streets that meet at the intersections they cross.

A network is built by calls of the two setters, one of each for every street. A vehicle's
street and destination change only together, when it has left an intersection, and the
invariant says what its thread has chosen between the choice and the change.
-/

namespace SelfTraining.Traffic

open Steps

/-! ### Building a network -/

inductive Side where
  | inIntersection
  | outIntersection
  deriving DecidableEq

/-- A call of `setInIntersection` or of `setOutIntersection` on a street. -/
structure Setter where
  side : Side
  street : Id
  intersection : Id

def Network.call (net : Network) (c : Setter) : Network :=
  match c.side with
  | .inIntersection => net.setInIntersection c.street c.intersection
  | .outIntersection => net.setOutIntersection c.street c.intersection

def Network.getIntersection (net : Network) : Side → Id → Id
  | .inIntersection => net.getInIntersection
  | .outIntersection => net.getOutIntersection

/-- The network after some calls, in their order. -/
def Network.build (null : Id) (calls : List Setter) : Network :=
  calls.foldl Network.call (Network.unbuilt null)

/-- A street with its two ends. -/
structure Span where
  street : Id
  inEnd : Id
  outEnd : Id

/-- Streets that each join two different intersections. -/
structure Layout where
  spans : List Span
  nodup : (spans.map Span.street).Nodup
  ends_ne : ∀ x ∈ spans, x.inEnd ≠ x.outEnd

namespace Layout

variable (layout : Layout)

/-- One call of each setter for every street. -/
def setters : List Setter :=
  layout.spans.flatMap fun x =>
    [⟨.inIntersection, x.street, x.inEnd⟩, ⟨.outIntersection, x.street, x.outEnd⟩]

/-- The street has the intersection at one of its ends. -/
def Meets (street i : Id) : Prop :=
  ∃ x ∈ layout.spans, x.street = street ∧ (x.inEnd = i ∨ x.outEnd = i)

/-- The street has one intersection at one end and the other at the other. -/
def Joins (street i j : Id) : Prop :=
  ∃ x ∈ layout.spans, x.street = street ∧
    (x.inEnd = i ∧ x.outEnd = j ∨ x.inEnd = j ∧ x.outEnd = i)

/-- From one street over an intersection to another street and its far end; back to the same
street only where there is no other. -/
structure Turn (street i next far : Id) : Prop where
  old : layout.Meets street i
  new : layout.Joins next i far
  back : next = street → ∀ other, layout.Meets other i → other = street

variable {layout}

lemma Joins.meets {street i j : Id} (h : layout.Joins street i j) : layout.Meets street j := by
  obtain ⟨x, hx, hs, ⟨hi, ho⟩ | ⟨hi, ho⟩⟩ := h
  · exact ⟨x, hx, hs, .inr ho⟩
  · exact ⟨x, hx, hs, .inl hi⟩

end Layout

/-! ### What the calls build -/

section Build

variable {null : Id} {calls : List Setter}

lemma build_snoc (c : Setter) :
    Network.build null (calls ++ [c]) = (Network.build null calls).call c := by
  simp [Network.build]

lemma getIntersection_call (net : Network) (c : Setter) (side : Side) (street : Id) :
    (net.call c).getIntersection side street =
      if c.side = side ∧ c.street = street then c.intersection
      else net.getIntersection side street := by
  obtain ⟨side', street', i⟩ := c
  by_cases hs : street' = street
  · subst hs
    cases side <;> cases side' <;> simp [Network.call, Network.getIntersection,
      Network.setInIntersection, Network.setOutIntersection, Network.addStreet]
  · cases side <;> cases side' <;> simp [Network.call, Network.getIntersection,
      Network.setInIntersection, Network.setOutIntersection, Network.addStreet, hs, Ne.symm hs]

lemma streets_call (net : Network) (c : Setter) :
    (net.call c).streets =
      Function.update net.streets c.intersection (net.streets c.intersection ++ [c.street]) := by
  obtain ⟨side, street, i⟩ := c
  cases side <;> rfl

lemma getIntersection_build {side : Side} {street i : Id} (h : ⟨side, street, i⟩ ∈ calls)
    (honly : ∀ j, ⟨side, street, j⟩ ∈ calls → j = i) :
    (Network.build null calls).getIntersection side street = i := by
  induction calls using List.reverseRecOn with
  | nil => simp at h
  | append_singleton calls c ih =>
    rw [build_snoc, getIntersection_call]
    split_ifs with hc
    · obtain ⟨rfl, rfl⟩ := hc
      exact honly _ (by simp)
    · have hold : ⟨side, street, i⟩ ∈ calls := by
        rcases List.mem_append.mp h with h | h
        · exact h
        · obtain rfl := List.mem_singleton.mp h
          exact absurd ⟨rfl, rfl⟩ hc
      exact ih hold fun j hj => honly j (by simp [hj])

lemma mem_streets_build {street i : Id} : street ∈ (Network.build null calls).streets i ↔
    ∃ side, ⟨side, street, i⟩ ∈ calls := by
  induction calls using List.reverseRecOn with
  | nil => simp [Network.build, Network.unbuilt]
  | append_singleton calls c ih =>
    rw [build_snoc, streets_call]
    obtain ⟨side', street', j⟩ := c
    by_cases hj : i = j
    · subst hj
      simp [ih, exists_or]
    · simp [ih, hj]

end Build

section Built

variable {layout : Layout} {null : Id} {calls : List Setter}

lemma Layout.mem_setters {side : Side} {street i : Id} :
    ⟨side, street, i⟩ ∈ layout.setters ↔ ∃ x ∈ layout.spans, x.street = street ∧
      (match side with | .inIntersection => x.inEnd | .outIntersection => x.outEnd) = i := by
  simp only [setters, List.mem_flatMap, List.mem_cons, Setter.mk.injEq, List.not_mem_nil, or_false]
  refine exists_congr fun x => and_congr_right fun _ => ?_
  cases side <;> simp [eq_comm]

lemma Layout.eq_of_street {x y : Span} (hx : x ∈ layout.spans) (hy : y ∈ layout.spans)
    (h : x.street = y.street) : x = y :=
  List.inj_on_of_nodup_map layout.nodup hx hy h

/-- Whatever the order of the calls, a street has the ends of the layout. -/
lemma ends_build (hcalls : calls.Perm layout.setters) {x : Span} (hx : x ∈ layout.spans) :
    (Network.build null calls).getInIntersection x.street = x.inEnd ∧
      (Network.build null calls).getOutIntersection x.street = x.outEnd := by
  have hside : ∀ side, (Network.build null calls).getIntersection side x.street =
      match side with | .inIntersection => x.inEnd | .outIntersection => x.outEnd := by
    intro side
    refine getIntersection_build (hcalls.mem_iff.mpr (Layout.mem_setters.mpr ⟨x, hx, rfl, rfl⟩)) ?_
    intro j hj
    obtain ⟨y, hy, hstreet, rfl⟩ := Layout.mem_setters.mp (hcalls.mem_iff.mp hj)
    rw [layout.eq_of_street hy hx hstreet]
  exact ⟨hside .inIntersection, hside .outIntersection⟩

lemma mem_streets (hcalls : calls.Perm layout.setters) {street i : Id} :
    street ∈ (Network.build null calls).streets i ↔ layout.Meets street i := by
  rw [mem_streets_build]
  constructor
  · rintro ⟨side, hside⟩
    obtain ⟨x, hx, hs, hi⟩ := Layout.mem_setters.mp (hcalls.mem_iff.mp hside)
    cases side
    · exact ⟨x, hx, hs, .inl hi⟩
    · exact ⟨x, hx, hs, .inr hi⟩
  · rintro ⟨x, hx, hs, hi | hi⟩
    · exact ⟨.inIntersection, hcalls.mem_iff.mpr (Layout.mem_setters.mpr ⟨x, hx, hs, hi⟩)⟩
    · exact ⟨.outIntersection, hcalls.mem_iff.mpr (Layout.mem_setters.mpr ⟨x, hx, hs, hi⟩)⟩

lemma joins_otherEnd (hcalls : calls.Perm layout.setters) {street i : Id}
    (h : layout.Meets street i) :
    layout.Joins street i ((Network.build null calls).otherEnd street i) := by
  obtain ⟨x, hx, rfl, hi⟩ := h
  obtain ⟨hin, hout⟩ := @ends_build _ null _ hcalls _ hx
  have hne := layout.ends_ne x hx
  refine ⟨x, hx, rfl, ?_⟩
  unfold Network.otherEnd
  rw [hin, hout]
  rcases hi with rfl | rfl
  · exact .inl ⟨rfl, by simp⟩
  · exact .inr ⟨by simp [hne], rfl⟩

end Built

/-! ### Journeys -/

section Journeys

variable {R : Type} {layout : Layout} {null : Id} {calls : List Setter}
variable {s t : State R} {v w : Id} {e : Event}

/-- The vehicle drives to an end of its street, and what its thread has chosen is a turn. -/
structure OnRoad (layout : Layout) (x : Vehicle R) : Prop where
  meets : layout.Meets x.currStreet x.currDestination
  chosen : ∀ next far, x.pc = .vehicleHasLeft next far ∨ x.pc = .assign next far →
    layout.Turn x.currStreet x.currDestination next far

/-- What a step may do to a vehicle: leave it on its street, or let it turn. -/
def Travels (layout : Layout) (x y : Vehicle R) : Prop :=
  y.currStreet = x.currStreet ∧ y.currDestination = x.currDestination ∨
    layout.Turn x.currStreet x.currDestination y.currStreet y.currDestination

lemma OnRoad.keep {x y : Vehicle R} (hx : OnRoad layout x) (hstreet : y.currStreet = x.currStreet)
    (hdest : y.currDestination = x.currDestination)
    (hpc : ∀ next far, y.pc ≠ .vehicleHasLeft next far ∧ y.pc ≠ .assign next far) :
    OnRoad layout y ∧ Travels layout x y := by
  refine ⟨⟨?_, fun next far h => ?_⟩, .inl ⟨hstreet, hdest⟩⟩
  · rw [hstreet, hdest]
    exact hx.meets
  · rcases h with h | h
    · exact absurd h (hpc next far).1
    · exact absurd h (hpc next far).2

lemma Adds.vehicles {i : Id} {pc : AddPc} (h : Adds s i v pc e t) :
    ∃ y, t.vehicles = Function.update s.vehicles v y ∧
      y.currStreet = (s.vehicles v).currStreet ∧
      y.currDestination = (s.vehicles v).currDestination ∧
      (y.pc = .entryGranted ∨ ∃ pc', y.pc = .addVehicleToQueue pc') := by
  cases h with
  | unlockAgain => exact ⟨_, rfl, rfl, rfl, .inl rfl⟩
  | lock | unlock | pushBack | wait | relock | getCurrentPhase | waitForGreen =>
    exact ⟨_, rfl, rfl, rfl, .inr ⟨_, rfl⟩⟩

lemma Processes.vehicles {i : Id} (h : Processes s i e t) : t.vehicles = s.vehicles := by
  cases h with
  | getSize | isBlocked | setIsBlocked | permitEntry => rfl

lemma Cycles.vehicles {i : Id} (h : Cycles s i e t) : t.vehicles = s.vehicles := by
  cases h with
  | toggle | send => rfl

variable [Double R]

/-- The street that is chosen, from the ones the intersection lists, makes a turn. -/
lemma turn_of_choice (hcalls : calls.Perm layout.setters) {street i next : Id} {draw : ℕ}
    (hmeets : layout.Meets street i)
    (hnext : (if 0 < ((Network.build null calls).queryStreets i street).length then
        ((Network.build null calls).queryStreets i street)[draw]?
      else some street) = some next) :
    layout.Turn street i next ((Network.build null calls).otherEnd next i) := by
  have hquery : ∀ other, other ∈ (Network.build null calls).queryStreets i street ↔
      layout.Meets other i ∧ street ≠ other := by
    intro other
    simp [Network.queryStreets, mem_streets hcalls]
  split_ifs at hnext with hlen
  · obtain ⟨hnew, hne⟩ := (hquery next).mp (List.mem_of_getElem? hnext)
    exact ⟨hmeets, joins_otherEnd hcalls hnew, fun heq => absurd heq.symm hne⟩
  · obtain rfl : street = next := by simpa using hnext
    refine ⟨hmeets, joins_otherEnd hcalls hmeets, fun _ other hother => ?_⟩
    -- another street would have been among the options
    by_contra hne
    exact hlen (List.length_pos_of_mem ((hquery other).mpr ⟨hother, Ne.symm hne⟩))

/-- **One step of a vehicle's thread** changes that vehicle alone, and keeps it on the road. -/
lemma Drives.vehicles (hcalls : calls.Perm layout.setters)
    (h : Drives (Network.build null calls) s v e t) :
    ∃ y, t.vehicles = Function.update s.vehicles v y ∧ (OnRoad layout (s.vehicles v) →
      OnRoad layout y ∧ Travels layout (s.vehicles v) y) := by
  cases h with
  | lock | unlock | entryGranted | goOn => exact ⟨_, rfl, fun hx => hx.keep rfl rfl (by simp)⟩
  | cycle =>
    refine ⟨_, rfl, fun hx => hx.keep rfl rfl fun next far => ?_⟩
    dsimp only
    split <;> simp
  | addVehicleToQueue hpc hadds =>
    obtain ⟨y, hy, hstreet, hdest, hpc'⟩ := hadds.vehicles
    refine ⟨y, hy, fun hx => hx.keep hstreet hdest fun next far => ?_⟩
    rcases hpc' with hpc' | ⟨pc', hpc'⟩ <;> simp [hpc']
  | choose hpc hentered hnext =>
    refine ⟨_, rfl, fun hx => ⟨⟨hx.meets, ?_⟩, .inl ⟨rfl, rfl⟩⟩⟩
    rintro next' far (hfar | hfar)
    · obtain ⟨rfl, rfl⟩ := by simpa using hfar
      exact turn_of_choice hcalls hx.meets hnext
    · simp at hfar
  | @vehicleHasLeft next far hpc =>
    refine ⟨_, rfl, fun hx => ⟨⟨hx.meets, ?_⟩, .inl ⟨rfl, rfl⟩⟩⟩
    rintro next' far' (hfar | hfar)
    · simp at hfar
    · obtain ⟨rfl, rfl⟩ := by simpa using hfar
      exact hx.chosen next far (.inl hpc)
  | @assign next far hpc =>
    refine ⟨_, rfl, fun hx => ?_⟩
    have hturn := hx.chosen next far (.inr hpc)
    refine ⟨⟨hturn.new.meets, ?_⟩, .inr hturn⟩
    rintro next' far' (hfar | hfar) <;> simp at hfar

/-- **One step, whichever thread takes it,** keeps a vehicle on the road. -/
lemma OnRoad.step (hcalls : calls.Perm layout.setters)
    (h : Step (Network.build null calls) e s t) (hx : OnRoad layout (s.vehicles v)) :
    OnRoad layout (t.vehicles v) ∧ Travels layout (s.vehicles v) (t.vehicles v) := by
  have hstay : t.vehicles v = s.vehicles v → OnRoad layout (t.vehicles v) ∧
      Travels layout (s.vehicles v) (t.vehicles v) := by
    intro heq
    rw [heq]
    exact ⟨hx, .inl ⟨rfl, rfl⟩⟩
  rcases step_cases h with ⟨w, hdrive⟩ | ⟨i, hprocess⟩ | ⟨i, hcycle⟩
  · obtain ⟨y, hy, hroad⟩ := hdrive.vehicles hcalls
    by_cases hw : v = w
    · subst hw
      simpa [hy] using hroad hx
    · exact hstay (by simp [hy, hw])
  · exact hstay (congrFun hprocess.vehicles v)
  · exact hstay (congrFun hcycle.vehicles v)

lemma onRoad_trace (hcalls : calls.Perm layout.setters) {street destination : Id → Id}
    (hv : layout.Meets (street v) (destination v)) {es : List Event}
    (h : Trace (Step (Network.build null calls)) (init (R := R) street destination) es s) :
    OnRoad layout (s.vehicles v) := by
  refine h.reaches.invariant (I := fun s => OnRoad layout (s.vehicles v)) ⟨hv, by simp [init]⟩ ?_
  rintro s t hs ⟨e, he⟩
  exact (hs.step hcalls he).1

/-- **Vehicles stay on the road network.** Whatever the order in which the two setters were
called for every street, whatever streets are drawn and however long the cycles are: a
vehicle drives from the one end of its street to the other, and every step leaves it there
or lets it turn onto a street that meets its own at the intersection it drove to. -/
theorem vehicle_stays_on_network (layout : Layout) (null : Id) (calls : List Setter)
    (hcalls : calls.Perm layout.setters) (street destination : Id → Id) (v : Id)
    (hv : layout.Meets (street v) (destination v)) (es : List Event) (s : State R)
    (h : Trace (Step (Network.build null calls)) (init street destination) es s) :
    layout.Joins (s.vehicles v).currStreet (s.vehicles v).currDestination
        ((Network.build null calls).otherEnd (s.vehicles v).currStreet
          (s.vehicles v).currDestination) ∧
      ∀ (e : Event) (t : State R), Step (Network.build null calls) e s t →
        (t.vehicles v).currStreet = (s.vehicles v).currStreet ∧
            (t.vehicles v).currDestination = (s.vehicles v).currDestination ∨
          layout.Turn (s.vehicles v).currStreet (s.vehicles v).currDestination
            (t.vehicles v).currStreet (t.vehicles v).currDestination := by
  have hs := onRoad_trace hcalls hv h
  exact ⟨joins_otherEnd hcalls hs.meets, fun e t ht => (hs.step hcalls ht).2⟩

end Journeys

/-- Two streets that meet at intersection 1. -/
def twoStreets : Layout where
  spans := [⟨10, 0, 1⟩, ⟨11, 1, 2⟩]
  nodup := by decide
  ends_ne := by decide

/-- One vehicle comes to intersection 1, is let in, finds the light green and turns. -/
def turning : List Thread :=
  .replicate 6 (.drive 1 3000 0) ++ .replicate 4 (.processVehicleQueue 1) ++
    [.cycleThroughPhases 1] ++ .replicate 8 (.drive 1 3000 0)

/-- The vehicle that comes from the first street leaves on the second. -/
theorem vehicle_stays_on_network_turning : ∃ es s,
    Trace (Step (Network.build 0 twoStreets.setters))
      (init (fun _ => 10) (fun _ => 1) : State ℚ) es s ∧
      (s.vehicles 1).currStreet = 11 ∧ (s.vehicles 1).currDestination = 2 ∧
      twoStreets.Joins 11 2 ((Network.build 0 twoStreets.setters).otherEnd 11 2) := by
  have hplay : (play (Network.build 0 twoStreets.setters)
      (init (fun _ => 10) (fun _ => 1) : State ℚ) turning).map
      (fun run => ((run.2.vehicles 1).currStreet, (run.2.vehicles 1).currDestination)) =
        some (11, 2) := by
    decide +kernel
  obtain ⟨⟨es, s⟩, hrun, hes⟩ := Option.map_eq_some_iff.mp hplay
  obtain ⟨hstreet, hdest⟩ : (s.vehicles 1).currStreet = 11 ∧ (s.vehicles 1).currDestination = 2 :=
    Prod.mk.injEq .. ▸ hes
  have hjoins := (vehicle_stays_on_network twoStreets 0 _ (.refl _) (fun _ => 10) (fun _ => 1) 1
    ⟨⟨10, 0, 1⟩, .head _, rfl, .inr rfl⟩ es s (play_trace hrun)).1
  rw [hstreet, hdest] at hjoins
  exact ⟨es, s, play_trace hrun, hstreet, hdest, hjoins⟩

end SelfTraining.Traffic
