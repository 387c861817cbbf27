import SelfTraining.Traffic.Lights
import SelfTraining.Traffic.MutualExclusion

/-!
What a vehicle has seen of its light when `addVehicleToQueue` lets it go.

A record is kept along a run: the messages that have been sent and not received, numbered in
the order in which they were sent, and what the vehicle's check and its last `receive` since
have returned. The loop of `waitForGreen` goes on while it receives green, so that whoever
has to wait is let go by a red message.
-/

namespace SelfTraining.Traffic

open Steps

/-- What a run has shown of the light at one intersection to one vehicle. -/
structure Record where
  /-- How many messages have been sent. -/
  sent : ℕ
  /-- The messages not received, from front to back, each with its number. -/
  unread : List (ℕ × TrafficLightPhase)
  /-- What the vehicle's last check returned, and how many messages had been sent by then. -/
  check : Option TrafficLightPhase
  sentBefore : ℕ
  /-- The last message that the vehicle has received since. -/
  message : Option (ℕ × TrafficLightPhase)

def Record.next (i v : Id) (r : Record) : Event → Record
  | .send j msg =>
    if j = i then { r with sent := r.sent + 1, unread := r.unread ++ [(r.sent, msg)] } else r
  | .receive j w _ =>
    if j = i then
      { r with
        unread := r.unread.dropLast
        message := if w = v then r.unread.getLast? else r.message }
    else r
  | .getCurrentPhase j w phase =>
    if j = i ∧ w = v then { r with check := some phase, sentBefore := r.sent, message := none }
    else r
  | _ => r

/-- The record of a run from its start. -/
def record (i v : Id) (es : List Event) : Record :=
  es.foldl (Record.next i v) ⟨0, [], none, 0, none⟩

/-- The check returned green, or the last message received was green and sent after it. -/
def Record.MayGo (r : Record) : Prop :=
  r.check = some .green ∨ ∃ n, r.message = some (n, .green) ∧ r.sentBefore ≤ n

/-! ### What the record says of a vehicle at its place -/

namespace Lights

variable {l m : Lights} {e : Event} {i v : Id} {r : Record}

/-- The unread messages are those in the queue. Whoever waits found the light red and has
received nothing but green since; whoever has passed found it green, or has received red. -/
structure Recorded (l : Lights) (i v : Id) (r : Record) : Prop where
  unread : r.unread.map Prod.snd = l.msgQueue i
  waiting : l.destination v = i → l.place v = .waiting →
    r.check = some .red ∧ ∀ x ∈ r.message, x.2 = .green
  passed : l.destination v = i → l.place v = .passed →
    r.check = some .green ∨ r.check = some .red ∧ ∃ n, r.message = some (n, .red)

lemma next_of_dark (he : Dark e) : r.next i v e = r := by
  cases e <;> simp_all [Dark, Record.next]

lemma Recorded.setPlace (h : Recorded l i v r) {w : Id} {place : Place} {mtx : Option Id}
    (hw : place ≠ .waiting) (hp : place ≠ .passed) :
    Recorded { l.setPlace w place with mtx } i v r := by
  refine ⟨h.unread, fun hd hv => ?_, fun hd hv => ?_⟩
  · by_cases hvw : v = w
    · subst hvw
      exact absurd (by simpa using hv) hw
    · exact h.waiting hd (by simpa [hvw] using hv)
  · by_cases hvw : v = w
    · subst hvw
      exact absurd (by simpa using hv) hp
    · exact h.passed hd (by simpa [hvw] using hv)

lemma Recorded.getCurrentPhase (h : Recorded l i v r) {w : Id} :
    Recorded (l.setPlace w (if l.phase (l.destination w) = .red then .waiting else .passed)) i v
      (r.next i v (.getCurrentPhase (l.destination w) w (l.phase (l.destination w)))) := by
  by_cases hvw : v = w
  · subst hvw
    by_cases hi : l.destination v = i
    · subst hi
      refine ⟨by simpa [Record.next] using h.unread, fun _ hv => ?_, fun _ hv => ?_⟩
      · cases hphase : l.phase (l.destination v) <;> simp_all [Record.next]
      · cases hphase : l.phase (l.destination v) <;> simp_all [Record.next]
    · refine ⟨by simpa [Record.next, hi] using h.unread, fun hd => absurd hd hi,
        fun hd => absurd hd hi⟩
  · have hnext : r.next i v (.getCurrentPhase (l.destination w) w
        (l.phase (l.destination w))) = r := by
      simp [Record.next, Ne.symm hvw]
    rw [hnext]
    exact ⟨h.unread, fun hd hv => h.waiting hd (by simpa [hvw] using hv),
      fun hd hv => h.passed hd (by simpa [hvw] using hv)⟩

lemma Recorded.receive (h : Recorded l i v r) {w : Id} {msg : TrafficLightPhase}
    {msgQueue : MessageQueue TrafficLightPhase} (hw : l.place w = .waiting)
    (hq : (l.msgQueue (l.destination w)).receive = some (msg, msgQueue)) :
    Recorded { l.setPlace w (if msg = .green then .waiting else .passed) with
      msgQueue := Function.update l.msgQueue (l.destination w) msgQueue } i v
      (r.next i v (.receive (l.destination w) w msg)) := by
  obtain ⟨last, hlast, heq⟩ := Option.map_eq_some_iff.mp hq
  obtain ⟨rfl, rfl⟩ : last = msg ∧ _ = msgQueue := by simpa using heq
  by_cases hi : l.destination w = i
  · subst hi
    have hunread : (r.unread.dropLast).map Prod.snd = (l.msgQueue (l.destination w)).dropLast := by
      rw [List.map_dropLast, h.unread]
    by_cases hvw : v = w
    · subst hvw
      obtain ⟨hcheck, -⟩ := h.waiting rfl hw
      obtain ⟨n, hn⟩ : ∃ n, r.unread.getLast? = some (n, last) := by
        rw [← h.unread, List.getLast?_map, Option.map_eq_some_iff] at hlast
        obtain ⟨⟨n, x⟩, hx, rfl⟩ := hlast
        exact ⟨n, hx⟩
      refine ⟨by simpa [Record.next] using hunread, fun _ hv => ?_, fun _ hv => ?_⟩
      · cases last <;> simp_all [Record.next]
      · cases last <;> simp_all [Record.next]
    · refine ⟨by simpa [Record.next] using hunread, fun hd hv => ?_, fun hd hv => ?_⟩
      · simpa [Record.next, Ne.symm hvw] using h.waiting hd (by simpa [hvw] using hv)
      · simpa [Record.next, Ne.symm hvw] using h.passed hd (by simpa [hvw] using hv)
  · have hnext : r.next i v (.receive (l.destination w) w last) = r := by
      simp [Record.next, hi]
    rw [hnext]
    refine ⟨by simpa [Ne.symm hi] using h.unread, fun hd hv => ?_, fun hd hv => ?_⟩
    · have hvw : v ≠ w := by
        rintro rfl
        exact hi hd
      exact h.waiting hd (by simpa [hvw] using hv)
    · have hvw : v ≠ w := by
        rintro rfl
        exact hi hd
      exact h.passed hd (by simpa [hvw] using hv)

/-- **One step keeps the record true.** -/
lemma Recorded.step (h : Recorded l i v r) (hstep : Step e l m) :
    Recorded m i v (r.next i v e) := by
  cases hstep with
  | quiet he =>
    rw [next_of_dark he]
    exact h
  | @turn _ w j hw =>
    refine ⟨h.unread, fun hd hv => ?_, fun hd hv => ?_⟩
    all_goals
      have hvw : v ≠ w := by
        rintro rfl
        simp [hw] at hv
    · exact h.waiting (by simpa [hvw] using hd) hv
    · exact h.passed (by simpa [hvw] using hd) hv
  | lock _ _ place hplace =>
    rcases hplace with rfl | rfl
    · exact h.setPlace (by simp) (by simp)
    · exact h.setPlace (by simp) (by simp)
  | unlock => exact h.setPlace (by simp) (by simp)
  | getCurrentPhase => exact h.getCurrentPhase
  | receive hw hq => exact h.receive hw hq
  | returns => exact h.setPlace (by simp) (by simp)
  | toggle => exact ⟨h.unread, h.waiting, h.passed⟩
  | send j msg =>
    by_cases hj : j = i
    · subst hj
      refine ⟨?_, fun hd hv => ?_, fun hd hv => ?_⟩
      · simp [Record.next, MessageQueue.send, h.unread]
      · simpa [Record.next] using h.waiting hd hv
      · simpa [Record.next] using h.passed hd hv
    · refine ⟨?_, fun hd hv => ?_, fun hd hv => ?_⟩
      · simpa [Record.next, hj, Ne.symm hj] using h.unread
      · simpa [Record.next, hj] using h.waiting hd hv
      · simpa [Record.next, hj] using h.passed hd hv

/-- Whoever has passed may go if and only if its check returned green. -/
lemma Recorded.mayGo_iff (h : Recorded l i v r) (hd : l.destination v = i)
    (hv : l.place v = .passed) : r.MayGo ↔ r.check = some .green := by
  constructor
  · rintro (hgo | ⟨n, hn, -⟩)
    · exact hgo
    · rcases h.passed hd hv with hgo | ⟨-, k, hk⟩
      · exact hgo
      · rw [hk] at hn
        simp at hn
  · exact .inl

end Lights

/-! ### Runs of the simulation -/

section Runs

variable {R : Type} [Double R] {net : Network} {street destination : Id → Id} {s : State R}
  {es : List Event} {i v : Id}

lemma record_snoc (e : Event) : record i v (es ++ [e]) = (record i v es).next i v e := by
  simp [record]

lemma run_recorded (h : Trace (Step net) (init street destination) es s) :
    Lights.Recorded s.lights i v (record i v es) := by
  induction h with
  | nil =>
    refine ⟨rfl, fun _ hv => ?_, fun _ hv => ?_⟩ <;>
      simp [State.lights, init, Vehicle.place] at hv
  | snoc _ hstep ih =>
    rw [record_snoc]
    exact ih.step (step_lights hstep)

/-- Without another check by the vehicle, the record keeps what the last one returned. -/
lemma check_append (es' : List Event) (h : ∀ phase, .getCurrentPhase i v phase ∉ es') :
    (record i v (es ++ es')).check = (record i v es).check := by
  induction es' using List.reverseRecOn with
  | nil => simp
  | append_singleton es' e ih =>
    rw [← List.append_assoc, record_snoc, ← ih fun phase hp => h phase (by simp [hp])]
    cases e with
    | getCurrentPhase j w phase =>
      have hne : ¬ (j = i ∧ w = v) := by
        rintro ⟨rfl, rfl⟩
        exact h phase (by simp)
      simp [Record.next, hne]
    | send j => by_cases hj : j = i <;> simp [Record.next, hj]
    | receive j => by_cases hj : j = i <;> simp [Record.next, hj]
    | _ => rfl

lemma check_ne_red
    (h : Trace (fun e s t => Step net e s t ∧ GreenCheck e s) (init street destination) es s) :
    (record i v es).check ≠ some .red := by
  induction h with
  | nil => simp [record]
  | @snoc es e t u _ hstep ih =>
    rw [record_snoc]
    cases e with
    | getCurrentPhase j w phase =>
      obtain rfl : phase = .green :=
        (step_lights hstep.1).phase_eq.trans (hstep.2 j w phase rfl)
      by_cases hj : j = i ∧ w = v
      · simp [Record.next, hj]
      · simpa [Record.next, hj] using ih
    | send j => by_cases hj : j = i <;> simpa [Record.next, hj] using ih
    | receive j => by_cases hj : j = i <;> simpa [Record.next, hj] using ih
    | _ => exact ih

/-- **Who runs a red light.** In every run in which each vehicle finds its light green when it
checks it, a vehicle is let go only when it may go. In every run, a vehicle that is let go may
go if and only if its light was green when it checked it. -/
theorem nobody_runs_red_light :
    (∀ es (s : State R) i v s',
      Trace (fun e s t => Step net e s t ∧ GreenCheck e s) (init street destination) es s →
      Step net (.addVehicleToQueueReturns i v) s s' → (record i v es).MayGo) ∧
    ∀ es₁ (t : State R) i v phase t' es₂ s s',
      Trace (Step net) (init street destination) es₁ t →
      Step net (.getCurrentPhase i v phase) t t' →
      Trace (Step net) t' es₂ s → (∀ phase, .getCurrentPhase i v phase ∉ es₂) →
      Step net (.addVehicleToQueueReturns i v) s s' →
      ((record i v (es₁ ++ .getCurrentPhase i v phase :: es₂)).MayGo ↔
        (t.intersections i).trafficLight.currentPhase = .green) := by
  constructor
  · intro es s i v s' hrun hret
    have hrec : Lights.Recorded s.lights i v (record i v es) :=
      run_recorded (hrun.mono fun _ _ _ h => h.1)
    obtain ⟨hplace, hdest⟩ := (step_lights hret).place_of_returns
    rcases hrec.passed hdest hplace with hgo | ⟨hred, -⟩
    · exact .inl hgo
    · exact absurd hred (check_ne_red hrun)
  · intro es₁ t i v phase t' es₂ s s' hrun₁ hcheck hrun₂ hno hret
    have hrec : Lights.Recorded s.lights i v
        (record i v (es₁ ++ [.getCurrentPhase i v phase] ++ es₂)) :=
      run_recorded ((hrun₁.snoc hcheck).append hrun₂)
    obtain ⟨hplace, hdest⟩ := (step_lights hret).place_of_returns
    have hlast : (record i v (es₁ ++ [.getCurrentPhase i v phase] ++ es₂)).check = some phase := by
      rw [check_append es₂ hno, record_snoc]
      simp [Record.next]
    have hphase : phase = (t.intersections i).trafficLight.currentPhase :=
      (step_lights hcheck).phase_eq
    have hiff := hrec.mayGo_iff hdest hplace
    rw [hlast, Option.some.injEq, List.append_assoc, List.singleton_append] at hiff
    rw [← hphase]
    exact hiff

end Runs

/-- Vehicle 1 comes to intersection 0 and is granted entry. -/
def letIn : List Thread :=
  .replicate 6 (.drive 1 3000 0) ++ .replicate 4 (.processVehicleQueue 0)

/-- It finds the light red and waits; the light turns green and red again, and it goes on the
second message. -/
def redCrossing : List Thread :=
  letIn ++ .replicate 3 (.drive 1 3000 0) ++ .replicate 4 (.cycleThroughPhases 0) ++
    .replicate 2 (.drive 1 3000 0)

/-- A vehicle that had to wait for green goes on red. -/
theorem runs_red_light : ¬ ∀ (net : Network) (street destination : Id → Id) (es : List Event)
    (s s' : State ℚ) (i v : Id), Trace (Step net) (init street destination) es s →
    Step net (.addVehicleToQueueReturns i v) s s' → (record i v es).MayGo := by
  intro h
  have hplay : (play deadEnd (init (fun _ => 0) (fun _ => 0) : State ℚ) redCrossing).map
      (fun run => (run.1.getLast?, (record 0 1 run.1.dropLast).check,
        (record 0 1 run.1.dropLast).message)) =
      some (some (.addVehicleToQueueReturns 0 1), some .red, some (1, .red)) := by
    decide +kernel
  obtain ⟨⟨es, s⟩, hrun, hes⟩ := Option.map_eq_some_iff.mp hplay
  obtain ⟨hlast, hcheck, hmessage⟩ : es.getLast? = some (.addVehicleToQueueReturns 0 1) ∧
      (record 0 1 es.dropLast).check = some .red ∧
      (record 0 1 es.dropLast).message = some (1, .red) := by
    simpa using hes
  have htrace := play_trace hrun
  rw [← List.dropLast_append_getLast? _ hlast] at htrace
  obtain ⟨t, t', hbefore, hret⟩ := htrace.step_at
  rcases h _ _ _ _ _ _ _ _ hbefore hret with hgo | ⟨n, hn, -⟩
  · rw [hcheck] at hgo
    simp at hgo
  · rw [hmessage] at hn
    simp at hn

def Event.findsRed : Event → Bool
  | .getCurrentPhase _ _ .red => true
  | _ => false

lemma green_run {net : Network} {s₀ s : State ℚ} {es : List Event} {e : Event}
    {schedule : List Thread} (hrun : play net s₀ schedule = some (es, s))
    (hlast : es.getLast? = some e) (hgreen : es.all (fun e => !e.findsRed) = true) :
    ∃ t t', Trace (fun e s t => Step net e s t ∧ GreenCheck e s) s₀ es.dropLast t ∧
      Step net e t t' := by
  have htrace : Trace (fun e s t => Step net e s t ∧ GreenCheck e s) s₀ es s := by
    refine (play_trace hrun).mono_of_mem fun e he u v hstep => ⟨hstep, ?_⟩
    refine (greenCheck_iff hstep).mpr ?_
    rintro i w rfl
    simpa [Event.findsRed] using List.all_eq_true.mp hgreen _ he
  rw [← List.dropLast_append_getLast? _ hlast] at htrace
  obtain ⟨t, t', hbefore, hret⟩ := htrace.step_at
  exact ⟨t, t', hbefore, hret.1⟩

/-- It finds the light green and goes. -/
def greenCrossing : List Thread :=
  letIn ++ [.cycleThroughPhases 0] ++ .replicate 4 (.drive 1 3000 0)

theorem nobody_runs_red_light_green : ∃ (es : List Event) (s s' : State ℚ),
    Trace (Step deadEnd) (init (fun _ => 0) (fun _ => 0)) es s ∧
      Step deadEnd (.addVehicleToQueueReturns 0 1) s s' ∧ (record 0 1 es).MayGo := by
  have hplay : (play deadEnd (init (fun _ => 0) (fun _ => 0) : State ℚ) greenCrossing).map
      (fun run => (run.1.getLast?, run.1.all fun e => !e.findsRed)) =
      some (some (.addVehicleToQueueReturns 0 1), true) := by
    decide +kernel
  obtain ⟨⟨es, s⟩, hrun, hes⟩ := Option.map_eq_some_iff.mp hplay
  obtain ⟨hlast, hgreen⟩ := Prod.mk.injEq .. ▸ hes
  obtain ⟨t, t', hbefore, hret⟩ := green_run hrun hlast hgreen
  exact ⟨_, t, t', hbefore.mono fun _ _ _ h => h.1, hret,
    nobody_runs_red_light.1 _ t 0 1 t' hbefore hret⟩

end SelfTraining.Traffic
