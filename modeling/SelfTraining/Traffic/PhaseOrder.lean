import SelfTraining.Lib.Lifo
import SelfTraining.Traffic.Lights

/-!
In which order the phases of a light are received.

A `MessageQueue` takes messages from the end at which it puts them. The phases that a light
sends are numbered here in the order of sending, whoever receives them; in a run of the whole
simulation each light's queue is such a queue.
-/

namespace SelfTraining.Traffic

open Steps

/-- An operation on a queue: a `send`, or a `receive` that finds a message. -/
inductive QueueStep {T : Type} : Lifo.Event T → MessageQueue T → MessageQueue T → Prop where
  | send (msg : T) (queue : MessageQueue T) : QueueStep (.push msg) queue (queue.send msg)
  | receive {msg : T} {queue queue' : MessageQueue T}
      (h : queue.receive = some (msg, queue')) : QueueStep (.pop msg) queue queue'

/-- A phase with the number of its sending. -/
abbrev Numbered := ℕ × TrafficLightPhase

/-- The phases are sent in the order of their numbers. -/
def SentInTurn (es : List (Lifo.Event Numbered)) : Prop :=
  (Lifo.pushes es).map Prod.fst = List.range (Lifo.pushes es).length

instance (es : List (Lifo.Event Numbered)) : Decidable (SentInTurn es) :=
  inferInstanceAs (Decidable (_ = _))

/-- No phase is received twice, and each was sent later than all that were received before. -/
structure ReceivedInTurn (es : List (Lifo.Event Numbered)) : Prop where
  once : (Lifo.pops es).Nodup
  later : (Lifo.pops es).Pairwise fun a b => a.1 < b.1

/-! ### The queue is a pile -/

section Queue

variable {T : Type} {e : Lifo.Event T} {es : List (Lifo.Event T)} {queue queue' : MessageQueue T}

lemma receive_eq_some {msg : T} :
    queue.receive = some (msg, queue') ↔ queue = queue' ++ [msg] := by
  unfold MessageQueue.receive
  rw [Option.map_eq_some_iff]
  constructor
  · rintro ⟨last, hlast, heq⟩
    obtain ⟨rfl, rfl⟩ : last = msg ∧ _ = queue' := by simpa using heq
    exact (List.dropLast_append_getLast? last hlast).symm
  · rintro rfl
    exact ⟨msg, by simp, by simp⟩

lemma QueueStep.lifo (h : QueueStep e queue queue') : Lifo.Step e queue queue' := by
  cases h with
  | send msg => exact .push msg queue
  | receive h =>
    obtain rfl := receive_eq_some.mp h
    exact .pop _ _

lemma lifo_trace (h : Trace QueueStep [] es queue) : Trace Lifo.Step [] es queue :=
  h.mono fun _ _ _ hstep => hstep.lifo

end Queue

section Order

variable {es : List (Lifo.Event Numbered)} {queue : MessageQueue Numbered}

lemma SentInTurn.pairwise (h : SentInTurn es) :
    (Lifo.pushes es).Pairwise fun a b => a.1 < b.1 := by
  rw [← List.pairwise_map (f := Prod.fst) (R := fun a b : ℕ => a < b), h]
  exact List.pairwise_lt_range

lemma received_once (hrun : Trace QueueStep [] es queue) (hsent : SentInTurn es) :
    (Lifo.pops es).Nodup := by
  have hpushes : (Lifo.pushes es).Nodup :=
    hsent.pairwise.imp fun hlt heq => absurd (congrArg Prod.fst heq) hlt.ne
  exact (List.nodup_append.mp ((Lifo.pops_perm (lifo_trace hrun)).nodup_iff.mpr hpushes)).1

/-- **Phases never go back in time** if and only if between two successive receives the light has
sent a phase. -/
theorem received_in_turn_iff (hrun : Trace QueueStep [] es queue) (hsent : SentInTurn es) :
    ReceivedInTurn es ↔ Lifo.Fed es := by
  have hiff := Lifo.pops_pairwise_iff (r := fun a b : Numbered => a.1 < b.1)
    (fun _ _ hab => hab.not_gt) (lifo_trace hrun) hsent.pairwise
  exact ⟨fun h => hiff.mp h.later, fun h => ⟨received_once hrun hsent, hiff.mpr h⟩⟩

end Order

/-! ### The simulation -/

/-- What an event is to the queue of the light at `i`. -/
def Event.onQueue (i : Id) : Event → Option (Lifo.Event TrafficLightPhase)
  | .send j msg => if j = i then some (.push msg) else none
  | .receive j _ msg => if j = i then some (.pop msg) else none
  | _ => none

/-- The sends and receives of a run at one light, with numbers, and the queue that they lead to. -/
structure Numbering (i : Id) (es : List Event) (msgQueue : MessageQueue TrafficLightPhase)
    (es' : List (Lifo.Event Numbered)) (queue : MessageQueue Numbered) : Prop where
  run : Trace QueueStep [] es' queue
  sent : SentInTurn es'
  queue : queue.map Prod.snd = msgQueue
  events : es'.map (Lifo.Event.map Prod.snd) = es.filterMap (Event.onQueue i)

section Simulation

variable {i : Id} {es : List Event} {e : Event} {msgQueue : MessageQueue TrafficLightPhase}
  {es' : List (Lifo.Event Numbered)} {queue : MessageQueue Numbered} {msg : TrafficLightPhase}

lemma Numbering.skip (h : Numbering i es msgQueue es' queue) (he : e.onQueue i = none) :
    Numbering i (es ++ [e]) msgQueue es' queue :=
  { h with events := by simp [h.events, he] }

lemma Numbering.send (h : Numbering i es msgQueue es' queue) (msg : TrafficLightPhase) :
    Numbering i (es ++ [.send i msg]) (msgQueue.send msg)
      (es' ++ [.push ((Lifo.pushes es').length, msg)])
      (queue ++ [((Lifo.pushes es').length, msg)]) where
  run := h.run.snoc (.send _ queue)
  sent := by
    have hsent := h.sent
    unfold SentInTurn at *
    rw [Lifo.pushes_push, List.map_append, hsent, List.length_append, List.length_singleton,
      List.range_succ]
    rfl
  queue := by simp [MessageQueue.send, h.queue]
  events := by simp [h.events, Event.onQueue, Lifo.Event.map]

lemma Numbering.receive (h : Numbering i es msgQueue es' queue) (v : Id)
    {rest : MessageQueue TrafficLightPhase} (hq : msgQueue.receive = some (msg, rest)) :
    ∃ n queue', Numbering i (es ++ [.receive i v msg]) rest (es' ++ [.pop (n, msg)]) queue' := by
  have hmap := h.queue.trans (receive_eq_some.mp hq)
  obtain ⟨queue', last, rfl, hrest, hlast⟩ := List.map_eq_append_iff.mp hmap
  obtain ⟨⟨n, msg'⟩, rfl, rfl⟩ := List.map_eq_singleton_iff.mp hlast
  refine ⟨n, queue', ?_, ?_, hrest, ?_⟩
  · exact h.run.snoc (.receive (receive_eq_some.mpr rfl))
  · have hsent := h.sent
    unfold SentInTurn at *
    rwa [Lifo.pushes_pop]
  · simp [h.events, Event.onQueue, Lifo.Event.map]

/-- **One step of the lights** is an operation on the queue, or none. -/
lemma Numbering.step {l m : Lights} (h : Numbering i es (l.msgQueue i) es' queue)
    (hstep : Lights.Step e l m) :
    ∃ es'' queue', Numbering i (es ++ [e]) (m.msgQueue i) es'' queue' := by
  cases hstep with
  | quiet he => exact ⟨_, _, h.skip (by cases e <;> simp_all [Lights.Dark, Event.onQueue])⟩
  | turn => exact ⟨_, _, h.skip rfl⟩
  | lock => exact ⟨_, _, h.skip rfl⟩
  | unlock => exact ⟨_, _, h.skip rfl⟩
  | getCurrentPhase => exact ⟨_, _, h.skip rfl⟩
  | returns => exact ⟨_, _, h.skip rfl⟩
  | toggle => exact ⟨_, _, h.skip rfl⟩
  | @receive _ v msg rest hv hq =>
    by_cases hi : l.destination v = i
    · subst hi
      obtain ⟨n, queue', hnum⟩ := h.receive v hq
      exact ⟨_, queue', by simpa using hnum⟩
    · refine ⟨es', queue, ?_⟩
      simpa [Ne.symm hi] using h.skip (e := .receive (l.destination v) v msg)
        (by simp [Event.onQueue, hi])
  | send j msg =>
    by_cases hi : j = i
    · subst hi
      exact ⟨_, _, by simpa using h.send msg⟩
    · refine ⟨es', queue, ?_⟩
      simpa [Ne.symm hi] using h.skip (e := .send j msg) (by simp [Event.onQueue, hi])

/-- **Each light's queue** in a run of the simulation: its messages can be numbered in the order
of sending, so that it goes through the sends of the light and the receives of the vehicles. -/
theorem light_numbered {R : Type} [Double R] {net : Network} {street destination : Id → Id}
    {s : State R} (h : Trace (Step net) (init street destination) es s) (i : Id) :
    ∃ es' queue, Numbering i es (s.intersections i).trafficLight.msgQueue es' queue := by
  induction h with
  | nil => exact ⟨[], [], .nil, rfl, rfl, rfl⟩
  | snoc _ hstep ih =>
    obtain ⟨es', queue, hnum⟩ := ih
    exact hnum.step (l := State.lights _) (step_lights hstep)

end Simulation

/-! ### Two phases -/

def firstGreen : Numbered := (0, .green)

def thenRed : Numbered := (1, .red)

/-- Two phases are sent before the first is received: the older one comes last. -/
theorem older_phase_last : ¬ ∀ (es : List (Lifo.Event Numbered)) (queue : MessageQueue Numbered),
    Trace QueueStep [] es queue → SentInTurn es → ReceivedInTurn es := by
  intro h
  have hrun : Trace QueueStep [] ([] ++ [.push firstGreen] ++ [.push thenRed] ++
      [.pop thenRed] ++ [.pop firstGreen]) [] :=
    .snoc (.snoc (.snoc (.snoc .nil (.send _ _)) (.send _ _)) (.receive rfl)) (.receive rfl)
  have hlater := (h _ _ hrun (by decide)).later
  revert hlater
  decide

/-- Where each phase is received before the next is sent, they come in turn. -/
theorem received_in_turn_alternating : ReceivedInTurn
    [.push firstGreen, .pop firstGreen, .push thenRed, .pop thenRed] := by
  have hrun : Trace QueueStep [] ([] ++ [.push firstGreen] ++ [.pop firstGreen] ++
      [.push thenRed] ++ [.pop thenRed]) [] :=
    .snoc (.snoc (.snoc (.snoc .nil (.send _ _)) (.receive rfl)) (.send _ _)) (.receive rfl)
  exact (received_in_turn_iff hrun (by decide)).mpr (by decide)

end SelfTraining.Traffic
