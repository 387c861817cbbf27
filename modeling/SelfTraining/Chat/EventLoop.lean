import Mathlib.Data.Finset.SDiff
import SelfTraining.Lib.EdgeTriggered
import SelfTraining.Chat.Serving

/-!
The event loop over edge-triggered sockets: which bytes stay unread.

`HandleConnections` waits for events and handles them one after the other; each event of a
connection is one read, of the size that the state of the connection has. The view `poller`
shows the sockets alone, as in `EdgeTriggered`.
-/

namespace SelfTraining.Chat

open SelfTraining.Text SelfTraining.Steps SelfTraining.EdgeTriggered

/-- A socket that `epoll_wait` reports. -/
inductive Reported where
  | listening
  | connection (fd : Int32)
  deriving DecidableEq

/-- `ready` holds the sockets at which something has arrived since they were reported last, and
`batch` the reported ones that have not been handled yet. -/
structure EventLoop where
  server : Server
  buffer : Int32 → Bytes
  ready : Finset Int32
  batch : List Reported

/-- `MAX_EVENTS`. -/
def maxEvents : ℕ := 1000

inductive LoopAction where
  | arrive (fd : Int32) (data : Bytes)
  | close (fd : Int32)
  | wait (events : List Reported)
  | accept (accepted : Int32)
  | handle (fd : Int32) (loc : Locals)

namespace EventLoop

/-- Bytes arrive for a descriptor, registered or not. -/
def arrive (l : EventLoop) (fd : Int32) (data : Bytes) : EventLoop :=
  { l with
    buffer := Function.update l.buffer fd (l.buffer fd ++ data)
    ready := insert fd l.ready }

def report (l : EventLoop) (events : List Reported) : EventLoop :=
  { l with batch := events, ready := l.ready.filter fun fd => .connection fd ∉ events }

/-- A descriptor that is registered with bytes in its buffer is ready; one that was registered
before stays as it is. -/
def added (l : EventLoop) (fd : Int32) : Finset Int32 :=
  if fd ∈ l.server.epoll ∨ l.buffer fd = [] then l.ready else insert fd l.ready

/-- One read of a connection. -/
def read (l : EventLoop) (fd : Int32) : Int32 → Bytes :=
  Function.update l.buffer fd ((l.buffer fd).drop (readSize (l.server.entry fd).2))

end EventLoop

/-- One step, of a peer, of the kernel or of the server, whatever SQLite does in it. Events are
handled until the batch is done, as long as no exception escapes. -/
inductive LoopStep : LoopAction → EventLoop → EventLoop → Prop where
  | arrive {l : EventLoop} (fd : Int32) (data : Bytes) (hd : data ≠ []) :
    LoopStep (.arrive fd data) l (l.arrive fd data)
  | close {l : EventLoop} (fd : Int32) :
    LoopStep (.close fd) l { l with ready := insert fd l.ready }
  | wait {l : EventLoop} {events : List Reported} (hbatch : l.batch = [])
      (hmax : events.length ≤ maxEvents) (hnodup : events.Nodup)
      (hevents : ∀ fd, .connection fd ∈ events → fd ∈ l.ready ∧ fd ∈ l.server.epoll) :
    LoopStep (.wait events) l (l.report events)
  | accept {l : EventLoop} {rest : List Reported} {sql : Sqlite} {s' : Server} (accepted : Int32)
      (hbatch : l.batch = .listening :: rest)
      (hrun : handleEvent sql (.incoming accepted) l.server = .ok () s') :
    LoopStep (.accept accepted) l
      { l with server := s', ready := l.added (Chat.accept accepted), batch := rest }
  | handle {l : EventLoop} {fd : Int32} {rest : List Reported} {sql : Sqlite} {s' : Server}
      (loc : Locals) (hbatch : l.batch = .connection fd :: rest)
      (hrun : handleEvent sql (.readable fd (l.buffer fd) loc) l.server = .ok () s') :
    LoopStep (.handle fd loc) l { l with server := s', buffer := l.read fd, batch := rest }

/-- No connection has come in yet. -/
structure Idle (l : EventLoop) : Prop where
  conList : l.server.conList = fun _ => none
  epoll : l.server.epoll = ∅
  batch : l.batch = []

/-- A connection that is neither ready nor in the batch has an empty buffer. -/
def NoUnread (l : EventLoop) : Prop :=
  ∀ fd, l.server.conList fd ≠ none → fd ∉ l.ready → .connection fd ∉ l.batch → l.buffer fd = []

/-- The connection has logged in and asks to leave. -/
def AsksToLeave (l : EventLoop) (fd : Int32) (loc : Locals) : Prop :=
  (l.server.entry fd).2 = .authenticated ∧ Leaves (l.buffer fd) loc

instance (l : EventLoop) (fd : Int32) (loc : Locals) : Decidable (AsksToLeave l fd loc) :=
  inferInstanceAs (Decidable (_ ∧ _))

/-- The one read takes all that has arrived, or more has arrived since the report, or the
connection asks to leave. -/
def Fits (l : EventLoop) : LoopAction → Prop
  | .handle fd loc => (l.buffer fd).length ≤ readSize (l.server.entry fd).2 ∨ fd ∈ l.ready ∨
    AsksToLeave l fd loc
  | _ => True

/-! ### The sockets alone -/

def Reported.fd? : Reported → Option Int32
  | .listening => none
  | .connection fd => some fd

namespace EventLoop

variable {l l' : EventLoop}

def poller (l : EventLoop) : Poller Int32 UInt8 where
  registered := {fd | l.server.conList fd ≠ none}
  buffer := l.buffer
  ready := l.ready
  batch := l.batch.filterMap Reported.fd?

lemma mem_fds {events : List Reported} {fd : Int32} :
    fd ∈ events.filterMap Reported.fd? ↔ .connection fd ∈ events := by
  simp only [List.mem_filterMap]
  constructor
  · rintro ⟨_ | g, hr, hfd⟩
    · cases hfd
    · obtain rfl : g = fd := Option.some.inj hfd
      exact hr
  · exact fun h => ⟨_, h, rfl⟩

lemma mem_poller_batch {fd : Int32} : fd ∈ l.poller.batch ↔ .connection fd ∈ l.batch := mem_fds

lemma noUnread_iff : NoUnread l ↔ l.poller.NothingLeft := by
  unfold NoUnread Poller.NothingLeft
  simp only [mem_poller_batch]
  rfl

/-- `con_list` holds the registered descriptors. -/
def Listed (l : EventLoop) : Prop := ∀ fd, fd ∈ l.server.epoll ↔ l.server.conList fd ≠ none

/-- The label that a step has among the sockets. -/
def label (l : EventLoop) : LoopAction → Label Int32
  | .arrive fd _ => .arrive fd
  | .close fd => .close fd
  | .wait _ => .wait
  | .accept accepted => .add (Chat.accept accepted)
  | .handle fd loc =>
    if AsksToLeave l fd loc ∨ l.buffer fd = [] then .remove fd
    else .read fd (readSize (l.server.entry fd).2)

lemma fits_iff {a : LoopAction} : Fits l a ↔ l.poller.Drains (l.label a) := by
  cases a with
  | handle fd loc =>
    by_cases hleave : AsksToLeave l fd loc
    · simp [Fits, label, hleave, Poller.Drains]
    · by_cases hnil : l.buffer fd = []
      · simp [Fits, label, hnil, Poller.Drains]
      · simp [Fits, label, hleave, hnil, Poller.Drains, poller]
  | _ => simp [Fits, label, Poller.Drains]

/-- What a loop keeps besides its reads. -/
structure Sound (l : EventLoop) : Prop where
  listed : l.Listed
  poller : l.poller.Sound

lemma handle_cases {fd : Int32} {sql : Sqlite} {s' : Server} {loc : Locals}
    (hrun : handleEvent sql (.readable fd (l.buffer fd) loc) l.server = .ok () s') :
    ∃ x, s'.conList = Function.update l.server.conList fd x ∧
      s'.epoll = (if x = none then l.server.epoll.erase fd else l.server.epoll) ∧
      (x = none ↔ AsksToLeave l fd loc ∨ l.buffer fd = []) := by
  obtain ⟨sends, x, t, hserved, hafter⟩ := handleSingleSocketCon_served hrun
  refine ⟨x, hafter.conList, hafter.epoll, ?_⟩
  cases hserved with
  | dropped _ hd => simp [hd]
  | answered hst hd => simp [AsksToLeave, hst, hd]
  | exited hst hl => simp [AsksToLeave, hst, hl]
  | chose hst hl =>
    have hd : l.buffer fd ≠ [] := fun hnil => hl (.inl hnil)
    simp [AsksToLeave, hl, hd]
  | left _ hd => simp [hd]
  | relayed hst hd => simp [AsksToLeave, hst, hd]

lemma Listed.step {a : LoopAction} (h : l.Sound) (hstep : LoopStep a l l') : l'.Listed := by
  cases hstep with
  | arrive => exact h.listed
  | close => exact h.listed
  | wait => exact h.listed
  | @accept _ rest sql s' accepted hbatch hrun =>
    obtain rfl : l.server.add (Chat.accept accepted) = s' := by
      simpa [handleEvent, accept_ne] using hrun
    intro g
    have hg := h.listed g
    by_cases hne : g = Chat.accept accepted
    · simp [hne, Server.add, Server.touch, Server.setEntry]
    · simp [hne, Server.add, Server.touch, Server.setEntry, hg]
  | @handle _ fd rest sql s' loc hbatch hrun =>
    obtain ⟨x, hcon, hepoll, -⟩ := handle_cases hrun
    intro g
    have hg := h.listed g
    change g ∈ s'.epoll ↔ s'.conList g ≠ none
    rw [hcon, hepoll]
    by_cases hne : g = fd
    · subst hne
      have hreg : g ∈ l.server.epoll :=
        hg.mpr (h.poller.registered g (mem_poller_batch.mpr (by simp [hbatch])))
      by_cases hx : x = none <;> simp [hx, hreg]
    · by_cases hx : x = none <;> simp [hx, hne, hg]

lemma poller_arrive (fd : Int32) (data : Bytes) : (l.arrive fd data).poller =
    { l.poller with
      buffer := Function.update l.poller.buffer fd (l.poller.buffer fd ++ data)
      ready := insert fd l.poller.ready } := by
  simp [poller, arrive]

lemma poller_close (fd : Int32) :
    ({ l with ready := insert fd l.ready } : EventLoop).poller =
      { l.poller with ready := insert fd l.poller.ready } := by
  simp [poller]

lemma poller_report (events : List Reported) : (l.report events).poller =
    { l.poller with
      batch := events.filterMap Reported.fd?
      ready := l.poller.ready \ {fd | fd ∈ events.filterMap Reported.fd?} } := by
  simp only [poller, report, Poller.mk.injEq, true_and, and_true]
  ext fd
  simp only [Finset.coe_filter, Set.mem_ofPred_eq, Set.mem_sdiff, SetLike.mem_coe, mem_fds]

lemma nodup_fds {events : List Reported} (h : events.Nodup) :
    (events.filterMap Reported.fd?).Nodup := by
  refine h.filterMap ?_
  rintro (_ | f) (_ | g) fd hf hg
  · rfl
  · cases hf
  · cases hg
  · exact congrArg Reported.connection ((Option.some.inj hf).trans (Option.some.inj hg).symm)

lemma poller_add {rest : List Reported} (fd : Int32) (hbatch : l.batch = .listening :: rest) :
    ({ l with server := l.server.add fd, ready := l.added fd, batch := rest } :
      EventLoop).poller =
    { l.poller with
      registered := insert fd l.poller.registered, ready := (l.added fd : Set Int32) } := by
  simp only [poller, hbatch, List.filterMap_cons, Reported.fd?, Poller.mk.injEq, and_true]
  ext g
  by_cases hg : g = fd <;> simp [Server.add, Server.touch, Server.setEntry, hg]

lemma poller_handle {rest : List Reported} {fd : Int32} {s' : Server}
    {x : Option (Bytes × State)} (hreg : l.server.conList fd ≠ none)
    (hcon : s'.conList = Function.update l.server.conList fd x) :
    ({ l with server := s', buffer := l.read fd, batch := rest } : EventLoop).poller =
    { l.poller with
      registered := if x = none then l.poller.registered \ {fd} else l.poller.registered
      buffer := Function.update l.poller.buffer fd
        ((l.poller.buffer fd).drop (readSize (l.server.entry fd).2))
      batch := rest.filterMap Reported.fd? } := by
  simp only [poller, read, hcon, Poller.mk.injEq, and_true]
  ext g
  by_cases hg : g = fd <;> by_cases hx : x = none <;> simp [hg, hx, hreg]

/-- **The loop is a poller**: each of its steps is one among the sockets. -/
theorem poller_step {a : LoopAction} (h : l.Sound) (hstep : LoopStep a l l') :
    EdgeTriggered.Step (l.label a) l.poller l'.poller := by
  cases hstep with
  | arrive fd data =>
    rw [poller_arrive]
    exact .arrive fd data
  | close fd =>
    rw [poller_close]
    exact .close fd
  | @wait _ events hbatch hmax hnodup hevents =>
    rw [poller_report]
    refine .wait (by simp [poller, hbatch]) (nodup_fds hnodup) fun fd hfd => ?_
    obtain ⟨hready, hreg⟩ := hevents fd (mem_fds.mp hfd)
    exact ⟨hready, (h.listed fd).mp hreg⟩
  | @accept _ rest sql s' accepted hbatch hrun =>
    obtain rfl : l.server.add (Chat.accept accepted) = s' := by
      simpa [handleEvent, accept_ne] using hrun
    change EdgeTriggered.Step (.add (Chat.accept accepted)) _ _
    generalize Chat.accept accepted = fd
    rw [poller_add fd hbatch]
    refine .add fd ?_ ?_
    · unfold added
      split
      · exact subset_rfl
      · simp [poller]
    · by_cases hreg : fd ∈ l.server.epoll
      · exact .inl ((h.listed fd).mp hreg)
      · by_cases hnil : l.buffer fd = []
        · exact .inr (.inl hnil)
        · exact .inr (.inr (by simp [added, hreg, hnil]))
  | @handle _ fd rest sql s' loc hbatch hrun =>
    obtain ⟨x, hcon, -, hnone⟩ := handle_cases hrun
    have hpoller : l.poller.batch = fd :: rest.filterMap Reported.fd? := by
      simp [poller, hbatch, Reported.fd?]
    rw [poller_handle (h.poller.registered fd (by simp [hpoller])) hcon]
    by_cases hx : x = none
    · simp only [if_pos hx, label, if_pos (hnone.mp hx)]
      exact .remove hpoller _
    · simp only [if_neg hx, label, if_neg (hnone.not.mp hx)]
      exact .read hpoller _

lemma Sound.step {a : LoopAction} (h : l.Sound) (hstep : LoopStep a l l') : l'.Sound :=
  ⟨Listed.step h hstep, h.poller.step (poller_step h hstep)⟩

lemma Sound.of_idle (h : Idle l) : l.Sound := by
  refine ⟨fun fd => by simp [h.conList, h.epoll], ?_, ?_⟩
  · simp [EventLoop.poller, h.batch]
  · simp [EventLoop.poller, h.batch]

end EventLoop

/-! ### Runs -/

lemma NoUnread.of_idle {l : EventLoop} (h : Idle l) : NoUnread l :=
  fun fd hreg => absurd (congrFun h.conList fd) hreg

/-- **No unread input is left behind** in a run in which every read takes all that has arrived,
or more has arrived since the report, or the connection asks to leave. As soon as one read does
not, some is. -/
theorem no_unread_input {l₀ : EventLoop} (h0 : Idle l₀) :
    (∀ as l, Trace (fun a l l' => LoopStep a l l' ∧ Fits l a) l₀ as l → NoUnread l) ∧
    ∀ as l a l', Trace LoopStep l₀ as l → LoopStep a l l' → ¬ Fits l a → ¬ NoUnread l' := by
  constructor
  · intro as l hrun
    have hinv : l.Sound ∧ NoUnread l := by
      refine hrun.reaches.invariant (I := fun l => l.Sound ∧ NoUnread l)
        ⟨.of_idle h0, .of_idle h0⟩ ?_
      rintro u v ⟨hs, hn⟩ ⟨a, hstep, hfits⟩
      refine ⟨hs.step hstep, EventLoop.noUnread_iff.mpr ?_⟩
      exact (EventLoop.noUnread_iff.mp hn).step (EventLoop.poller_step hs hstep)
        (EventLoop.fits_iff.mp hfits)
    exact hinv.2
  · intro as l a l' hrun hstep hfits hn
    have hs : l.Sound :=
      hrun.reaches.invariant (I := EventLoop.Sound) (.of_idle h0) fun u v hu ⟨b, hb⟩ => hu.step hb
    exact Poller.not_nothingLeft_of_read hs.poller (EventLoop.poller_step hs hstep)
      (EventLoop.fits_iff.not.mp hfits) (EventLoop.noUnread_iff.mp hn)

/-! ### One client -/

def idleLoop : EventLoop := ⟨emptyServer, fun _ => [], ∅, []⟩

lemma idleLoop_idle : Idle idleLoop := ⟨rfl, rfl, rfl⟩

/-- A client has connected. -/
def connected : EventLoop :=
  { idleLoop.report [.listening] with
    server := emptyServer.next (.incoming 5)
    ready := (idleLoop.report [.listening]).added 5
    batch := [] }

/-- Some bytes have come from it and are reported. -/
def arrived (data : Bytes) : EventLoop := (connected.arrive 5 data).report [.connection 5]

/-- Its event has been handled. -/
def handled (data : Bytes) : EventLoop :=
  { arrived data with
    server := connected.server.next (.readable 5 data ⟨7, []⟩)
    buffer := (arrived data).read 5
    batch := [] }

lemma arrived_trace {data : Bytes} (hd : data ≠ []) :
    Trace (fun a l l' => LoopStep a l l' ∧ Fits l a) idleLoop
      ([] ++ [.wait [.listening]] ++ [.accept 5] ++ [.arrive 5 data] ++ [.wait [.connection 5]])
      (arrived data) := by
  have haccept : handleEvent .reference (.incoming 5) emptyServer =
      .ok () (emptyServer.next (.incoming 5)) := rfl
  refine .snoc (.snoc (.snoc (.snoc .nil ⟨.wait rfl (by decide) (by decide) (by simp), trivial⟩)
    ⟨.accept 5 rfl haccept, trivial⟩) ⟨.arrive 5 data hd, trivial⟩)
    ⟨.wait rfl (by decide) (by decide) ?_, trivial⟩
  rintro fd hfd
  obtain rfl : fd = 5 := by simpa using hfd
  have hreg : (5 : Int32) ∈ (emptyServer.next (.incoming 5)).epoll := by decide
  exact ⟨Finset.mem_insert_self _ _, hreg⟩

lemma handled_step {data : Bytes}
    (hq : Quoteless connected.server (.readable 5 data ⟨7, []⟩)) :
    LoopStep (.handle 5 ⟨7, []⟩) (arrived data) (handled data) :=
  .handle _ rfl (handleEvent_eq Sqlite.reference_works hq)

/-- A client sends its request and its option in one piece: the option stays unread. -/
theorem option_left_unread : ¬ ∀ (l₀ l : EventLoop) (as : List LoopAction), Idle l₀ →
    Trace LoopStep l₀ as l → NoUnread l := by
  intro h
  let data := requestBytes 2 (bytes "al") (bytes "pw") ++ [1]
  have hq : Quoteless connected.server (.readable 5 data ⟨7, []⟩) := fun _ => by decide +kernel
  have hdata : data ≠ [] := by decide
  have hrun := ((arrived_trace hdata).mono fun _ _ _ hs => hs.1).snoc (handled_step hq)
  have hbuffer : (handled data).buffer 5 = [1] := by decide +kernel
  have hleft := h _ _ _ idleLoop_idle hrun 5 (by decide +kernel) (by decide +kernel)
    (by decide +kernel)
  rw [hbuffer] at hleft
  cases hleft

/-- A request on its own is read whole. -/
theorem no_unread_input_request : ∃ l : EventLoop,
    l.server.conList 5 = some (bytes "al", .authenticated) ∧ NoUnread l := by
  let data := requestBytes 2 (bytes "al") (bytes "pw")
  have hq : Quoteless connected.server (.readable 5 data ⟨7, []⟩) := fun _ => by decide +kernel
  have hfits : Fits (arrived data) (.handle 5 ⟨7, []⟩) := .inl (by decide +kernel)
  have hdata : data ≠ [] := by decide
  have hrun := (arrived_trace hdata).snoc ⟨handled_step hq, hfits⟩
  exact ⟨_, by decide +kernel, (no_unread_input idleLoop_idle).1 _ _ hrun⟩

end SelfTraining.Chat
