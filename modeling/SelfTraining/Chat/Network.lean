import SelfTraining.Chat.Session
import SelfTraining.Chat.Client

/-!
The server together with its clients, over byte channels that keep every byte and its order.

A read takes as many bytes from the front of a channel as it pleases, up to its size. On the
way to a client each byte carries the message it was sent as part of, so that a property can
say what a read has taken.
-/

namespace SelfTraining.Chat

open SelfTraining.Text SelfTraining.Steps

/-- A byte on its way to a client, with the message it belongs to. -/
abbrev Stamped := Message × UInt8

def Message.stamped (m : Message) : List Stamped := m.payload.map fun b => (m, b)

/-- The bytes that some calls of `send` put on the way to a client. -/
def bytesFor (fd : Int32) (l : List Sent) : List Stamped :=
  (l.filter fun e => e.dest = fd).flatMap fun e => e.message.stamped

/-- `taken fd` is what the client's read after its option choice took for the response. -/
structure Network where
  server : Server
  clients : Int32 → Option Phase
  toServer : Int32 → Bytes
  toClient : Int32 → List Stamped
  taken : Int32 → List Stamped

/-- What can happen next. A client acts by the descriptor that the server knows it by; where it
reads, the number of bytes that its read returns is given, and so for the server. -/
inductive Action where
  | connect (fd : Int32)
  | request (fd : Int32) (data : Bytes)
  | response (fd : Int32) (n : ℕ)
  | option (fd : Int32) (choice : UInt8)
  | optionResponse (fd : Int32) (n : ℕ)
  | line (fd : Int32) (text : Bytes)
  | receive (fd : Int32) (n : ℕ)
  | exit (fd : Int32)
  | serve (fd : Int32) (n : ℕ) (loc : Locals)
  | closed (fd : Int32) (loc : Locals)

/-- The client or the server that acts is at the place for it. The server never closes a
descriptor, so that a new connection gets one that no client had. -/
def Enabled (n : Network) : Action → Prop
  | .connect fd => n.clients fd = none ∧ 0 ≤ fd
  | .request fd data =>
    n.clients fd = some .sendRequest ∧ data.length = requestSize ∧ data.head? ≠ some 3
  | .response fd k =>
    n.clients fd = some .awaitResponse ∧ 1 ≤ k ∧ k ≤ 4 ∧ k ≤ (n.toClient fd).length
  | .option fd _ => n.clients fd = some .selectChatOpt
  | .optionResponse fd k =>
    n.clients fd = some .awaitOption ∧ 1 ≤ k ∧ k ≤ 4 ∧ k ≤ (n.toClient fd).length
  | .line fd text => n.clients fd = some .online ∧ Line text
  | .receive fd k =>
    n.clients fd = some .online ∧ 1 ≤ k ∧ k ≤ bufferSize ∧ k ≤ (n.toClient fd).length
  | .exit fd => n.clients fd ≠ none
  | .serve fd k _ => 1 ≤ k ∧ k ≤ readSize (n.server.entry fd).2 ∧ k ≤ (n.toServer fd).length
  | .closed fd _ => n.clients fd = some .exited

/-- The event that the server handles in an action of its own. -/
def Network.event (n : Network) : Action → Option Event
  | .connect fd => some (.incoming fd)
  | .serve fd k loc => some (.readable fd ((n.toServer fd).take k) loc)
  | .closed fd loc => some (.readable fd [] loc)
  | _ => none

namespace Network

def setClient (n : Network) (fd : Int32) (p : Phase) : Network :=
  { n with clients := Function.update n.clients fd (some p) }

def sendServer (n : Network) (fd : Int32) (data : Bytes) : Network :=
  { n with toServer := Function.update n.toServer fd (n.toServer fd ++ data) }

def dropClient (n : Network) (fd : Int32) (k : ℕ) : Network :=
  { n with toClient := Function.update n.toClient fd ((n.toClient fd).drop k) }

def dropServer (n : Network) (fd : Int32) (k : ℕ) : Network :=
  { n with toServer := Function.update n.toServer fd ((n.toServer fd).drop k) }

/-- The bytes of a client's next read of `k` bytes. -/
def front (n : Network) (fd : Int32) (k : ℕ) : Bytes := ((n.toClient fd).take k).map Prod.snd

/-- The server is in state `s'`, and what it has sent since is on the way. -/
def deliver (n : Network) (s' : Server) : Network :=
  { n with
    server := s'
    toClient := fun fd => n.toClient fd ++ bytesFor fd (s'.sent.drop n.server.sent.length) }

/-- What an action does besides the server's own step. -/
def move (n : Network) : Action → Network
  | .connect fd => n.setClient fd .sendRequest
  | .request fd data => (n.sendServer fd data).setClient fd .awaitResponse
  | .response fd k => (n.dropClient fd k).setClient fd (.afterResponse (n.front fd k))
  | .option fd choice => (n.sendServer fd [choice]).setClient fd (.afterOption choice)
  | .optionResponse fd k =>
    { (n.dropClient fd k).setClient fd .online with
      taken := Function.update n.taken fd ((n.toClient fd).take k) }
  | .line fd text => n.sendServer fd (sendLine text)
  | .receive fd k => n.dropClient fd k
  | .exit fd => n.setClient fd .exited
  | .serve fd k _ => n.dropServer fd k
  | .closed fd _ => { n with toServer := Function.update n.toServer fd [] }

end Network

/-- The connection that an action is about. -/
def Action.fd : Action → Int32
  | .connect fd | .request fd _ | .response fd _ | .option fd _ | .optionResponse fd _
  | .line fd _ | .receive fd _ | .exit fd | .serve fd _ _ | .closed fd _ => fd

lemma Network.move_of_ne (n : Network) {a : Action} {fd : Int32} (h : fd ≠ a.fd) :
    (n.move a).clients fd = n.clients fd ∧ (n.move a).toServer fd = n.toServer fd ∧
      (n.move a).toClient fd = n.toClient fd ∧ (n.move a).taken fd = n.taken fd := by
  cases a <;> simp only [Action.fd] at h <;>
    simp [move, setClient, sendServer, dropClient, dropServer, h]

/-- One step of the whole system. -/
def NetStep (sql : Sqlite) (a : Action) (n n' : Network) : Prop :=
  Enabled n a ∧
    match n.event a with
    | none => n' = n.move a
    | some e => ∃ s', Step sql e n.server s' ∧ n' = (n.move a).deliver s'

/-- Nobody has connected yet. -/
structure Quiet (n : Network) : Prop where
  server : Fresh n.server
  clients : n.clients = fun _ => none
  toServer : n.toServer = fun _ => []
  toClient : n.toClient = fun _ => []
  taken : n.taken = fun _ => []

/-! ### Schedules -/

instance (n : Network) : (a : Action) → Decidable (Enabled n a)
  | .connect _ => inferInstanceAs (Decidable (_ ∧ _))
  | .request _ _ => inferInstanceAs (Decidable (_ ∧ _))
  | .response _ _ => inferInstanceAs (Decidable (_ ∧ _))
  | .option _ _ => inferInstanceAs (Decidable (_ = _))
  | .optionResponse _ _ => inferInstanceAs (Decidable (_ ∧ _))
  | .line _ _ => inferInstanceAs (Decidable (_ ∧ _))
  | .receive _ _ => inferInstanceAs (Decidable (_ ∧ _))
  | .exit _ => inferInstanceAs (Decidable (_ ≠ _))
  | .serve _ _ _ => inferInstanceAs (Decidable (_ ∧ _))
  | .closed _ _ => inferInstanceAs (Decidable (_ = _))

/-- The network after an action, with the server as `Server.next` has it. -/
def Network.play (n : Network) (a : Action) : Network :=
  match n.event a with
  | none => n.move a
  | some e => (n.move a).deliver (n.server.next e)

/-- The action can be taken, and brings no quote to the server. -/
def Ready (n : Network) (a : Action) : Prop :=
  Enabled n a ∧ ∀ e ∈ n.event a, Registered n.server e ∧ PlainRequest n.server e

instance (s : Server) : (e : Event) → Decidable (PlainRequest s e)
  | .incoming _ => isTrue trivial
  | .readable _ _ _ => inferInstanceAs (Decidable (_ → _ → _))

instance (n : Network) (a : Action) : Decidable (Ready n a) :=
  inferInstanceAs (Decidable (_ ∧ ∀ e ∈ n.event a, _))

/-- The actions come one after the other, each ready and as `P` asks when it comes. -/
def Agenda (P : Network → Action → Prop) (n : Network) : List Action → Prop
  | [] => True
  | a :: as => Ready n a ∧ P n a ∧ Agenda P (n.play a) as

instance (P : Network → Action → Prop) [∀ n a, Decidable (P n a)] :
    (n : Network) → (as : List Action) → Decidable (Agenda P n as)
  | _, [] => isTrue trivial
  | n, a :: as =>
    have : Decidable (Agenda P (n.play a) as) := instDecidableAgenda P (n.play a) as
    inferInstanceAs (Decidable (_ ∧ _ ∧ _))

lemma Ready.step {sql : Sqlite} (hw : sql.Works) {n : Network} {a : Action} (h : Ready n a)
    (hk : Keys n.server) : NetStep sql a n (n.play a) := by
  refine ⟨h.1, ?_⟩
  unfold Network.play
  cases he : n.event a with
  | none => rfl
  | some e =>
    obtain ⟨hreg, hplain⟩ := h.2 e he
    exact ⟨_, ⟨hreg, handleEvent_eq hw (hk.quoteless hplain)⟩, rfl⟩

@[simp] lemma move_server (n : Network) (a : Action) : (n.move a).server = n.server := by
  cases a <;> rfl

lemma Ready.keys {n : Network} {a : Action} (h : Ready n a) (hk : Keys n.server) :
    Keys (n.play a).server := by
  unfold Network.play
  cases he : n.event a with
  | none => rwa [move_server]
  | some e => exact hk.next (h.2 e he).2 (h.2 e he).1

end SelfTraining.Chat
