import SelfTraining.Chat.Broadcast
import SelfTraining.Chat.Received
import SelfTraining.Chat.Stranded

/-!
From the keyboard of one user to the window of another.

In a run in which every read takes one message, nothing is lost between a client that types and
the board, or between the board and a client that is shown what is on it: what is missing is
still on its way.
-/

namespace SelfTraining.Chat

open SelfTraining.Text SelfTraining.Steps SelfTraining.Board

/-- An action with the network that it is taken in. -/
structure Deed where
  net : Network
  action : Action

def Deed.event (d : Deed) : Option Event := d.net.event d.action

/-- The line that a client types. -/
def Deed.typed (fd : Int32) (d : Deed) : Option Bytes :=
  match d.action with
  | .line g text => if g = fd then some text else none
  | _ => none

/-- The message that `Client::Recv` pushes for a read. -/
def Deed.pushed (fd : Int32) (d : Deed) : Option Bytes :=
  match d.action with
  | .receive g k => if g = fd then some (recvMessage (d.net.front g k)) else none
  | _ => none

/-- The events of the server in a run, in order. -/
def events (ds : List Deed) : List Event := ds.filterMap Deed.event

/-- The lines that a client has typed. -/
def typed (fd : Int32) (ds : List Deed) : List Bytes := ds.filterMap (Deed.typed fd)

/-- The messages that a client has been shown. -/
def pushed (fd : Int32) (ds : List Deed) : List Bytes := ds.filterMap (Deed.pushed fd)

/-- The bytes are those of one message, a response or a text. -/
def OneMessage (response : Bool) (data : List Stamped) : Prop :=
  ∃ x ∈ data.head?, isResponse x = response ∧ data = x.1.stamped

instance (response : Bool) (data : List Stamped) : Decidable (OneMessage response data) :=
  inferInstanceAs (Decidable (∃ x ∈ data.head?, _))

/-- Every read takes one message: the server a request, or a line with the zero byte behind it;
a client a response where it waits for one, and a text where it is online. -/
def ReadsOne (n : Network) : Action → Prop
  | .serve fd k _ =>
    ((n.server.entry fd).2 = .request → k = requestSize) ∧
      ((n.server.entry fd).2 = .online →
        (n.toServer fd).take k = sendLine (cstr ((n.toServer fd).take k)))
  | .response fd k | .optionResponse fd k => OneMessage true ((n.toClient fd).take k)
  | .receive fd k => OneMessage false ((n.toClient fd).take k)
  | .connect _ | .request _ _ | .option _ _ | .line _ _ | .exit _ | .closed _ _ => True

instance (n : Network) : (a : Action) → Decidable (ReadsOne n a)
  | .serve _ _ _ => inferInstanceAs (Decidable ((_ → _) ∧ (_ → _)))
  | .response _ _ | .optionResponse _ _ | .receive _ _ =>
    inferInstanceAs (Decidable (OneMessage _ _))
  | .connect _ | .request _ _ | .option _ _ | .line _ _ | .exit _ | .closed _ _ => isTrue trivial

/-- A step in which the server is sent what it is meant for, and every read takes one message. -/
structure DeliveryStep (sql : Sqlite) (d : Deed) (n n' : Network) : Prop where
  here : d.net = n
  step : NetStep sql d.action n n'
  allowed : ∀ e ∈ n.event d.action, Allowed n.server e
  reads : ReadsOne n d.action

/-! ### The run of the server -/

section

variable {sql : Sqlite} {n₀ n n' : Network} {d : Deed} {ds : List Deed} {fd r : Int32}

lemma DeliveryStep.cases (hw : sql.Works) (h : DeliveryStep sql d n n')
    (hc : Consistent n.server) :
    (n.event d.action = none ∧ n' = n.move d.action) ∨
      ∃ e, n.event d.action = some e ∧ SessionEvent sql e n.server (n.server.next e) ∧
        n' = (n.move d.action).deliver (n.server.next e) := by
  have hstep := h.step.2
  cases he : n.event d.action with
  | none => exact .inl ⟨rfl, by simpa [he] using hstep⟩
  | some e =>
    simp only [he] at hstep
    obtain ⟨s', hs', rfl⟩ := hstep
    have hevent : SessionEvent sql e n.server s' := ⟨h.allowed e he, hs'⟩
    obtain rfl := hevent.eq_next hw hc.toKeys
    exact .inr ⟨e, rfl, hevent, rfl⟩

lemma typed_snoc (fd : Int32) (ds : List Deed) (d : Deed) :
    typed fd (ds ++ [d]) = typed fd ds ++ (d.typed fd).toList := by
  cases h : d.typed fd <;> simp [typed, h]

lemma pushed_snoc (fd : Int32) (ds : List Deed) (d : Deed) :
    pushed fd (ds ++ [d]) = pushed fd ds ++ (d.pushed fd).toList := by
  cases h : d.pushed fd <;> simp [pushed, h]

end

/-! ### From the board to a client -/

def Message.text? : Message → Option Bytes
  | .text m => some m
  | .requestResponse _ | .optionResponse _ => none

lemma isResponse_eq (x : Stamped) : isResponse x = x.1.text?.isNone := by
  rcases x with ⟨_ | _ | _, b⟩ <;> rfl

/-- The messages that some calls of `send` put on the way to a connection. -/
def messagesTo (r : Int32) (l : List Sent) : List Message :=
  (l.filter fun e => e.dest = r).map Sent.message

/-- What the board `b` holds for a client is what it has been shown and the texts that are on
the way to it. -/
def Shown (b : List (Post Int32 Bytes)) (ds : List Deed) (n : Network) (r : Int32) : Prop :=
  ∃ ms : List Message, n.toClient r = ms.flatMap Message.stamped ∧ (∀ m ∈ ms, m.stamped ≠ []) ∧
    pushed r ds ++ (ms.filterMap Message.text?).map recvMessage =
      (inbox r b).map fun p => recvMessage p.2

section

variable {sql : Sqlite} {n₀ n n' : Network} {s : Server} {e : Event} {d : Deed} {ds : List Deed}
  {r : Int32} {l : List Sent} {ms : List Message} {b : List (Post Int32 Bytes)} {k : ℕ}
  {response : Bool}

lemma bytesFor_eq (r : Int32) (l : List Sent) :
    bytesFor r l = (messagesTo r l).flatMap Message.stamped := by
  simp [bytesFor, messagesTo, List.flatMap_map]

lemma texts_messagesTo (r : Int32) (l : List Sent) :
    (messagesTo r l).filterMap Message.text? = (textsTo r l).map Prod.snd := by
  induction l with
  | nil => rfl
  | cons e l ih =>
    rcases e with ⟨source, dest, message⟩
    unfold messagesTo textsTo at ih ⊢
    by_cases hd : dest = r
    · cases message <;> simp [List.filterMap_cons, hd, ih, Message.text?, Sent.textTo]
    · cases message <;> simp [List.filterMap_cons, hd, ih, Sent.textTo]

lemma Broadcast.text_ne_nil (b : Broadcast) : b.text ≠ [] := by
  rcases b with ⟨name, _ | _⟩ | ⟨name, text⟩ <;>
    simp [Broadcast.text, isOnline, isOffline, chatLine, bytes]

lemma ne_nil_of_post {p : Post Int32 Bytes} (h : p ∈ (post s e).toList) : p.text ≠ [] := by
  cases e with
  | incoming accepted => simp [post] at h
  | readable fd data loc =>
    obtain ⟨b, -, rfl⟩ := Option.map_eq_some_iff.mp (Option.mem_toList.mp h)
    exact b.text_ne_nil

lemma stamped_ne_nil (h : textsTo r l = inbox r (post s e).toList) :
    ∀ m ∈ messagesTo r l, m.stamped ≠ [] := by
  intro m hm
  cases m with
  | requestResponse res => simp [Message.stamped, Message.payload, leBytes]
  | optionResponse res => simp [Message.stamped, Message.payload, leBytes]
  | text t =>
    have htext : t ∈ (textsTo r l).map Prod.snd := by
      rw [← texts_messagesTo]
      exact List.mem_filterMap.mpr ⟨_, hm, rfl⟩
    rw [h] at htext
    obtain ⟨x, hx, rfl⟩ := List.mem_map.mp htext
    obtain ⟨p, hp, hbring⟩ := List.mem_filterMap.mp hx
    have hsigned : x = p.signed := by
      unfold Post.bring at hbring
      split_ifs at hbring
      simpa [eq_comm] using hbring
    have hne := ne_nil_of_post hp
    simpa [Message.stamped, Message.payload, hsigned, Post.signed] using hne

lemma fst_of_mem_stamped {m : Message} {x : Stamped} (h : x ∈ m.stamped) : x.1 = m := by
  obtain ⟨b, -, rfl⟩ := List.mem_map.mp h
  rfl

lemma OneMessage.first (h : OneMessage response ((ms.flatMap Message.stamped).take k))
    (hms : ∀ m ∈ ms, m.stamped ≠ []) :
    ∃ m rest, ms = m :: rest ∧ (ms.flatMap Message.stamped).take k = m.stamped ∧
      (ms.flatMap Message.stamped).drop k = rest.flatMap Message.stamped ∧
      m.text?.isNone = response := by
  obtain ⟨x, hx, hresponse, htake⟩ := h
  have hne : x.1.stamped ≠ [] := by
    intro hnil
    rw [htake, hnil] at hx
    simp at hx
  obtain ⟨rest, hms', hdrop⟩ :=
    Framing.flatMap_take (fun m y hy => fst_of_mem_stamped hy) hms hne htake
  exact ⟨x.1, rest, hms', htake, hdrop, by rw [← isResponse_eq, hresponse]⟩

lemma Shown.deliver (h : Shown b ds n r) (hc : Consistent n.server)
    (hpush : d.pushed r = none) (hclient : n'.toClient r = n.toClient r)
    (hserver : n'.server = n.server) :
    Shown (b ++ (post n.server e).toList) (ds ++ [d]) (n'.deliver (n.server.next e)) r := by
  obtain ⟨ms, hbytes, hms, hshown⟩ := h
  obtain ⟨l, hl, htexts⟩ := hc.posts e
  refine ⟨ms ++ messagesTo r l, ?_, ?_, ?_⟩
  · simp only [Network.deliver, hserver, hclient, hl, List.drop_left, bytesFor_eq, hbytes,
      List.flatMap_append]
  · intro m hm
    rcases List.mem_append.mp hm with hm | hm
    · exact hms m hm
    · exact stamped_ne_nil (htexts r) m hm
  · rw [pushed_snoc, hpush, inbox_append, List.map_append, ← hshown, List.filterMap_append,
      texts_messagesTo, htexts]
    simp

lemma Shown.read (h : Shown b ds n r) (hone : OneMessage response ((n.toClient r).take k))
    (hpush : d.pushed r = if response then none else some (recvMessage (n.front r k)))
    (hclient : n'.toClient r = (n.toClient r).drop k) : Shown b (ds ++ [d]) n' r := by
  obtain ⟨ms, hbytes, hms, hshown⟩ := h
  rw [hbytes] at hone
  obtain ⟨m, rest, rfl, htake, hdrop, hkind⟩ := hone.first hms
  refine ⟨rest, by rw [hclient, hbytes, hdrop], fun m' hm' => hms m' (by simp [hm']), ?_⟩
  rw [← hshown, pushed_snoc, hpush]
  cases m with
  | text t =>
    obtain rfl : response = false := by simpa [Message.text?] using hkind.symm
    have hfront : n.front r k = t := by
      rw [Network.front, hbytes, htake, map_snd_stamped]
      rfl
    simp [Message.text?, hfront]
  | requestResponse res =>
    obtain rfl : response = true := by simpa [Message.text?] using hkind.symm
    simp [List.filterMap_cons, Message.text?]
  | optionResponse res =>
    obtain rfl : response = true := by simpa [Message.text?] using hkind.symm
    simp [List.filterMap_cons, Message.text?]

lemma Shown.congr (h : Shown b ds n r) (hpush : d.pushed r = none)
    (hclient : n'.toClient r = n.toClient r) : Shown b (ds ++ [d]) n' r := by
  unfold Shown at h ⊢
  rwa [hclient, pushed_snoc, hpush, Option.toList_none, List.append_nil]

end

end SelfTraining.Chat
