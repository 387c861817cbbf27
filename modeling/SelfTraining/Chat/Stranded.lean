import SelfTraining.Chat.Serving
import SelfTraining.Chat.Confusion

/-!
Clients that wait for a response that nobody owes them.

The server answers each read of a request, and the option after a success; then it answers no
more. What a client may still wait for is bounded below by the zeros at the end of the
responses on their way to it: a read of zeros is a success and lets the client go on, and any
other read leaves the zeros of the last success, but for three.
-/

namespace SelfTraining.Chat

open SelfTraining.Text SelfTraining.Steps

/-! ### The system -/

/-- A server that an exception has escaped from is not `running`: its process has ended, and
with it every connection is closed. -/
structure System where
  net : Network
  running : Bool

/-- One step, whatever SQLite does in it. -/
inductive SystemStep (a : Action) : System → System → Prop where
  | net {sql : Sqlite} {n n' : Network} (h : NetStep sql a n n') :
    SystemStep a ⟨n, true⟩ ⟨n', true⟩
  | throws {sql : Sqlite} {n : Network} {e : Event} {s' : Server} {exc : SqlException}
      (hen : Enabled n a) (he : n.event a = some e) (hreg : Registered n.server e)
      (hrun : handleEvent sql e n.server = .error exc s') :
    SystemStep a ⟨n, true⟩ ⟨(n.move a).deliver s', false⟩
  | alone {n : Network} (hen : Enabled n a) (he : n.event a = none) :
    SystemStep a ⟨n, false⟩ ⟨n.move a, false⟩

/-- Nobody has connected yet. -/
structure Unconnected (s : System) : Prop where
  running : s.running = true
  conList : s.net.server.conList = fun _ => none
  clients : s.net.clients = fun _ => none
  toServer : s.net.toServer = fun _ => []

def isResponse (x : Stamped) : Bool :=
  match x.1 with
  | .text _ => false
  | .requestResponse _ | .optionResponse _ => true

namespace Network

/-- The bytes of responses on their way to a client. -/
def responses (n : Network) (fd : Int32) : Bytes :=
  ((n.toClient fd).filter isResponse).map Prod.snd

end Network

/-- The client stands in `read` for a response. -/
def Phase.Waiting (p : Phase) : Prop := p = .awaitResponse ∨ p = .awaitOption

/-- Bytes of its request are left for the server, bytes of a response are on their way to it, or
its connection is closed. -/
def NobodyStranded (s : System) : Prop :=
  ∀ fd p, s.net.clients fd = some p → p.Waiting →
    s.net.toServer fd ≠ [] ∨ s.net.responses fd ≠ [] ∨ s.running = false

/-- The option that is read is not the one that asks to leave, and what is read for the response
to a request is no chat text. -/
def Answered (s : System) : Action → Prop
  | .serve fd k loc => (s.net.server.entry fd).2 = .authenticated →
    ¬ Leaves ((s.net.toServer fd).take k) loc
  | .response fd k => ∀ x ∈ (s.net.toClient fd).take k, isResponse x = true
  | _ => True

instance (s : System) : (a : Action) → Decidable (Answered s a)
  | .serve _ _ _ => inferInstanceAs (Decidable (_ → _))
  | .response _ _ => inferInstanceAs (Decidable (∀ x ∈ List.take _ _, _))
  | .connect _ | .request _ _ | .option _ _ | .optionResponse _ _ | .line _ _ | .receive _ _
  | .exit _ | .closed _ _ => isTrue trivial

/-! ### Zeros at the end -/

/-- The bytes end in `n` zeros, or are zeros only, `n` but for three. -/
def EndsIn (n : ℕ) (b : Bytes) : Prop :=
  ∃ pre m, b = pre ++ List.replicate m 0 ∧ (m = n ∨ pre = [] ∧ n ≤ m + 3)

lemma leBytes_success : leBytes success = List.replicate 4 0 := rfl

lemma EndsIn.start (b : Bytes) : EndsIn 4 (b ++ leBytes success) :=
  ⟨b, 4, rfl, .inl rfl⟩

lemma EndsIn.append {n : ℕ} {b : Bytes} (h : EndsIn n b) :
    EndsIn (n + 4) (b ++ leBytes success) := by
  obtain ⟨pre, m, rfl, hm⟩ := h
  refine ⟨pre, m + 4, ?_, ?_⟩
  · rw [leBytes_success, List.append_assoc, List.replicate_append_replicate]
  · rcases hm with rfl | ⟨hpre, hm⟩
    · exact .inl rfl
    · exact .inr ⟨hpre, by omega⟩

lemma EndsIn.length_le {n : ℕ} {b : Bytes} (h : EndsIn n b) : n ≤ b.length + 3 := by
  obtain ⟨pre, m, rfl, rfl | ⟨rfl, hm⟩⟩ := h
  · simp only [List.length_append, List.length_replicate]
    omega
  · simpa using hm

lemma readResponse_zeros {k : ℕ} (hk : k ≤ 4) : readResponse (List.replicate k 0) = success := by
  interval_cases k <;> rfl

/-- A read of up to four bytes that is not a success leaves the zeros, but for three. -/
lemma EndsIn.drop {n k : ℕ} {b : Bytes} (h : EndsIn n b) (hk : k ≤ 4) (hlen : k ≤ b.length)
    (hne : readResponse (b.take k) ≠ success) : EndsIn n (b.drop k) := by
  obtain ⟨pre, m, rfl, hm⟩ := h
  by_cases hpre : k ≤ pre.length
  · rcases hm with rfl | ⟨rfl, hm⟩
    · exact ⟨pre.drop k, m, by rw [List.drop_append_of_le_length hpre], .inl rfl⟩
    · obtain rfl : k = 0 := by simpa using hpre
      exact absurd (readResponse_zeros (k := 0) (by omega)) (by simpa using hne)
  · have hpos : pre ≠ [] := by
      rintro rfl
      apply hne
      have hkm : k ≤ m := by simpa using hlen
      rw [List.nil_append, List.take_replicate, min_eq_left hkm]
      exact readResponse_zeros hk
    have hlt := List.length_pos_of_ne_nil hpos
    rcases hm with rfl | ⟨rfl, -⟩
    · refine ⟨[], m - (k - pre.length), ?_, .inr ⟨rfl, ?_⟩⟩
      · rw [List.drop_append, List.drop_of_length_le (by omega), List.drop_replicate]
      · simp only [List.length_append, List.length_replicate] at hlen
        omega
    · exact absurd rfl hpos

/-! ### What is owed to a client -/

/-- The responses that the server still has to send, or that are on their way, by the state of
the connection and the phase of the client. -/
def Owed (st : State) (unread responses : Bytes) : Phase → Prop
  | .sendRequest =>
    match st with
    | .request => True
    | .authenticated => EndsIn 4 responses
    | .online => EndsIn 8 responses
  | .awaitResponse =>
    match st with
    | .request => unread ≠ [] ∨ responses ≠ []
    | .authenticated => EndsIn 4 responses
    | .online => EndsIn 8 responses
  | .selectChatOpt => st = .online → responses ≠ []
  | .awaitOption => responses ≠ [] ∨ st ≠ .online ∧ unread ≠ []
  | .online | .exited => True

namespace Owed

variable {st : State} {unread unread' responses : Bytes} {p : Phase}

lemma ne_nil_of_endsIn {n : ℕ} (h : EndsIn n responses) (hn : 4 ≤ n) : responses ≠ [] := by
  rintro rfl
  have hlen := h.length_le
  simp only [List.length_nil] at hlen
  omega

lemma pending (h : Owed st unread responses p) (hp : p.Waiting) :
    unread ≠ [] ∨ responses ≠ [] := by
  rcases hp with rfl | rfl
  · cases st with
    | request => exact h
    | authenticated => exact .inr (ne_nil_of_endsIn h (by omega))
    | online => exact .inr (ne_nil_of_endsIn h (by omega))
  · rcases h with h | ⟨-, h⟩
    · exact .inr h
    · exact .inl h

lemma request (h : Owed st unread responses .sendRequest) (hne : unread' ≠ []) :
    Owed st unread' responses .awaitResponse := by
  cases st with
  | request => exact .inl hne
  | authenticated => exact h
  | online => exact h

lemma response {k : ℕ} (h : Owed st unread responses .awaitResponse) (hk : k ≤ 4)
    (hlen : k ≤ responses.length) :
    Owed st unread (responses.drop k) (.afterResponse (responses.take k)) := by
  unfold Phase.afterResponse
  split_ifs with hres
  · rintro rfl hnil
    have hle := EndsIn.length_le (n := 8) h
    have hdrop := List.length_drop (i := k) (l := responses)
    rw [hnil, List.length_nil] at hdrop
    omega
  · cases st with
    | request => trivial
    | authenticated => exact EndsIn.drop (n := 4) h hk hlen hres
    | online => exact EndsIn.drop (n := 8) h hk hlen hres

lemma option (h : Owed st unread responses .selectChatOpt) (choice : UInt8) (hne : unread' ≠ []) :
    Owed st unread' responses (.afterOption choice) := by
  unfold Phase.afterOption
  split_ifs
  · trivial
  · by_cases hst : st = .online
    · exact .inl (h hst)
    · exact .inr ⟨hst, hne⟩

/-- A read of a request is answered, and then it does not matter what is left to read. -/
lemma answered (res : Response) (h : Owed .request unread responses p) :
    Owed (if res = success then .authenticated else .request) unread'
      (responses ++ leBytes res) p := by
  have hne : responses ++ leBytes res ≠ [] := by simp [leBytes]
  cases p with
  | sendRequest =>
    split_ifs with hres
    · exact hres ▸ EndsIn.start responses
    · trivial
  | awaitResponse =>
    split_ifs with hres
    · exact hres ▸ EndsIn.start responses
    · exact .inr hne
  | selectChatOpt => exact fun _ => hne
  | awaitOption => exact .inl hne
  | online => trivial
  | exited => trivial

lemma chose (h : Owed .authenticated unread responses p) :
    Owed .online unread' (responses ++ leBytes success) p := by
  have hne : responses ++ leBytes success ≠ [] := by simp [leBytes]
  cases p with
  | sendRequest => exact EndsIn.append (n := 4) h
  | awaitResponse => exact EndsIn.append (n := 4) h
  | selectChatOpt => exact fun _ => hne
  | awaitOption => exact .inl hne
  | online => trivial
  | exited => trivial

lemma relayed (h : Owed .online unread responses p) : Owed .online unread' responses p := by
  cases p with
  | awaitOption => exact .inl (h.resolve_right fun hno => hno.1 rfl)
  | _ => exact h

end Owed

/-! ### What is sent to a client -/

/-- The bytes of the responses among some calls of `send`. -/
def answersTo (fd : Int32) (l : List Sent) : Bytes :=
  ((bytesFor fd l).filter isResponse).map Prod.snd

section

variable {fd g : Int32} {l : List Sent}

lemma answersTo_cons (e : Sent) :
    answersTo fd (e :: l) = (if e.dest = fd then (e.message.stamped.filter isResponse).map Prod.snd
      else []) ++ answersTo fd l := by
  unfold answersTo bytesFor
  by_cases h : e.dest = fd <;> simp [h]

lemma answersTo_texts {text : Bytes} (h : Texts g text l) : answersTo fd l = [] := by
  induction l with
  | nil => rfl
  | cons e l ih =>
    obtain ⟨-, -, hmsg⟩ := h e (by simp)
    rw [answersTo_cons, ih fun e' he' => h e' (by simp [he']), hmsg]
    split_ifs
    · simp [Message.stamped, isResponse]
    · rfl

/-- What a connection is sent, as far as it is a response: by a request or an option of its own,
and never otherwise. -/
lemma Served.answersTo {sql : Sqlite} {s : Server} {data : Bytes} {loc : Locals}
    {x : Option (Bytes × State)} {t : Table} (h : Served sql s g data loc l x t)
    (hne : fd ≠ g) : answersTo fd l = [] := by
  have hself : ∀ m l, Chat.answersTo fd (⟨g, g, m⟩ :: l) = Chat.answersTo fd l := by
    intro m l
    rw [answersTo_cons, if_neg (Ne.symm hne), List.nil_append]
  cases h with
  | dropped => rfl
  | answered => exact hself _ []
  | exited _ _ ht => exact answersTo_texts ht
  | chose _ _ ht => exact (hself _ _).trans (answersTo_texts ht)
  | left _ _ ht => exact answersTo_texts ht
  | relayed _ _ ht => exact answersTo_texts ht

lemma answersTo_self {m : Message} (hm : ∀ b, isResponse (m, b) = true) :
    answersTo g (⟨g, g, m⟩ :: l) = m.payload ++ answersTo g l := by
  rw [answersTo_cons, if_pos rfl]
  congr 1
  have hall : m.stamped.filter isResponse = m.stamped := by
    rw [List.filter_eq_self]
    intro x hx
    obtain ⟨b, -, rfl⟩ := List.mem_map.mp hx
    exact hm b
  rw [hall]
  simp [Message.stamped, Function.comp_def]

lemma responses_deliver {n : Network} {s' : Server} (h : s'.sent = n.server.sent ++ l) :
    (n.deliver s').responses fd = n.responses fd ++ answersTo fd l := by
  unfold Network.responses Network.deliver answersTo
  simp [h]

end

/-! ### Steps -/

/-- What is owed to the client of a connection; nothing, as long as there is none. -/
def OwedAt (n : Network) (fd : Int32) : Prop :=
  match n.clients fd with
  | none => n.toServer fd = [] ∧ (n.server.entry fd).2 = .request
  | some p => Owed (n.server.entry fd).2 (n.toServer fd) (n.responses fd) p

section

variable {n n' : Network} {a : Action} {fd g : Int32} {s' : Server}
  {b : Bool}

/-- A connection of which a step changes nothing but the texts on the way to its client. -/
lemma OwedAt.bystander (h : OwedAt n fd) (hc : n'.clients fd = n.clients fd)
    (he : n'.server.entry fd = n.server.entry fd) (hs : n'.toServer fd = n.toServer fd)
    (hr : n'.responses fd = n.responses fd) : OwedAt n' fd := by
  unfold OwedAt at *
  rwa [hc, he, hs, hr]

lemma OwedAt.of_client (h : OwedAt n fd) {p : Phase} (hp : n.clients fd = some p) :
    Owed (n.server.entry fd).2 (n.toServer fd) (n.responses fd) p := by
  simpa only [OwedAt, hp] using h

lemma take_responses {k : ℕ} (h : ∀ x ∈ (n.toClient fd).take k, isResponse x = true) :
    (n.responses fd).take k = n.front fd k ∧
      (n.responses fd).drop k = (n.dropClient fd k).responses fd := by
  have hsplit : (n.toClient fd).filter isResponse =
      (n.toClient fd).take k ++ ((n.toClient fd).drop k).filter isResponse := by
    conv_lhs => rw [← List.take_append_drop k (n.toClient fd)]
    rw [List.filter_append, List.filter_eq_self.mpr h]
  have hdropped : (n.dropClient fd k).toClient fd = (n.toClient fd).drop k := by
    simp [Network.dropClient]
  unfold Network.responses Network.front
  rw [hdropped, hsplit, List.map_append]
  by_cases hk : k ≤ (n.toClient fd).length
  · have hlen : (((n.toClient fd).take k).map Prod.snd).length = k := by simp [hk]
    exact ⟨List.take_left' hlen, List.drop_left' hlen⟩
  · -- the read takes all there is
    have hnil : (n.toClient fd).drop k = [] := List.drop_of_length_le (by omega)
    rw [hnil, List.filter_nil, List.map_nil, List.append_nil]
    have hlen : (((n.toClient fd).take k).map Prod.snd).length ≤ k := by simp
    exact ⟨List.take_of_length_le hlen, List.drop_of_length_le hlen⟩

lemma OwedAt.own (h : OwedAt n a.fd) (hen : Enabled n a) (hans : Answered ⟨n, b⟩ a)
    (hev : n.event a = none) : OwedAt (n.move a) a.fd := by
  cases a with
  | connect g => simp [Network.event] at hev
  | serve g k loc => simp [Network.event] at hev
  | closed g loc => simp [Network.event] at hev
  | request g data =>
    obtain ⟨hp, hsize, -⟩ := hen
    have hdata : data ≠ [] := by
      rintro rfl
      simp [requestSize] at hsize
    have howed : Owed (n.server.entry g).2 (n.toServer g ++ data) (n.responses g) .awaitResponse :=
      (h.of_client hp).request (by simp [hdata])
    simpa [OwedAt, Network.move, Network.setClient, Network.sendServer, Network.responses,
      Action.fd] using howed
  | response g k =>
    obtain ⟨hp, -, hk, hlen⟩ := hen
    obtain ⟨htake, hdrop⟩ := take_responses (n := n) hans
    have hlen' : k ≤ (n.responses g).length := by
      have hfront := congrArg List.length htake
      simp only [List.length_take, Network.front, List.length_map] at hfront
      omega
    have hawaits : Owed (n.server.entry g).2 (n.toServer g) (n.responses g) .awaitResponse :=
      h.of_client hp
    have howed := hawaits.response hk hlen'
    rw [htake, hdrop] at howed
    simpa [OwedAt, Network.move, Network.setClient, Network.dropClient, Network.responses,
      Action.fd] using howed
  | option g choice =>
    have howed : Owed (n.server.entry g).2 (n.toServer g ++ [choice]) (n.responses g)
        (.afterOption choice) := (h.of_client hen).option choice (by simp)
    simpa [OwedAt, Network.move, Network.setClient, Network.sendServer, Network.responses,
      Action.fd] using howed
  | optionResponse g k =>
    simp [OwedAt, Network.move, Network.setClient, Action.fd, Owed]
  | line g text => simp [OwedAt, Network.move, Network.sendServer, Action.fd, Owed, hen.1]
  | receive g k => simp [OwedAt, Network.move, Network.dropClient, Action.fd, Owed, hen.1]
  | exit g => simp [OwedAt, Network.move, Network.setClient, Action.fd, Owed]

lemma OwedAt.served {sql : Sqlite} {data : Bytes} {loc : Locals} {l : List Sent}
    {x : Option (Bytes × State)} {t : Table} {unread : Bytes} {p : Phase}
    (hserved : Served sql n.server g data loc l x t) (hd : data ≠ [])
    (hans : (n.server.entry g).2 = .authenticated → ¬ Leaves data loc)
    (h : Owed (n.server.entry g).2 (n.toServer g) (n.responses g) p) :
    Owed (x.getD ([], .request)).2 unread (n.responses g ++ answersTo g l) p := by
  cases hserved with
  | dropped _ hnil => exact absurd hnil hd
  | @answered hst _ res =>
    rw [hst] at h
    rw [answersTo_self fun _ => rfl]
    have hanswered : Owed (if res = success then .authenticated else .request) unread
        (n.responses g ++ leBytes res) p := h.answered res
    simpa [answersTo, bytesFor, Message.payload] using hanswered
  | exited hst hl => exact absurd hl (hans hst)
  | chose hst _ ht =>
    rw [hst] at h
    rw [answersTo_self fun _ => rfl, answersTo_texts ht, List.append_nil]
    exact h.chose
  | left _ hnil => exact absurd hnil hd
  | relayed hst _ ht =>
    rw [hst] at h
    rw [answersTo_texts ht, List.append_nil, Option.getD_some, hst]
    exact h.relayed

lemma OwedAt.deliver {data : Bytes} {loc : Locals} {sql : Sqlite}
    (hev : n.event a = some (.readable g data loc)) (hg : a.fd = g)
    (hrun : handleEvent sql (.readable g data loc) n.server = .ok () s')
    (hown : ∀ l x t, Served sql n.server g data loc l x t → n.server.After g l x t s' →
      OwedAt ((n.move a).deliver s') g)
    (h : OwedAt n fd) : OwedAt ((n.move a).deliver s') fd := by
  obtain ⟨l, x, t, hserved, hafter⟩ := handleSingleSocketCon_served hrun
  by_cases hne : fd = g
  · subst hne
    exact hown l x t hserved hafter
  · obtain ⟨hc, hs, ht, -⟩ := n.move_of_ne (hg ▸ hne)
    have hserver : (n.move a).server = n.server := by cases a <;> rfl
    refine h.bystander hc ?_ hs ?_
    · change s'.entry fd = _
      simp [Server.entry, hafter.conList, hne]
    · rw [responses_deliver (n := n.move a) (hserver ▸ hafter.sent), hserved.answersTo hne,
        List.append_nil, Network.responses, ht]
      rfl

lemma OwedAt.connect {g : Int32} (hnew : n.clients g = none) (h : ∀ fd, OwedAt n fd)
    (fd : Int32) :
    OwedAt ((n.move (.connect g)).deliver (n.server.add (accept g))) fd := by
  have hsent : ((n.move (.connect g)).deliver (n.server.add (accept g))).responses fd =
      n.responses fd := by
    rw [responses_deliver (n := n.move (.connect g)) (l := []) (by
      simp [Server.add, Server.touch, Server.setEntry, Network.move, Network.setClient])]
    exact List.append_nil _
  by_cases hne : fd = g
  · subst hne
    have hnone := h fd
    simp only [OwedAt, hnew] at hnone
    have hentry := entry_add n.server fd (accept fd)
    simp only [OwedAt, Network.deliver, Network.move, Network.setClient,
      Function.update_self, hentry, hnone.2, Owed]
  · exact (h fd).bystander (by simp [Network.deliver, Network.move, Network.setClient, hne])
      (entry_add n.server fd (accept g)) rfl hsent

lemma OwedAt.serve {sql : Sqlite} {g : Int32} {k : ℕ} {loc : Locals} {s' : Server}
    {l : List Sent} {x : Option (Bytes × State)} {t : Table}
    (hunread : n.toServer g ≠ []) (hd : (n.toServer g).take k ≠ [])
    (hans : Answered ⟨n, b⟩ (.serve g k loc)) (h : OwedAt n g)
    (hserved : Served sql n.server g ((n.toServer g).take k) loc l x t)
    (hafter : n.server.After g l x t s') :
    OwedAt ((n.move (.serve g k loc)).deliver s') g := by
  cases hp : n.clients g with
  | none =>
    simp only [OwedAt, hp] at h
    exact absurd h.1 hunread
  | some p =>
    have howed : Owed (x.getD ([], .request)).2 ((n.toServer g).drop k)
        (n.responses g ++ answersTo g l) p := OwedAt.served hserved hd hans (h.of_client hp)
    have hclient : ((n.move (.serve g k loc)).deliver s').clients g = some p := hp
    have hentry : s'.entry g = x.getD ([], .request) := by
      simp [Server.entry, hafter.conList]
    have hresponses : (n.move (.serve g k loc)).responses g = n.responses g := rfl
    simp only [OwedAt, hclient]
    rw [responses_deliver (n := n.move (.serve g k loc)) hafter.sent, hresponses]
    simpa [Network.deliver, Network.move, Network.dropServer, hentry] using howed

/-- **One step of the system**, of a client or of the server, keeps what is owed. -/
lemma OwedAt.step {sql : Sqlite} (hstep : NetStep sql a n n') (hans : Answered ⟨n, b⟩ a)
    (h : ∀ fd, OwedAt n fd) (fd : Int32) : OwedAt n' fd := by
  obtain ⟨hen, hmatch⟩ := hstep
  cases hev : n.event a with
  | none =>
    simp only [hev] at hmatch
    subst hmatch
    by_cases hne : fd = a.fd
    · exact hne ▸ (h a.fd).own hen hans hev
    · obtain ⟨hc, hs, ht, -⟩ := n.move_of_ne hne
      have hserver : (n.move a).server = n.server := by cases a <;> rfl
      exact (h fd).bystander hc (by rw [hserver]) hs (by rw [Network.responses, ht]; rfl)
  | some e =>
    simp only [hev] at hmatch
    obtain ⟨s', ⟨-, hrun⟩, rfl⟩ := hmatch
    cases a with
    | connect g =>
      obtain rfl : .incoming g = e := by simpa [Network.event] using hev
      obtain rfl : n.server.add (accept g) = s' := by simpa [handleEvent, accept_ne] using hrun
      exact OwedAt.connect hen.1 h fd
    | serve g k loc =>
      obtain rfl : .readable g ((n.toServer g).take k) loc = e := by
        simpa [Network.event] using hev
      obtain ⟨hpos, -, hlen⟩ := hen
      have hunread : n.toServer g ≠ [] := List.ne_nil_of_length_pos (by omega)
      have hd : (n.toServer g).take k ≠ [] := by simp [hunread]; omega
      exact OwedAt.deliver hev rfl hrun
        (fun l x t hserved hafter => (h g).serve hunread hd hans hserved hafter) (h fd)
    | closed g loc =>
      obtain rfl : .readable g [] loc = e := by simpa [Network.event] using hev
      refine OwedAt.deliver hev rfl hrun (fun l x t hserved hafter => ?_) (h fd)
      have hclient : ((n.move (.closed g loc)).deliver s').clients g = some .exited := hen
      simp [OwedAt, hclient, Owed]
    | _ => simp [Network.event] at hev

end

/-! ### Runs -/

/-- **No stranded request.** In every run from a server without connections, whatever SQLite
does, in which no option is read as the one to leave and no client reads chat text for the
response to its request: a client that waits for a response has bytes of its request left to
be read, or bytes of a response on their way, or its connection is closed. -/
theorem no_stranded_request {s₀ s : System} {as : List Action} (h0 : Unconnected s₀)
    (hrun : Trace (fun a s t => SystemStep a s t ∧ Answered s a) s₀ as s) : NobodyStranded s := by
  have hinv : s.running = true → ∀ fd, OwedAt s.net fd := by
    refine hrun.reaches.invariant (I := fun s => s.running = true → ∀ fd, OwedAt s.net fd) ?_ ?_
    · intro _ fd
      simp [OwedAt, h0.clients, h0.toServer, Server.entry, h0.conList]
    · rintro u v hu ⟨a, hstep, hans⟩ hv
      cases hstep with
      | net h => exact OwedAt.step h hans (hu rfl)
      | throws => cases hv
      | alone => cases hv
  intro fd p hp hwait
  by_cases hrunning : s.running = true
  · rcases ((hinv hrunning fd).of_client hp).pending hwait with h | h
    · exact .inl h
    · exact .inr (.inl h)
  · exact .inr (.inr (by simpa using hrunning))

/-! ### One client -/

def emptySystem : System := ⟨emptyNetwork, true⟩

lemma emptySystem_unconnected : Unconnected emptySystem := ⟨rfl, rfl, rfl, rfl⟩

lemma Agenda.systemTrace {P : Network → Action → Prop} {as : List Action}
    (h : Agenda P emptyNetwork as) :
    Trace (fun a s t => SystemStep a s t ∧ P s.net a) emptySystem as
      ⟨as.foldl Network.play emptyNetwork, true⟩ := by
  have hrun := h.trace Sqlite.reference_works emptyServer_fresh.consistent.toKeys
  have hsim : ∀ (a : Action) (n n' : Network) (s : System), s = ⟨n, true⟩ →
      (NetStep .reference a n n' ∧ Ready n a ∧ P n a) →
      ∃ s', Trace (fun a s t => SystemStep a s t ∧ P s.net a) s (some a).toList s' ∧
        s' = ⟨n', true⟩ := by
    rintro a n n' s rfl hstep
    exact ⟨⟨n', true⟩, .snoc .nil ⟨.net hstep.1, hstep.2.2⟩, rfl⟩
  obtain ⟨t, ht, rfl⟩ := hrun.simulate hsim rfl
  simpa [emptySystem] using ht

/-- A client that chooses to leave waits for a response; the server has forgotten it, and has
not closed its connection. -/
theorem exit_stranded : ¬ ∀ (s₀ s : System) (as : List Action), Unconnected s₀ →
    Trace SystemStep s₀ as s → NobodyStranded s := by
  intro h
  let as := register 5 (bytes "al") ++ [.option 5 3, .serve 5 1 unread]
  have has : Agenda (fun _ _ => True) emptyNetwork as := by decide +kernel
  have hrun := has.systemTrace.mono fun _ _ _ hstep => hstep.1
  have hwaits : (as.foldl Network.play emptyNetwork).clients 5 = some .awaitOption := by
    decide +kernel
  have hnothing : (as.foldl Network.play emptyNetwork).toServer 5 = [] ∧
      (as.foldl Network.play emptyNetwork).responses 5 = [] := by decide +kernel
  rcases h _ _ _ emptySystem_unconnected hrun 5 _ hwaits (.inr rfl) with hs | hr | hd
  · exact hs hnothing.1
  · exact hr hnothing.2
  · cases hd

/-- A client that chooses to chat is answered. -/
theorem no_stranded_request_chat : ∃ s : System, s.net.clients 5 = some .awaitOption ∧
    s.net.responses 5 = leBytes success ∧ NobodyStranded s := by
  let as := register 5 (bytes "al") ++ [.option 5 1, .serve 5 1 unread]
  have has : Agenda (fun n a => Answered ⟨n, true⟩ a) emptyNetwork as := by decide +kernel
  have hrun : Trace (fun a s t => SystemStep a s t ∧ Answered s a) emptySystem as
      ⟨as.foldl Network.play emptyNetwork, true⟩ :=
    has.systemTrace.mono fun a s t ⟨hstep, hans⟩ => ⟨hstep, by
      cases a <;> exact hans⟩
  exact ⟨_, by decide +kernel, by decide +kernel, no_stranded_request emptySystem_unconnected hrun⟩

end SelfTraining.Chat
