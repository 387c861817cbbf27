import SelfTraining.Chat.Delivery

/-!
Where a client and the server stand with each other, and what has become of the lines that the
client has typed.

Texts may be on the way to a client at any time, so that only responses tell where it stands.
-/

namespace SelfTraining.Chat

open SelfTraining.Text SelfTraining.Steps SelfTraining.Board

/-- The responses on the way to a client, byte by byte. -/
def Network.answers (n : Network) (fd : Int32) : List Stamped :=
  (n.toClient fd).filter isResponse

/-- The state of the server for a connection, the bytes it has not read and the responses that
the client has not read. -/
structure Standing (n : Network) (fd : Int32) (st : State) (unread : Bytes)
    (answers : List Stamped) : Prop where
  state : (n.server.entry fd).2 = st
  toServer : n.toServer fd = unread
  answers : n.answers fd = answers

/-- Where the two sides stand, by the phase of the client: what the client has typed is on the
board, but for the lines `ahead` that the server has not read. -/
def Sides (n : Network) (fd : Int32) (typed posted : List Bytes) : Prop :=
  match n.clients fd with
  | none | some .sendRequest => typed = [] ∧ posted = [] ∧ Standing n fd .request [] []
  | some .awaitResponse =>
    typed = [] ∧ posted = [] ∧
      ((∃ data, data.length = requestSize ∧ Standing n fd .request data []) ∨
      ∃ res, Standing n fd (if res = success then .authenticated else .request) []
        (Message.requestResponse res).stamped)
  | some .selectChatOpt => typed = [] ∧ posted = [] ∧ Standing n fd .authenticated [] []
  | some .awaitOption =>
    typed = [] ∧
      ((∃ choice, posted = [] ∧ Standing n fd .authenticated [choice] []) ∨
      (posted = [isOnline (n.server.entry fd).1] ∧
        Standing n fd .online [] (Message.optionResponse success).stamped) ∨
      Standing n fd .request [] [])
  | some .online =>
    ∃ said ahead, typed = said ++ ahead ∧ (∀ l ∈ ahead, Line l) ∧
      posted = isOnline (n.server.entry fd).1 ::
        said.map (chatLine (n.server.entry fd).1) ∧
      Standing n fd .online (ahead.flatMap sendLine) []
  | some .exited => True

section

variable {n n' : Network} {s s' : Server} {fd g : Int32} {l : List Sent} {m : Message}
  {a : Action} {typed posted : List Bytes} {k : ℕ} {data : Bytes} {loc : Locals}

/-! ### Responses on the way -/

lemma filter_stamped (m : Message) :
    m.stamped.filter isResponse = if m.text?.isNone then m.stamped else [] := by
  have hall : ∀ x ∈ m.stamped, isResponse x = m.text?.isNone := by
    intro x hx
    obtain ⟨b, -, rfl⟩ := List.mem_map.mp hx
    exact isResponse_eq _
  split_ifs with h
  · exact List.filter_eq_self.mpr fun x hx => (hall x hx).trans h
  · exact List.filter_eq_nil_iff.mpr fun x hx => by simpa [hall x hx] using h

lemma answers_messagesTo (fd : Int32) (l : List Sent) :
    (bytesFor fd l).filter isResponse =
      ((messagesTo fd l).filter fun m => m.text?.isNone).flatMap Message.stamped := by
  rw [bytesFor_eq]
  induction messagesTo fd l with
  | nil => rfl
  | cons m ms ih =>
    rw [List.flatMap_cons, List.filter_append, ih, filter_stamped]
    cases h : m.text?.isNone <;> simp [h]

lemma answers_notices (s : Server) (fd g : Int32) (msg : Bytes) :
    (bytesFor fd (s.notices g msg)).filter isResponse = [] := by
  have hnone : (messagesTo fd (s.notices g msg)).filter (fun m => m.text?.isNone) = [] := by
    refine List.filter_eq_nil_iff.mpr fun m hm => ?_
    obtain ⟨e, he, rfl⟩ := List.mem_map.mp hm
    obtain ⟨row, -, rfl⟩ := List.mem_map.mp (List.mem_filter.mp he).1
    simp [Message.text?]
  rw [answers_messagesTo, hnone]
  rfl

lemma answers_cons (fd g : Int32) {m : Message} (hm : m.text? = none) (l : List Sent) :
    (bytesFor fd (⟨g, g, m⟩ :: l)).filter isResponse =
      (if g = fd then m.stamped else []) ++ (bytesFor fd l).filter isResponse := by
  have hcons : messagesTo fd (⟨g, g, m⟩ :: l) =
      (if g = fd then [m] else []) ++ messagesTo fd l := by
    unfold messagesTo
    split_ifs with h <;> simp [h]
  rw [answers_messagesTo, answers_messagesTo, hcons, List.filter_append, List.flatMap_append]
  split_ifs <;> simp [hm]

lemma answers_drop {s₁ : Server} (h : s₁.sent = s.sent ++ l) :
    (bytesFor fd (s₁.sent.drop s.sent.length)).filter isResponse =
      (bytesFor fd l).filter isResponse := by
  rw [h, List.drop_left]

lemma Turn.no_answers (h : Turn s g data loc s') (hne : fd ≠ g) :
    (bytesFor fd (s'.sent.drop s.sent.length)).filter isResponse = [] := by
  have hself : ∀ {m : Message} {l}, m.text? = none →
      (bytesFor fd (⟨g, g, m⟩ :: l)).filter isResponse = (bytesFor fd l).filter isResponse := by
    intro m l hm
    rw [answers_cons _ _ hm, if_neg (Ne.symm hne), List.nil_append]
  cases h with
  | dropped => simp [Server.del, bytesFor]
  | answered => exact (answers_drop rfl).trans (hself rfl)
  | exited => exact (answers_drop rfl).trans (answers_notices _ _ _ _)
  | chose => exact (answers_drop rfl).trans ((hself rfl).trans (answers_notices _ _ _ _))
  | left => exact (answers_drop rfl).trans (answers_notices _ _ _ _)
  | relayed => exact (answers_drop rfl).trans (answers_notices _ _ _ _)

lemma answers_deliver (n : Network) (s' : Server) (fd : Int32) :
    (n.deliver s').answers fd = n.answers fd ++
      (bytesFor fd (s'.sent.drop n.server.sent.length)).filter isResponse :=
  List.filter_append _ _

lemma answers_read {response : Bool} (h : OneMessage response ((n.toClient fd).take k)) :
    ∃ m : Message, (n.toClient fd).take k = m.stamped ∧ m.stamped ≠ [] ∧
      m.text?.isNone = response ∧ n.answers fd = (if response then m.stamped else []) ++
        ((n.toClient fd).drop k).filter isResponse := by
  obtain ⟨x, hx, hresponse, htake⟩ := h
  refine ⟨x.1, htake, ?_, by rw [← isResponse_eq, hresponse], ?_⟩
  · intro hnil
    rw [htake, hnil] at hx
    simp at hx
  · unfold Network.answers
    conv_lhs => rw [← List.take_append_drop k (n.toClient fd), htake]
    rw [List.filter_append, filter_stamped, ← isResponse_eq, hresponse]

lemma answer_read {response : Message} (h : OneMessage true ((n.toClient fd).take k))
    (hanswers : n.answers fd = response.stamped) :
    (n.toClient fd).take k = response.stamped ∧
      ((n.toClient fd).drop k).filter isResponse = [] := by
  obtain ⟨m, htake, hm, -, hsplit⟩ := answers_read h
  rw [if_pos rfl, hanswers] at hsplit
  obtain ⟨x, t, hx⟩ := List.exists_cons_of_ne_nil hm
  have hm' : x.1 = m := fst_of_mem_stamped (by simp [hx])
  have hresponse : x.1 = response := fst_of_mem_stamped (by simp [hsplit, hx])
  obtain rfl : m = response := hm'.symm.trans hresponse
  exact ⟨htake, by simpa using hsplit⟩

/-! ### Steps -/

lemma Sides.bystander (h : Sides n fd typed posted) (hc : n'.clients fd = n.clients fd)
    (he : n'.server.entry fd = n.server.entry fd) (hs : n'.toServer fd = n.toServer fd)
    (ha : n'.answers fd = n.answers fd) : Sides n' fd typed posted := by
  have hkeep : ∀ {st unread answers}, Standing n fd st unread answers →
      Standing n' fd st unread answers := by
    intro st unread answers h
    exact ⟨he ▸ h.state, hs ▸ h.toServer, ha ▸ h.answers⟩
  unfold Sides at h ⊢
  rw [hc, he]
  rcases hp : n.clients fd with _ | _ | _ | _ | _ | _ | _
  all_goals simp only [hp] at h
  · exact ⟨h.1, h.2.1, hkeep h.2.2⟩
  · exact ⟨h.1, h.2.1, hkeep h.2.2⟩
  · obtain ⟨ht, hposted, ⟨data, hsize, hst⟩ | ⟨res, hst⟩⟩ := h
    · exact ⟨ht, hposted, .inl ⟨data, hsize, hkeep hst⟩⟩
    · exact ⟨ht, hposted, .inr ⟨res, hkeep hst⟩⟩
  · exact ⟨h.1, h.2.1, hkeep h.2.2⟩
  · obtain ⟨ht, ⟨choice, hposted, hst⟩ | ⟨hposted, hst⟩ | hst⟩ := h
    · exact ⟨ht, .inl ⟨choice, hposted, hkeep hst⟩⟩
    · exact ⟨ht, .inr (.inl ⟨hposted, hkeep hst⟩)⟩
    · exact ⟨ht, .inr (.inr (hkeep hst))⟩
  · obtain ⟨said, ahead, ht, hlines, hposted, hst⟩ := h
    exact ⟨said, ahead, ht, hlines, hposted, hkeep hst⟩
  · trivial

lemma Sides.response (h : Sides n g typed posted) (hen : Enabled n (.response g k))
    (hone : OneMessage true ((n.toClient g).take k)) :
    Sides (n.move (.response g k)) g typed posted := by
  simp only [Sides, hen.1] at h
  obtain ⟨ht, hposted, ⟨data, -, hst⟩ | ⟨res, hst⟩⟩ := h
  · -- no response is on the way
    obtain ⟨m, -, hm, -, hsplit⟩ := answers_read hone
    rw [hst.answers] at hsplit
    exact absurd (List.append_eq_nil_iff.mp hsplit.symm).1 hm
  · obtain ⟨htake, hrest⟩ := answer_read hone hst.answers
    have hfront : n.front g k = leBytes res := by
      rw [Network.front, htake, map_snd_stamped]
      rfl
    have hphase : (n.move (.response g k)).clients g =
        some (if res = success then .selectChatOpt else .sendRequest) := by
      simp [Network.move, Network.setClient, hfront, Phase.afterResponse, readResponse_leBytes]
    have hstanding : Standing (n.move (.response g k)) g
        (if res = success then .authenticated else .request) [] [] := by
      refine ⟨hst.state, hst.toServer, ?_⟩
      simpa [Network.answers, Network.move, Network.setClient, Network.dropClient] using hrest
    unfold Sides
    rw [hphase]
    split_ifs at hstanding ⊢ with hres
    · exact ⟨ht, hposted, hstanding⟩
    · exact ⟨ht, hposted, hstanding⟩

lemma Sides.optionResponse (h : Sides n g typed posted) (hen : Enabled n (.optionResponse g k))
    (hone : OneMessage true ((n.toClient g).take k)) :
    Sides (n.move (.optionResponse g k)) g typed posted := by
  have hnone : n.answers g ≠ [] := by
    obtain ⟨m, -, hm, -, hsplit⟩ := answers_read hone
    simp [hsplit, hm]
  simp only [Sides, hen.1] at h
  obtain ⟨rfl, ⟨choice, -, hst⟩ | ⟨hposted, hst⟩ | hst⟩ := h
  · exact absurd hst.answers hnone
  · obtain ⟨-, hrest⟩ := answer_read hone hst.answers
    simp only [Sides, Network.move, Network.setClient, Function.update_self]
    refine ⟨[], [], rfl, by simp, hposted, hst.state, hst.toServer, ?_⟩
    simpa [Network.answers, Network.dropClient] using hrest
  · exact absurd hst.answers hnone

lemma Sides.receive (h : Sides n g typed posted)
    (hone : OneMessage false ((n.toClient g).take k)) :
    Sides (n.move (.receive g k)) g typed posted := by
  obtain ⟨m, -, -, -, hsplit⟩ := answers_read hone
  refine h.bystander rfl rfl rfl ?_
  rw [hsplit]
  simp [Network.answers, Network.move, Network.dropClient]

lemma Sides.own {d : Deed} (h : Sides n d.action.fd typed posted) (hen : Enabled n d.action)
    (hreads : ReadsOne n d.action) (hev : n.event d.action = none) :
    Sides (n.move d.action) d.action.fd (typed ++ (d.typed d.action.fd).toList) posted := by
  rcases d with ⟨m, a⟩
  cases a with
  | connect g => simp [Network.event] at hev
  | serve g k loc => simp [Network.event] at hev
  | closed g loc => simp [Network.event] at hev
  | request g data =>
    obtain ⟨hp, hsize, -⟩ := hen
    simp only [Sides, Action.fd, hp] at h
    obtain ⟨rfl, hposted, hst⟩ := h
    simp only [Sides, Network.move, Network.setClient, Action.fd, Function.update_self]
    refine ⟨by simp [Deed.typed], hposted, .inl ⟨data, hsize, hst.state, ?_, hst.answers⟩⟩
    simp [Network.sendServer, hst.toServer]
  | response g k =>
    have hkept : Sides (n.move (.response g k)) g typed posted := h.response hen hreads
    simpa [Deed.typed, Action.fd] using hkept
  | option g choice =>
    have hp : n.clients g = some .selectChatOpt := hen
    simp only [Sides, Action.fd, hp] at h
    obtain ⟨rfl, hposted, hst⟩ := h
    simp only [Sides, Network.move, Network.setClient, Action.fd, Function.update_self,
      Phase.afterOption]
    split_ifs
    · trivial
    · refine ⟨by simp [Deed.typed], .inl ⟨choice, hposted, hst.state, ?_, hst.answers⟩⟩
      simp [Network.sendServer, hst.toServer]
  | optionResponse g k =>
    have hkept : Sides (n.move (.optionResponse g k)) g typed posted := h.optionResponse hen hreads
    simpa [Deed.typed, Action.fd] using hkept
  | line g text =>
    obtain ⟨hp, hline⟩ := hen
    simp only [Sides, Action.fd, hp] at h
    obtain ⟨said, ahead, rfl, hlines, hposted, hst⟩ := h
    simp only [Sides, Network.move, Action.fd, Network.sendServer, hp]
    refine ⟨said, ahead ++ [text], by simp [Deed.typed], ?_, hposted, hst.state, ?_, hst.answers⟩
    · intro l hl
      rcases List.mem_append.mp hl with hl | hl
      · exact hlines l hl
      · rwa [List.mem_singleton.mp hl]
    · simp [hst.toServer]
  | receive g k =>
    have hkept : Sides (n.move (.receive g k)) g typed posted := h.receive hreads
    simpa [Deed.typed, Action.fd] using hkept
  | exit g => simp [Sides, Network.move, Network.setClient, Action.fd]

/-! ### Steps of the server -/

lemma textsBy_post (s : Server) (fd g : Int32) (data : Bytes) (loc : Locals) :
    textsBy fd (post s (.readable g data loc)).toList =
      if g = fd then ((broadcast s (.readable g data loc)).map Broadcast.text).toList else [] := by
  simp only [post, textsBy]
  cases broadcast s (.readable g data loc) with
  | none => simp
  | some b => by_cases h : g = fd <;> simp [h]

lemma broadcast_eq (s : Server) (g : Int32) (data : Bytes) (loc : Locals) :
    broadcast s (.readable g data loc) =
      match (s.entry g).2 with
      | .request => none
      | .authenticated => some (.notice (s.entry g).1 (¬ Leaves data loc))
      | .online =>
        if data = [] then some (.notice (s.entry g).1 false)
        else some (.line (s.entry g).1 (textOf data loc)) := by
  rcases h : s.entry g with ⟨name, _ | _ | _⟩ <;> simp [broadcast, h]

lemma state_serve (n : Network) (g : Int32) (k : ℕ) (loc : Locals) (s' : Server) :
    ((n.move (.serve g k loc)).deliver s').clients g = n.clients g ∧
    ((n.move (.serve g k loc)).deliver s').toServer g = (n.toServer g).drop k ∧
    ((n.move (.serve g k loc)).deliver s').answers g = n.answers g ++
      (bytesFor g (s'.sent.drop n.server.sent.length)).filter isResponse := by
  refine ⟨rfl, ?_, answers_deliver _ _ _⟩
  simp [Network.deliver, Network.move, Network.dropServer]

lemma Standing.answered (h : Standing n g .request data []) (hsize : data.length = requestSize)
    {s' : Server} (ht : Turn n.server g ((n.toServer g).take requestSize) loc s') :
    ∃ res, Standing ((n.move (.serve g requestSize loc)).deliver s') g
      (if res = success then .authenticated else .request) []
        (Message.requestResponse res).stamped := by
  obtain ⟨-, hserver, hanswers⟩ := state_serve n g requestSize loc s'
  have hdata : (n.toServer g).take requestSize = data := by
    rw [h.toServer, List.take_of_length_le hsize.le]
  rw [hdata] at ht
  have hst := h.state
  cases ht with
  | dropped _ hd =>
    rw [hd] at hsize
    simp [requestSize] at hsize
  | answered =>
    refine ⟨(verdict n.server.usrs (requestOf data loc) g loc.res).1, ?_, ?_, ?_⟩
    · rw [← hst]
      exact congrArg Prod.snd (entry_setEntry _ _ _)
    · rw [hserver, h.toServer, List.drop_of_length_le hsize.le]
    · rw [hanswers, h.answers, List.nil_append]
      refine (answers_drop rfl).trans ?_
      rw [answers_cons _ _ rfl, if_pos rfl]
      simp [bytesFor]
  | exited h => simp [hst] at h
  | chose h => simp [hst] at h
  | left h => simp [hst] at h
  | relayed h => simp [hst] at h

lemma Standing.chose {choice : UInt8} (h : Standing n g .authenticated [choice] [])
    {s' : Server} (hk : 1 ≤ k) (ht : Turn n.server g ((n.toServer g).take k) loc s') :
    (broadcast n.server (.readable g ((n.toServer g).take k) loc) =
        some (.notice (s'.entry g).1 true) ∧
      Standing ((n.move (.serve g k loc)).deliver s') g .online []
        (Message.optionResponse success).stamped) ∨
    Standing ((n.move (.serve g k loc)).deliver s') g .request [] [] := by
  obtain ⟨-, hserver, hanswers⟩ := state_serve n g k loc s'
  have hrest : (n.toServer g).drop k = [] := by
    rw [h.toServer]
    exact List.drop_of_length_le (by simpa using hk)
  rw [hrest] at hserver
  rw [h.answers, List.nil_append] at hanswers
  have hst := h.state
  generalize (n.toServer g).take k = data at ht
  cases ht with
  | dropped h => simp [hst] at h
  | answered h => simp [hst] at h
  | exited =>
    refine .inr ⟨congrArg Prod.snd (entry_del _ _), hserver, hanswers.trans ?_⟩
    exact (answers_drop rfl).trans (answers_notices _ _ _ _)
  | chose _ hl =>
    refine .inl ⟨?_, congrArg Prod.snd (entry_setEntry _ _ _), hserver, hanswers.trans ?_⟩
    · simp [broadcast_eq, hst, hl]
    · refine (answers_drop rfl).trans ?_
      rw [answers_cons _ _ rfl, if_pos rfl, answers_notices, List.append_nil]
  | left h => simp [hst] at h
  | relayed h => simp [hst] at h

lemma Standing.relayed {ahead : List Bytes} (h : Standing n g .online (ahead.flatMap sendLine) [])
    (hlines : ∀ l ∈ ahead, Line l) (hen : Enabled n (.serve g k loc))
    (hreads : ReadsOne n (.serve g k loc)) {s' : Server}
    (ht : Turn n.server g ((n.toServer g).take k) loc s') :
    ∃ line rest, ahead = line :: rest ∧
      broadcast n.server (.readable g ((n.toServer g).take k) loc) =
        some (.line (n.server.entry g).1 line) ∧
      s'.entry g = n.server.entry g ∧
      Standing ((n.move (.serve g k loc)).deliver s') g .online (rest.flatMap sendLine) [] := by
  obtain ⟨-, hserver, hanswers⟩ := state_serve n g k loc s'
  obtain ⟨hpos, hmax, hlen⟩ := hen
  have hst := h.state
  -- the read is the first line
  have hline := hreads.2 hst
  set data := (n.toServer g).take k
  have hstream : (n.toServer g) = Framing.stream 0 ahead := h.toServer
  have htake : (Framing.stream 0 ahead).take k = cstr data ++ [0] := by
    rw [← hstream]
    exact hline
  obtain ⟨rest, hahead, hrest⟩ :=
    Framing.stream_take (fun l hl => (hlines l hl).1) (Framing.notMem_upTo data) htake
  rw [← hstream] at hrest
  have hne : data ≠ [] := by
    rw [hline]
    simp [sendLine]
  have htext : textOf data loc = cstr data := by
    refine textOf_eq ?_ (.inr ?_) loc
    · rw [hst] at hmax
      exact (List.length_take_le _ _).trans hmax
    · rw [hline]
      simp [sendLine]
  refine ⟨cstr data, rest, hahead, ?_, ?_⟩
  · simp [broadcast_eq, hst, hne, htext]
  · cases ht with
    | dropped h => simp [hst] at h
    | answered h => simp [hst] at h
    | exited h => simp [hst] at h
    | chose h => simp [hst] at h
    | left _ hnil => exact absurd hnil hne
    | relayed =>
      refine ⟨rfl, hst, hserver.trans hrest, ?_⟩
      rw [hanswers, h.answers, List.nil_append]
      exact (answers_drop rfl).trans (answers_notices _ _ _ _)

lemma Sides.serve (h : Sides n g typed posted) (hen : Enabled n (.serve g k loc))
    (hreads : ReadsOne n (.serve g k loc)) :
    Sides ((n.move (.serve g k loc)).deliver
      (n.server.next (.readable g ((n.toServer g).take k) loc))) g typed
      (posted ++ textsBy g (post n.server (.readable g ((n.toServer g).take k) loc)).toList) := by
  obtain ⟨hpos, hmax, hlen⟩ := hen
  have hnonempty : n.toServer g ≠ [] := List.ne_nil_of_length_pos (by omega)
  have ht := next_turn n.server g ((n.toServer g).take k) loc
  rw [textsBy_post, if_pos rfl]
  generalize n.server.next (.readable g ((n.toServer g).take k) loc) = s' at ht
  have hclient := (state_serve n g k loc s').1
  unfold Sides at h ⊢
  rw [hclient]
  rcases hp : n.clients g with _ | _ | _ | _ | _ | _ | _
  all_goals simp only [hp] at h ⊢
  · exact absurd h.2.2.toServer hnonempty
  · exact absurd h.2.2.toServer hnonempty
  · obtain ⟨htyped, rfl, ⟨data, hsize, hst⟩ | ⟨res, hst⟩⟩ := h
    · obtain rfl : k = requestSize := hreads.1 hst.state
      have hnone : broadcast n.server (.readable g ((n.toServer g).take requestSize) loc) =
          none := by
        rw [broadcast_eq, hst.state]
      exact ⟨htyped, by simp [hnone], .inr (hst.answered hsize ht)⟩
    · exact absurd hst.toServer hnonempty
  · exact absurd h.2.2.toServer hnonempty
  · obtain ⟨htyped, ⟨choice, rfl, hst⟩ | ⟨-, hst⟩ | hst⟩ := h
    · rcases hst.chose hpos ht with ⟨hbroadcast, hst'⟩ | hst'
      · exact ⟨htyped, .inr (.inl ⟨by simp [hbroadcast, Broadcast.text]; rfl, hst'⟩)⟩
      · exact ⟨htyped, .inr (.inr hst')⟩
    · exact absurd hst.toServer hnonempty
    · exact absurd hst.toServer hnonempty
  · obtain ⟨said, ahead, htyped, hlines, hposted, hst⟩ := h
    obtain ⟨line, rest, rfl, hbroadcast, hentry, hst'⟩ :=
      hst.relayed hlines ⟨hpos, hmax, hlen⟩ hreads ht
    refine ⟨said ++ [line], rest, by simp [htyped], fun l hl => hlines l (by simp [hl]), ?_, hst'⟩
    have hname : (((n.move (.serve g k loc)).deliver s').server.entry g).1 =
        (n.server.entry g).1 := congrArg Prod.fst hentry
    simp [hname, hposted, hbroadcast, Broadcast.text]

end

end SelfTraining.Chat
