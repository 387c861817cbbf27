import SelfTraining.Chat.Recipients

/-!
What the clients take for the response to their option choice.

A client reads its response as the next thing on its channel. It is the response to the choice
when nothing else was on the way when the client chose, and no text is sent to it before; a
response to a request that was left over, or an answer to a part of a request, is taken for it.
-/

namespace SelfTraining.Chat

open SelfTraining.Text SelfTraining.Steps

/-! ### Choices -/

/-- The response to the option choice is what the client of the connection will be sent next:
nothing is on the way to it before, and the server waits for the choice; or the server has
taken other bytes for the choice already, and its response is on the way. -/
def Expecting (n : Network) (fd : Int32) : Prop :=
  ((n.server.entry fd).2 = .authenticated ∧ n.toClient fd = []) ∨
    (Message.optionResponse success).stamped <+: n.toClient fd

instance (n : Network) (fd : Int32) : Decidable (Expecting n fd) :=
  inferInstanceAs (Decidable (_ ∨ _))

/-- A client that goes on to read chooses when it can expect the response. -/
def Timely (n : Network) : Action → Prop
  | .option fd choice => Phase.afterOption choice = .awaitOption → Expecting n fd
  | _ => True

instance (n : Network) : (a : Action) → Decidable (Timely n a)
  | .option _ _ => inferInstanceAs (Decidable (_ → _))
  | .connect _ | .request _ _ | .response _ _ | .optionResponse _ _ | .line _ _ | .receive _ _
  | .exit _ | .serve _ _ _ | .closed _ _ => isTrue trivial

/-- A step that broadcasts nothing to a connection between its login and its option, and in
which no client chooses its option out of turn. -/
structure Calm (sql : Sqlite) (a : Action) (n n' : Network) : Prop extends Orderly sql a n n' where
  alone : ∀ e ∈ n.event a, Alone n.server e
  timely : Timely n a

/-- What the clients took for the response to their option choice is one. -/
def RepliesTaken (n : Network) : Prop :=
  ∀ fd, ∀ x ∈ n.taken fd, ∃ res, x.1 = .optionResponse res

/-! ### What a step puts on the way -/

lemma mem_bytesFor {fd : Int32} {l : List Sent} {x : Stamped} :
    x ∈ bytesFor fd l ↔ ∃ e ∈ l, e.dest = fd ∧ x ∈ e.message.stamped := by
  simp [bytesFor, and_assoc]

lemma drop_record (s : Server) (l : List Sent) : (s.record l).sent.drop s.sent.length = l :=
  List.drop_left

lemma bytesFor_eq_nil {fd : Int32} {l : List Sent} (h : ∀ e ∈ l, e.dest ≠ fd) :
    bytesFor fd l = [] := by
  refine List.eq_nil_iff_forall_not_mem.mpr fun x hx => ?_
  obtain ⟨e, he, hdest, -⟩ := mem_bytesFor.mp hx
  exact h e he hdest

lemma bytesFor_self (fd : Int32) (m : Message) (l : List Sent) (h : ∀ e ∈ l, e.dest ≠ fd) :
    bytesFor fd (⟨fd, fd, m⟩ :: l) = m.stamped := by
  have hl := bytesFor_eq_nil h
  unfold bytesFor at *
  simp [hl]

/-- What the turn of a connection puts on the way to it, and the state that it leaves. -/
inductive Echo (s : Server) (fd : Int32) (data : Bytes) (s' : Server) : List Stamped → Prop where
  | answered (res : Response) (hst : (s.entry fd).2 = .request) (hd : data ≠ [])
    (hst' : (s'.entry fd).2 = if res = success then .authenticated else .request) :
    Echo s fd data s' (Message.requestResponse res).stamped
  | chose (hst : (s.entry fd).2 = .authenticated) (hst' : (s'.entry fd).2 = .online) :
    Echo s fd data s' (Message.optionResponse success).stamped
  | gone (hd : (s.entry fd).2 = .request → data = []) (hcon : s'.conList fd = none) :
    Echo s fd data s' []
  | relayed (hst : (s.entry fd).2 = .online) (hcon : s'.conList = s.conList) : Echo s fd data s' []

lemma Turn.echo {s s' : Server} {fd : Int32} {data : Bytes} {loc : Locals}
    (h : Turn s fd data loc s') :
    Echo s fd data s' (bytesFor fd (s'.sent.drop s.sent.length)) := by
  have hothers : ∀ (t : Server) msg, ∀ e ∈ t.notices fd msg, e.dest ≠ fd :=
    fun t msg e he => (mem_notices he).1
  cases h with
  | dropped _ hd =>
    refine (bytesFor_eq_nil ?_).symm ▸ Echo.gone (fun _ => hd) (by simp [Server.del])
    simp [Server.del]
  | answered hst hd =>
    have hnew : bytesFor fd ((s.answer fd (requestOf data loc) loc.res).sent.drop s.sent.length) =
        (Message.requestResponse (verdict s.usrs (requestOf data loc) fd loc.res).1).stamped :=
      (congrArg (bytesFor fd) (drop_record _ _)).trans (bytesFor_self fd _ [] (by simp))
    rw [hnew]
    refine .answered _ hst hd ?_
    rw [← hst]
    exact congrArg Prod.snd (entry_setEntry _ _ _)
  | exited hst =>
    refine (bytesFor_eq_nil ?_).symm ▸ Echo.gone (by simp [hst]) (by simp [Server.del])
    simpa [Server.del, Server.offline, Server.setUsrs, Server.record] using hothers s _
  | chose hst =>
    have hnew : ∀ l e, ((s.record l).setEntry fd e).sent.drop s.sent.length = l :=
      fun l e => drop_record s l
    rw [hnew, bytesFor_self fd _ _ (hothers s _)]
    exact .chose hst (congrArg Prod.snd (entry_setEntry _ _ _))
  | left hst =>
    refine (bytesFor_eq_nil ?_).symm ▸ Echo.gone (by simp [hst]) (by simp [Server.del])
    simpa [Server.del, Server.offline, Server.setUsrs, Server.record] using
      hothers (s.offline (s.entry fd).1) (isOffline (s.entry fd).1)
  | relayed hst =>
    rw [bytesFor_eq_nil fun e he => hothers s _ e (by simpa [Server.record] using he)]
    exact .relayed hst rfl

section

variable {sql : Sqlite} {a : Action} {n n' : Network} {fd : Int32}

lemma toClient_deliver (n : Network) (a : Action) (s' : Server) (fd : Int32) :
    ((n.move a).deliver s').toClient fd =
      (n.move a).toClient fd ++ bytesFor fd (s'.sent.drop n.server.sent.length) := by
  simp only [Network.deliver, move_server]

/-- What a step does to a connection that it is not about. Text may be put on the way to its
client, once the connection has logged in. -/
structure Elsewhere (a : Action) (n n' : Network) (fd : Int32) : Prop where
  clients : n'.clients fd = n.clients fd
  conList : n'.server.conList fd = n.server.conList fd
  toServer : n'.toServer fd = n.toServer fd
  taken : n'.taken fd = n.taken fd
  toClient : ∃ new, n'.toClient fd = n.toClient fd ++ new ∧ ∀ x ∈ new, (∃ m, x.1 = .text m) ∧
    n.server.conList fd ≠ none ∧
    ((∀ e ∈ n.event a, Alone n.server e) → (n.server.entry fd).2 = .online)

lemma Orderly.elsewhere (hw : sql.Works) (h : Orderly sql a n n') (ht : Tracked n.server)
    (hne : fd ≠ a.fd) : Elsewhere a n n' fd := by
  obtain ⟨hc, hs, htc, htk⟩ := n.move_of_ne hne
  rcases h.cases hw with ⟨-, rfl⟩ | ⟨e, hev, -, rfl⟩
  · exact ⟨hc, by rw [move_server], hs, htk, [], by simpa using htc, by simp⟩
  · -- the server's turn for another connection
    have hturn : ∀ data loc, e = .readable a.fd data loc →
        Elsewhere a n ((n.move a).deliver (n.server.next e)) fd := by
      rintro data loc rfl
      have hturn := next_turn n.server a.fd data loc
      have hnew := toClient_deliver n a (n.server.next (.readable a.fd data loc)) fd
      rw [htc] at hnew
      refine ⟨hc, hturn.conList_of_ne hne, hs, htk, _, hnew, fun x hx => ?_⟩
      obtain ⟨sent, hsent, rfl, hxs⟩ := mem_bytesFor.mp hx
      obtain ⟨m, hm⟩ := hturn.text_of_ne hsent hne
      obtain ⟨r, hr, hdest, hl⟩ := hturn.live_of_sent ht hsent hne
      obtain ⟨b, -, rfl⟩ := List.mem_map.mp hxs
      obtain ⟨st, -, hcon⟩ := live_eq_some.mp hl
      refine ⟨⟨m, hm⟩, by simp [hcon], fun halone => ?_⟩
      have hon := (halone _ hev).online hr hdest hl
      simp [Server.entry, hon]
    cases a with
    | connect g =>
      obtain rfl : Event.incoming g = e := by simpa [Network.event] using hev
      have haccept : accept g = g := by
        have hg : 0 ≤ g := h.step.1.2
        exact if_neg (by simpa using hg)
      refine ⟨hc, ?_, hs, htk, [], ?_, by simp⟩
      · have hne' : fd ≠ g := hne
        simp [Network.deliver, Server.next, haccept, Server.add, Server.touch, Server.setEntry,
          hne']
      · simp [Network.deliver, Network.move, Network.setClient, Server.next, Server.add,
          Server.touch, Server.setEntry, bytesFor]
    | serve g k loc => exact hturn _ loc (Option.some.inj hev).symm
    | closed g loc => exact hturn _ loc (Option.some.inj hev).symm
    | _ => simp [Network.event] at hev

lemma Orderly.own_turn (hw : sql.Works) (h : Orderly sql a n n') {data : Bytes} {loc : Locals}
    (hev : n.event a = some (.readable fd data loc)) :
    n'.clients fd = n.clients fd ∧ n'.taken fd = n.taken fd ∧
      n'.toServer fd = (n.move a).toServer fd ∧
      ∃ new, n'.toClient fd = n.toClient fd ++ new ∧ Echo n.server fd data n'.server new := by
  rcases h.cases hw with ⟨hnone, -⟩ | ⟨e, he, -, rfl⟩
  · simp [hnone] at hev
  · obtain rfl : e = .readable fd data loc := Option.some.inj (he.symm.trans hev)
    have hsame : (n.move a).clients fd = n.clients fd ∧ (n.move a).taken fd = n.taken fd ∧
        (n.move a).toClient fd = n.toClient fd := by
      cases a <;> simp_all [Network.event, Network.move, Network.dropServer]
    have hnew := toClient_deliver n a (n.server.next (.readable fd data loc)) fd
    rw [hsame.2.2] at hnew
    exact ⟨hsame.1, hsame.2.1, rfl, _, hnew, (next_turn n.server fd data loc).echo⟩

/-- The connection that a step is about: its client acts, or it is new, or the server has its
turn. -/
lemma Orderly.own (hw : sql.Works) (h : Orderly sql a n n') :
    (n.event a = none ∧ n' = n.move a) ∨ (∃ g, a = .connect g) ∨
      ∃ data loc, n.event a = some (.readable a.fd data loc) := by
  rcases h.cases hw with hnone | ⟨e, he, -, -⟩
  · exact .inl hnone
  · cases a with
    | connect g => exact .inr (.inl ⟨g, rfl⟩)
    | serve g k loc => exact .inr (.inr ⟨_, loc, rfl⟩)
    | closed g loc => exact .inr (.inr ⟨_, loc, rfl⟩)
    | _ => simp [Network.event] at he

/-! ### Timely choices -/

/-- A client that waits for the response to its option choice is sent it next, or nothing. -/
def Awaiting (n : Network) (fd : Int32) : Prop :=
  n.clients fd = some .awaitOption →
    Expecting n fd ∨ (n.server.conList fd = none ∧ n.toClient fd = [])

lemma Expecting.append {new : List Stamped}
    (h : (Message.optionResponse success).stamped <+: n.toClient fd)
    (hnew : n'.toClient fd = n.toClient fd ++ new) : Expecting n' fd :=
  .inr (hnew ▸ h.trans (List.prefix_append _ _))

lemma Awaiting.elsewhere (h : Awaiting n fd) (helse : Elsewhere a n n' fd)
    (halone : ∀ e ∈ n.event a, Alone n.server e) : Awaiting n' fd := by
  intro hc
  rw [helse.clients] at hc
  obtain ⟨new, hnew, htext⟩ := helse.toClient
  have hentry : n'.server.entry fd = n.server.entry fd := by
    rw [Server.entry, helse.conList, Server.entry]
  rcases h hc with (⟨hst, hnil⟩ | hpre) | ⟨hcon, hnil⟩
  · -- nothing is sent to a connection that is not online
    have hnone : new = [] := List.eq_nil_iff_forall_not_mem.mpr fun x hx => by
      have hon := (htext x hx).2.2 halone
      simp [hst] at hon
    exact .inl (.inl ⟨by rw [hentry, hst], by rw [hnew, hnil, hnone]; rfl⟩)
  · exact .inl (Expecting.append hpre hnew)
  · have hnone : new = [] := List.eq_nil_iff_forall_not_mem.mpr fun x hx =>
      (htext x hx).2.1 hcon
    exact .inr ⟨helse.conList.trans hcon, by rw [hnew, hnil, hnone]; rfl⟩

lemma Awaiting.turn (h : Awaiting n fd) (hw : sql.Works) (hstep : Orderly sql a n n')
    (ht : Tracked n.server) {data : Bytes} {loc : Locals}
    (hev : n.event a = some (.readable fd data loc)) : Awaiting n' fd := by
  intro hc
  obtain ⟨hclients, -, -, new, hnew, hecho⟩ := hstep.own_turn hw hev
  rw [hclients] at hc
  rcases h hc with (⟨hst, hnil⟩ | hpre) | ⟨hcon, -⟩
  · rw [hnil, List.nil_append] at hnew
    cases hecho with
    | answered _ hreq => simp [hst] at hreq
    | chose => exact .inl (.inr (by rw [hnew]))
    | gone _ hcon => exact .inr ⟨hcon, hnew⟩
    | relayed hon => simp [hst] at hon
  · exact .inl (Expecting.append hpre hnew)
  · -- a connection that is gone is not reported any more
    rcases hstep.cases hw with ⟨hnone, -⟩ | ⟨e, he, hreg, -⟩
    · simp [hnone] at hev
    · obtain rfl : e = .readable fd data loc := Option.some.inj (he.symm.trans hev)
      exact absurd hcon ((ht.listed fd).mp hreg)

/-- The client's own acts: only a choice makes it wait, and only when it can expect the
response. -/
lemma Awaiting.acts (h : Awaiting n a.fd) (hen : Enabled n a) (hev : n.event a = none)
    (htimely : Timely n a) : Awaiting (n.move a) a.fd := by
  intro hc
  cases a with
  | request g data => simp [Network.move, Network.setClient, Action.fd] at hc
  | response g k =>
    simp only [Network.move, Network.setClient, Action.fd, Phase.afterResponse,
      Function.update_self] at hc
    split at hc <;> simp at hc
  | option g choice =>
    simp only [Network.move, Network.setClient, Action.fd, Function.update_self,
      Option.some.injEq] at hc
    exact .inl (htimely hc)
  | optionResponse g k => simp [Network.move, Network.setClient, Action.fd] at hc
  | line g text => simp [Network.move, Network.sendServer, Action.fd, hen.1] at hc
  | receive g k => simp [Network.move, Network.dropClient, Action.fd, hen.1] at hc
  | exit g => simp [Network.move, Network.setClient, Action.fd] at hc
  | connect g => simp [Network.event] at hev
  | serve g k loc => simp [Network.event] at hev
  | closed g loc => simp [Network.event] at hev

lemma Calm.awaiting (hw : sql.Works) (h : Calm sql a n n') (ht : Tracked n.server)
    (hinv : ∀ fd, Awaiting n fd) (fd : Int32) : Awaiting n' fd := by
  by_cases hne : fd = a.fd
  · subst hne
    rcases h.toOrderly.own hw with ⟨hev, rfl⟩ | ⟨g, rfl⟩ | ⟨data, loc, hev⟩
    · exact (hinv a.fd).acts h.step.1 hev h.timely
    · -- a client that connects does not wait
      intro hc
      rcases h.toOrderly.cases hw with ⟨hev, -⟩ | ⟨e, -, -, rfl⟩
      · simp [Network.event] at hev
      · simp [Network.deliver, Network.move, Network.setClient, Action.fd] at hc
    · exact (hinv a.fd).turn hw h.toOrderly ht hev
  · exact (hinv fd).elsewhere (h.toOrderly.elsewhere hw ht hne) h.alone

lemma Calm.repliesTaken (hw : sql.Works) (h : Calm sql a n n') (hinv : ∀ fd, Awaiting n fd)
    (htaken : RepliesTaken n) : RepliesTaken n' := by
  have hmove : RepliesTaken (n.move a) := by
    intro fd x hx
    by_cases hopt : ∃ k, a = .optionResponse fd k
    · obtain ⟨k, rfl⟩ := hopt
      obtain ⟨hcl, hpos, hmax, hlen⟩ := h.step.1
      have hx' : x ∈ (n.toClient fd).take k := by simpa [Network.move] using hx
      rcases hinv fd hcl with (⟨-, hnil⟩ | hpre) | ⟨-, hnil⟩
      · simp [hnil] at hx'
      · -- the read ends within the response
        obtain ⟨rest, hrest⟩ := hpre
        rw [← hrest, List.take_append_of_le_length hmax] at hx'
        obtain ⟨b, -, rfl⟩ := List.mem_map.mp (List.mem_of_mem_take hx')
        exact ⟨_, rfl⟩
      · simp [hnil] at hx'
    · have hsame : (n.move a).taken fd = n.taken fd := by
        cases a with
        | optionResponse g k =>
          have hne : fd ≠ g := fun heq => hopt ⟨k, by rw [heq]⟩
          simp [Network.move, hne]
        | _ => rfl
      exact htaken fd x (hsame ▸ hx)
  rcases h.toOrderly.cases hw with ⟨-, rfl⟩ | ⟨e, -, -, rfl⟩
  · exact hmove
  · exact hmove

/-! ### Choices out of turn -/

/-- The first of the bytes belongs to no response to an option choice. -/
def Stray (l : List Stamped) : Prop := ∃ x rest, l = x :: rest ∧ ∀ res, x.1 ≠ .optionResponse res

lemma Stray.append {l : List Stamped} (h : Stray l) (l' : List Stamped) : Stray (l ++ l') := by
  obtain ⟨x, rest, rfl, hx⟩ := h
  exact ⟨x, rest ++ l', rfl, hx⟩

lemma stray_of_mem {l : List Stamped} (hne : l ≠ [])
    (h : ∀ x ∈ l, ∀ res, x.1 ≠ .optionResponse res) : Stray l := by
  obtain ⟨x, rest, rfl⟩ := List.exists_cons_of_ne_nil hne
  exact ⟨x, rest, rfl, h x (by simp)⟩

/-- Something else is on the way to the client first, or nothing is and the server is not
waiting for a choice. -/
def Untimely (n : Network) (fd : Int32) : Prop :=
  Stray (n.toClient fd) ∨ (n.toClient fd = [] ∧ (n.server.entry fd).2 ≠ .authenticated)

/-- A client that has chosen out of turn: it waits, has taken something else for the response,
or has left. -/
inductive Astray (n : Network) (fd : Int32) : Prop where
  | waiting (hc : n.clients fd = some .awaitOption) (ht : n.taken fd = []) (hu : Untimely n fd)
  | misled (hc : n.clients fd = some .online ∨ n.clients fd = some .exited)
    (ht : Stray (n.taken fd))
  | left (hc : n.clients fd = some .exited) (ht : n.taken fd = [])

/-- What is put on the way leaves the next read as wrong as it was, unless the server answers a
choice. -/
lemma Untimely.append (h : Untimely n fd) {new : List Stamped}
    (hnew : n'.toClient fd = n.toClient fd ++ new)
    (hstray : ∀ x ∈ new, ∀ res, x.1 ≠ .optionResponse res)
    (hst : new = [] → (n.server.entry fd).2 ≠ .authenticated →
      (n'.server.entry fd).2 ≠ .authenticated) : Untimely n' fd := by
  rcases h with h | ⟨hnil, hne⟩
  · exact .inl (hnew ▸ h.append new)
  · rw [hnil, List.nil_append] at hnew
    by_cases hn : new = []
    · exact .inr ⟨hnew.trans hn, hst hn hne⟩
    · exact .inl (hnew ▸ stray_of_mem hn hstray)

lemma Astray.elsewhere (h : Astray n fd) (helse : Elsewhere a n n' fd) : Astray n' fd := by
  have hentry : n'.server.entry fd = n.server.entry fd := by
    rw [Server.entry, helse.conList, Server.entry]
  cases h with
  | waiting hc ht hu =>
    obtain ⟨new, hnew, htext⟩ := helse.toClient
    refine .waiting (helse.clients.trans hc) (helse.taken.trans ht)
      (hu.append hnew (fun x hx res => ?_) fun _ hne => by rwa [hentry])
    obtain ⟨m, hm⟩ := (htext x hx).1
    simp [hm]
  | misled hc ht => exact .misled (by rwa [helse.clients]) (by rwa [helse.taken])
  | left hc ht => exact .left (helse.clients.trans hc) (helse.taken.trans ht)

lemma Untimely.turn (h : Untimely n fd) {data : Bytes} {new : List Stamped}
    (hnew : n'.toClient fd = n.toClient fd ++ new)
    (hecho : Echo n.server fd data n'.server new) : Untimely n' fd := by
  rcases h with h | ⟨hnil, hne⟩
  · exact .inl (hnew ▸ h.append new)
  · rw [hnil, List.nil_append] at hnew
    cases hecho with
    | answered res =>
      refine .inl (hnew ▸ stray_of_mem (by simp [Message.stamped, Message.payload, leBytes]) ?_)
      rintro x hx res'
      obtain ⟨b, -, rfl⟩ := List.mem_map.mp hx
      simp
    | chose hst => exact absurd hst hne
    | gone _ hcon => exact .inr ⟨hnew, by simp [Server.entry, hcon]⟩
    | relayed _ hcon => exact .inr ⟨hnew, by rwa [Server.entry, hcon]⟩

lemma Astray.acts (h : Astray n a.fd) (hen : Enabled n a) (hev : n.event a = none) :
    Astray (n.move a) a.fd := by
  cases a with
  | connect g => simp [Network.event] at hev
  | serve g k loc => simp [Network.event] at hev
  | closed g loc => simp [Network.event] at hev
  | optionResponse g k =>
    obtain ⟨hcl, hpos, -, hlen⟩ := hen
    cases h with
    | waiting hc ht hu =>
      have hstray : Stray (n.toClient g) :=
        hu.resolve_right fun ⟨hnil, _⟩ => by
          have : (n.toClient g).length = 0 := congrArg List.length hnil
          omega
      obtain ⟨x, rest, hxs, hx⟩ := hstray
      refine .misled (.inl (by simp [Network.move, Network.setClient, Action.fd]))
        ⟨x, rest.take (k - 1), ?_, hx⟩
      obtain ⟨j, rfl⟩ : ∃ j, k = j + 1 := ⟨k - 1, by omega⟩
      simp [Network.move, Action.fd, hxs]
    | misled hc => simp [Action.fd, hcl] at hc
    | left hc => simp [Action.fd, hcl] at hc
  | exit g =>
    have hc : (n.move (.exit g)).clients g = some .exited := by
      simp [Network.move, Network.setClient]
    cases h with
    | waiting _ ht => exact .left hc ht
    | misled _ ht => exact .misled (.inr hc) ht
    | left _ ht => exact .left hc ht
  | request g data => cases h <;> simp_all [Enabled, Action.fd]
  | response g k => cases h <;> simp_all [Enabled, Action.fd]
  | option g choice => cases h <;> simp_all [Enabled, Action.fd]
  | line g text =>
    cases h with
    | waiting hc => simp [Action.fd, hen.1] at hc
    | misled hc ht => exact .misled hc ht
    | left hc => simp [Action.fd, hen.1] at hc
  | receive g k =>
    cases h with
    | waiting hc => simp [Action.fd, hen.1] at hc
    | misled hc ht => exact .misled hc ht
    | left hc => simp [Action.fd, hen.1] at hc

/-- Whoever has taken something for the response to its choice has chosen. -/
def Taken (n : Network) : Prop :=
  ∀ fd, n.taken fd = [] ∨ n.clients fd = some .online ∨ n.clients fd = some .exited

lemma Taken.move (h : Taken n) (hen : Enabled n a) : Taken (n.move a) := by
  intro fd
  by_cases hne : fd = a.fd
  · subst hne
    have hfd := h a.fd
    cases a <;> simp_all [Enabled, Network.move, Network.setClient, Network.sendServer,
      Network.dropClient, Network.dropServer, Action.fd]
  · obtain ⟨hc, -, -, htk⟩ := n.move_of_ne hne
    rw [hc, htk]
    exact h fd

lemma Orderly.taken (hw : sql.Works) (h : Orderly sql a n n') (htk : Taken n) : Taken n' := by
  rcases h.cases hw with ⟨-, rfl⟩ | ⟨e, -, -, rfl⟩
  · exact htk.move h.step.1
  · exact htk.move h.step.1

/-! ### Reads in one piece -/

/-- Requests are read in one piece, and so are the responses to them. -/
def Whole (n : Network) : Action → Prop
  | .serve fd k _ => (n.server.entry fd).2 = .request → k = requestSize
  | .response _ k => k = 4
  | _ => True

/-- Both channels of a connection are empty, and the server has it in this state. -/
structure Settled (n : Network) (fd : Int32) (st : State) : Prop where
  state : (n.server.entry fd).2 = st
  toServer : n.toServer fd = []
  toClient : n.toClient fd = []

/-- Where the server and the channels stand until the client chooses, by its phase. -/
def Protocol (n : Network) (fd : Int32) : Prop :=
  match n.clients fd with
  | none => Settled n fd .request
  | some .sendRequest => Settled n fd .request
  | some .awaitResponse =>
    ((n.server.entry fd).2 = .request ∧ (n.toServer fd).length = requestSize ∧
      n.toClient fd = []) ∨
    ∃ res, (n.server.entry fd).2 = (if res = success then .authenticated else .request) ∧
      n.toServer fd = [] ∧ n.toClient fd = (Message.requestResponse res).stamped
  | some .selectChatOpt => Settled n fd .authenticated
  | some .awaitOption => True
  | some .online => True
  | some .exited => True

lemma Protocol.elsewhere (h : Protocol n fd) (helse : Elsewhere a n n' fd)
    (halone : ∀ e ∈ n.event a, Alone n.server e) : Protocol n' fd := by
  obtain ⟨new, hnew, htext⟩ := helse.toClient
  have hentry : n'.server.entry fd = n.server.entry fd := by
    rw [Server.entry, helse.conList, Server.entry]
  have hsilent : (n.server.entry fd).2 ≠ .online → n'.toClient fd = n.toClient fd := by
    intro hoff
    have hnone : new = [] := List.eq_nil_iff_forall_not_mem.mpr fun x hx =>
      hoff ((htext x hx).2.2 halone)
    rw [hnew, hnone, List.append_nil]
  have hkeep : ∀ st, st ≠ .online → Settled n fd st → Settled n' fd st := fun st hst hset =>
    ⟨hentry ▸ hset.state, helse.toServer.trans hset.toServer,
      (hsilent (hset.state ▸ hst)).trans hset.toClient⟩
  unfold Protocol at *
  rw [helse.clients, hentry, helse.toServer]
  rcases hp : n.clients fd with _ | _ | _ | _ | _ | _ | _
  all_goals simp only [hp] at h
  · exact hkeep _ (by simp) h
  · exact hkeep _ (by simp) h
  · rcases h with ⟨h1, h2, h3⟩ | ⟨res, h1, h2, h3⟩
    · exact .inl ⟨h1, h2, (hsilent (by simp [h1])).trans h3⟩
    · exact .inr ⟨res, h1, h2, (hsilent (by rw [h1]; split <;> simp)).trans h3⟩
  · exact hkeep _ (by simp) h
  · trivial
  · trivial
  · trivial

lemma Protocol.turn (h : Protocol n a.fd) (hw : sql.Works) (hstep : Orderly sql a n n')
    (hwhole : Whole n a) {data : Bytes} {loc : Locals}
    (hev : n.event a = some (.readable a.fd data loc)) : Protocol n' a.fd := by
  obtain ⟨hclients, -, hserver, new, hnew, hecho⟩ := hstep.own_turn hw hev
  have hen := hstep.step.1
  unfold Protocol at h ⊢
  rw [hclients]
  cases a with
  | serve g k l =>
    obtain ⟨hpos, -, hlen⟩ := hen
    have hnonempty : n.toServer g ≠ [] := List.ne_nil_of_length_pos (by omega)
    have hdrop : n'.toServer g = (n.toServer g).drop k := by
      simpa [Network.move, Network.dropServer, Action.fd] using hserver
    simp only [Action.fd] at h hnew hecho ⊢
    rcases hp : n.clients g with _ | _ | _ | _ | _ | _ | _
    all_goals simp only [hp] at h ⊢
    · exact absurd h.toServer hnonempty
    · exact absurd h.toServer hnonempty
    · rcases h with ⟨hst, hsize, hnil⟩ | ⟨-, -, hs, -⟩
      · obtain rfl := hwhole hst
        have hdata : data ≠ [] := by
          obtain ⟨-, rfl, -⟩ : g = g ∧ (n.toServer g).take requestSize = data ∧ l = loc := by
            simpa [Network.event, Action.fd] using hev
          rwa [List.take_of_length_le hsize.le]
        right
        rw [hnil, List.nil_append] at hnew
        cases hecho with
        | answered res _ _ hres =>
          exact ⟨res, hres, hdrop.trans (List.drop_of_length_le hsize.le), hnew⟩
        | chose hst' => simp [hst] at hst'
        | gone hnil => exact absurd (hnil hst) hdata
        | relayed hst' => simp [hst] at hst'
      · exact absurd hs hnonempty
    · exact absurd h.toServer hnonempty
  | closed g l => simp [show n.clients g = some .exited from hen, Action.fd]
  | _ => simp [Network.event] at hev

lemma readResponse_leBytes (res : Response) : readResponse (leBytes res) = res :=
  ofLeBytes_leBytes res _

lemma map_snd_stamped (m : Message) : m.stamped.map Prod.snd = m.payload := by
  simp [Message.stamped, Function.comp_def]

lemma Protocol.response {g : Int32} (hp : Protocol n g) (hen : Enabled n (.response g 4)) :
    Protocol (n.move (.response g 4)) g := by
  obtain ⟨hcl, -, -, hlen⟩ := hen
  simp only [Protocol, hcl] at hp
  rcases hp with ⟨-, -, hnil⟩ | ⟨res, hst, hs, hc⟩
  · simp [hnil] at hlen
  · have hfront : n.front g 4 = leBytes res := by
      rw [Network.front, hc, List.take_of_length_le (by simp [Message.stamped, Message.payload,
        leBytes]), map_snd_stamped]
      rfl
    have hdrop : (n.toClient g).drop 4 = [] := by
      rw [hc]
      rfl
    have hphase : (n.move (.response g 4)).clients g =
        some (if res = success then .selectChatOpt else .sendRequest) := by
      simp [Network.move, Network.setClient, hfront, Phase.afterResponse, readResponse_leBytes]
    have hset : ∀ st, (n.server.entry g).2 = st → Settled (n.move (.response g 4)) g st :=
      fun st h =>
        ⟨h, hs, by simpa [Network.move, Network.setClient, Network.dropClient] using hdrop⟩
    unfold Protocol
    rw [hphase]
    split_ifs at hst ⊢ with hres
    · exact hset _ hst
    · exact hset _ hst

lemma Protocol.acts (hp : Protocol n a.fd) (hen : Enabled n a) (hwhole : Whole n a)
    (hev : n.event a = none) : Protocol (n.move a) a.fd := by
  cases a with
  | connect g => simp [Network.event] at hev
  | serve g k loc => simp [Network.event] at hev
  | closed g loc => simp [Network.event] at hev
  | request g data =>
    obtain ⟨hcl, hsize, -⟩ := hen
    simp only [Protocol, Action.fd, hcl] at hp
    simp only [Protocol, Action.fd, Network.move, Network.setClient, Function.update_self]
    exact .inl ⟨hp.state, by simp [Network.sendServer, hp.toServer, hsize], hp.toClient⟩
  | option g choice =>
    simp only [Protocol, Network.move, Network.setClient, Action.fd, Function.update_self,
      Phase.afterOption]
    split_ifs <;> trivial
  | response g k =>
    obtain rfl : k = 4 := hwhole
    exact hp.response hen
  | optionResponse g k => simp [Protocol, Network.move, Network.setClient, Action.fd]
  | line g text => simp [Protocol, Network.move, Network.sendServer, Action.fd, hen.1]
  | receive g k => simp [Protocol, Network.move, Network.dropClient, Action.fd, hen.1]
  | exit g => simp [Protocol, Network.move, Network.setClient, Action.fd]

lemma Protocol.connect {g : Int32} (hp : Protocol n g) (hw : sql.Works)
    (hstep : Orderly sql (.connect g) n n') : Protocol n' g := by
  rcases hstep.cases hw with ⟨hev, -⟩ | ⟨e, he, -, rfl⟩
  · simp [Network.event] at hev
  · obtain rfl : .incoming g = e := by simpa [Network.event] using he
    have hcl : n.clients g = none := hstep.step.1.1
    simp only [Protocol, hcl] at hp
    simp only [Protocol, Network.deliver, Network.move, Network.setClient, Function.update_self]
    refine ⟨(congrArg Prod.snd (entry_add n.server g (accept g))).trans hp.state, hp.toServer, ?_⟩
    simpa [Server.next, Server.add, Server.touch, Server.setEntry, bytesFor] using hp.toClient

/-- After whole reads a choice is timely. -/
lemma Protocol.timely (hp : Protocol n a.fd) (hen : Enabled n a) : Timely n a := by
  cases a with
  | option g choice =>
    intro _
    simp only [Protocol, Action.fd, show n.clients g = some .selectChatOpt from hen] at hp
    exact .inl ⟨hp.state, hp.toClient⟩
  | _ => trivial

end

/-! ### Runs -/

lemma Quiet.awaiting {n : Network} (h : Quiet n) (fd : Int32) : Awaiting n fd := by
  simp [Awaiting, h.clients]

section

variable {sql : Sqlite} {n₀ : Network}

lemma Calm.run (hw : sql.Works) (h0 : Quiet n₀) {as : List Action} {n : Network}
    (hrun : Trace (Calm sql) n₀ as n) : RepliesTaken n := by
  have hinv : Tracked n.server ∧ (∀ fd, Awaiting n fd) ∧ RepliesTaken n := by
    refine hrun.reaches.invariant
      (I := fun n => Tracked n.server ∧ (∀ fd, Awaiting n fd) ∧ RepliesTaken n)
      ⟨h0.server.tracked, h0.awaiting, by simp [RepliesTaken, h0.taken]⟩ ?_
    rintro u v ⟨ht, hawait, htaken⟩ ⟨b, hb⟩
    exact ⟨hb.toOrderly.tracked hw ht, hb.awaiting hw ht hawait, hb.repliesTaken hw hawait htaken⟩
  exact hinv.2.2

end

/-! ### Two clients -/

end SelfTraining.Chat
