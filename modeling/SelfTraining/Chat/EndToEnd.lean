import SelfTraining.Chat.Typists

/-!
What the users of the chat room can rely on: the lines that are typed are the lines that are
shown, to everybody who is online, once each and in one order.
-/

namespace SelfTraining.Chat

open SelfTraining.Text SelfTraining.Steps SelfTraining.Board

/-- Both ends of a connection after a run: what the board holds for the client, and what the
client has put on it. -/
structure BothEnds (b : List (Post Int32 Bytes)) (ds : List Deed) (n : Network) (fd : Int32) :
    Prop where
  shown : Shown b ds n fd
  sides : Sides n fd (typed fd ds) (textsBy fd b)

section

variable {sql : Sqlite} {n₀ n n' : Network} {e : Event} {d : Deed} {ds : List Deed}
  {fd g : Int32} {b : List (Post Int32 Bytes)}

/-! ### Steps -/

lemma typed_of_ne (h : fd ≠ d.action.fd) : d.typed fd = none := by
  rcases d with ⟨m, a⟩
  cases a <;> simp_all [Deed.typed, Action.fd, eq_comm]

lemma pushed_of_ne (h : fd ≠ d.action.fd) : d.pushed fd = none := by
  rcases d with ⟨m, a⟩
  cases a <;> simp_all [Deed.pushed, Action.fd, eq_comm]

lemma BothEnds.other {data : Bytes} {loc : Locals} (h : BothEnds b ds n fd)
    (hc : Consistent n.server) (hne : fd ≠ g) (hg : d.action.fd = g) :
    BothEnds (b ++ (post n.server (.readable g data loc)).toList) (ds ++ [d])
      ((n.move d.action).deliver (n.server.next (.readable g data loc))) fd := by
  have hfd : fd ≠ d.action.fd := hg.symm ▸ hne
  obtain ⟨hclients, hserver, hclient, -⟩ := n.move_of_ne hfd
  refine ⟨h.shown.deliver hc (pushed_of_ne hfd) hclient (move_server n _), ?_⟩
  rw [typed_snoc, typed_of_ne hfd, Option.toList_none, List.append_nil, textsBy_append,
    textsBy_post, if_neg (Ne.symm hne), List.append_nil]
  have ht := next_turn n.server g data loc
  refine h.sides.bystander hclients ?_ hserver ?_
  · simp only [Server.entry, Network.deliver, ht.conList_of_ne hne]
  · rw [answers_deliver, move_server, ht.no_answers hne, List.append_nil, Network.answers,
      hclient, Network.answers]

lemma BothEnds.server (h : BothEnds b ds n fd) (hc : Consistent n.server)
    (hstep : DeliveryStep sql d n n') (hev : n.event d.action = some e) :
    BothEnds (b ++ (post n.server e).toList) (ds ++ [d])
      ((n.move d.action).deliver (n.server.next e)) fd := by
  have hreads := hstep.reads
  have hen := hstep.step.1
  rcases d with ⟨m, a⟩
  cases a with
  | connect g =>
    obtain rfl : .incoming g = e := by simpa [Network.event] using hev
    refine ⟨h.shown.deliver hc rfl rfl rfl, ?_⟩
    have hsides : Sides ((n.move (.connect g)).deliver (n.server.next (.incoming g))) fd
        (typed fd ds) (textsBy fd b) := by
      have hentry : (n.server.next (.incoming g)).entry fd = n.server.entry fd :=
        entry_add n.server fd (accept g)
      have hanswers : ((n.move (.connect g)).deliver (n.server.next (.incoming g))).answers fd =
          n.answers fd := by
        rw [answers_deliver]
        simp [Network.answers, Network.move, Network.setClient, Server.next, Server.add,
          Server.touch, Server.setEntry, bytesFor]
      by_cases hg : fd = g
      · subst hg
        have hs := h.sides
        simp only [Sides, hen.1] at hs
        obtain ⟨htyped, hposted, hst⟩ := hs
        simp only [Sides, Network.deliver, Network.move, Network.setClient, Function.update_self]
        exact ⟨htyped, hposted, (congrArg Prod.snd hentry).trans hst.state, hst.toServer,
          hanswers.trans hst.answers⟩
      · refine h.sides.bystander ?_ hentry rfl hanswers
        simp [Network.deliver, Network.move, Network.setClient, hg]
    simpa [typed_snoc, Deed.typed, post] using hsides
  | serve g k loc =>
    obtain rfl : .readable g ((n.toServer g).take k) loc = e := by
      simpa [Network.event] using hev
    by_cases hg : fd = g
    · subst hg
      refine ⟨h.shown.deliver hc rfl rfl rfl, ?_⟩
      rw [typed_snoc, textsBy_append]
      simpa [Deed.typed] using h.sides.serve hen hreads
    · exact h.other hc hg rfl
  | closed g loc =>
    obtain rfl : .readable g [] loc = e := by simpa [Network.event] using hev
    by_cases hg : fd = g
    · subst hg
      refine ⟨h.shown.deliver hc rfl rfl rfl, ?_⟩
      have hp : n.clients fd = some .exited := hen
      simp [Sides, Network.deliver, Network.move, hp]
    · exact h.other hc hg rfl
  | _ => simp [Network.event] at hev

/-! ### Runs -/

end

/-! ### Between two moments -/

/-- The lines on the way to the server. -/
def LinesAhead (n : Network) (fd : Int32) (lines : List Bytes) : Prop :=
  n.toServer fd = lines.flatMap sendLine ∧ ∀ l ∈ lines, Line l

/-- The texts on the way to a client, with nothing between them. -/
def TextsAhead (n : Network) (fd : Int32) (texts : List Bytes) : Prop :=
  (n.toClient fd = texts.flatMap fun t => (Message.text t).stamped) ∧ ∀ t ∈ texts, t ≠ []

/-- What the client has been shown since the first moment and the texts on the way at the second
are the texts on the way at the first and all that others have put on the board since, in the
order of the board. -/
def ShownBetween (n₁ n₂ : Network) (ds : List Deed) (fd : Int32) : Prop :=
  ∃ before after, TextsAhead n₁ fd before ∧ TextsAhead n₂ fd after ∧
    pushed fd ds ++ after.map recvMessage = (before ++
      (((board n₁.server (events ds)).map Post.signed).filter fun m => m.1 ≠ fd).map
        Prod.snd).map recvMessage

section

variable {sql : Sqlite} {n₀ n₁ n n' : Network} {a : Action} {ds ds₁ ds₂ : List Deed}
  {fd : Int32} {b : List (Post Int32 Bytes)}

lemma Enabled.online (h : Enabled n a) (hp : n.clients fd = some .online) :
    (n.move a).clients fd = some .online ∨ (n.move a).clients fd = some .exited := by
  by_cases hfd : fd = a.fd
  · subst hfd
    cases a <;> simp_all [Enabled, Action.fd, Network.move, Network.setClient,
      Network.sendServer, Network.dropClient, Network.dropServer]
  · rw [(n.move_of_ne hfd).1]
    exact .inl hp

lemma Enabled.exited (h : Enabled n a) (hp : n.clients fd = some .exited) :
    (n.move a).clients fd = some .exited := by
  by_cases hfd : fd = a.fd
  · subst hfd
    cases a <;> simp_all [Enabled, Action.fd, Network.move, Network.setClient,
      Network.dropServer]
  · rw [(n.move_of_ne hfd).1]
    exact hp

variable {n₂ : Network}

end

/-! ### Two clients -/

lemma TextsAhead.eq_nil {n : Network} {fd : Int32} {texts : List Bytes} (h : TextsAhead n fd texts)
    (hn : n.toClient fd = []) : texts = [] := by
  obtain ⟨hflat, hne⟩ := h
  rw [hn, eq_comm, List.flatMap_eq_nil_iff] at hflat
  refine List.eq_nil_iff_forall_not_mem.mpr fun t ht => hne t ht ?_
  simpa [Message.stamped, Message.payload] using hflat t ht

/-- The deeds of a run from the actions. -/
def deeds (n : Network) : List Action → List Deed
  | [] => []
  | a :: as => ⟨n, a⟩ :: deeds (n.play a) as

lemma Agenda.deeds {sql : Sqlite} (hw : sql.Works) {n : Network} {as : List Action}
    (h : Agenda (fun n a => (∀ e ∈ n.event a, Allowed n.server e) ∧ ReadsOne n a) n as)
    (hk : Keys n.server) :
    Trace (DeliveryStep sql) n (Chat.deeds n as) (as.foldl Network.play n) := by
  induction as generalizing n with
  | nil => exact .nil
  | cons a as ih =>
    obtain ⟨hr, ⟨hallowed, hreads⟩, has⟩ := h
    exact .cons ⟨rfl, hr.step hw hk, hallowed, hreads⟩ (ih has (hr.keys hk))

end SelfTraining.Chat
