import SelfTraining.Chat.Network

/-!
Who is sent chat text.

A user is online in the table from the login on, but its connection is online only from the
option on. The server sends text by the table: it goes to a connection that is not online
exactly when something is broadcast while that connection stands between the two.
-/

namespace SelfTraining.Chat

open SelfTraining.Text SelfTraining.Steps

/-! ### Everybody seen is live -/

/-- Whoever is online in the table has logged in on that socket. Requests may have any option,
so the converse need not hold. -/
structure Tracked (s : Server) : Prop where
  listed : Listed s
  seen_live : ∀ name fd, Seen s.usrs name fd → s.live fd = some name

namespace Tracked

variable {s : Server} {fd : Int32}

lemma offline (h : Tracked s) {n : Bytes} (hl : s.live fd = some n) {name : Bytes} {g : Int32}
    (hseen : Seen ((Stmt.update 0 (-1) n).run s.usrs) name g) :
    Function.update s.live fd none g = some name := by
  rcases seen_update.mp hseen with ⟨-, -, h01, -⟩ | ⟨hne, hold⟩
  · simp at h01
  · have hg := h.seen_live name g hold
    by_cases hgf : g = fd
    · subst hgf
      rw [hl, Option.some.injEq] at hg
      exact absurd hg.symm hne
    · rwa [Function.update_of_ne hgf]

lemma answer (h : Tracked s) (hst : (s.entry fd).2 = .request) {msg : RequestMsg}
    {garbage : Response} (hk : Listed (s.answer fd msg garbage)) :
    Tracked (s.answer fd msg garbage) := by
  refine ⟨hk, fun name g hseen => ?_⟩
  have hseen' : Seen (verdict s.usrs msg fd garbage).2 name g := hseen
  have hold : ∀ x, Seen s.usrs name g → Function.update s.live fd x g = some name := by
    intro x ho
    have hg := h.seen_live name g ho
    have hgf : g ≠ fd := by
      rintro rfl
      rw [not_live_of_entry hst] at hg
      simp at hg
    rwa [Function.update_of_ne hgf]
  rw [live_answer hst]
  rcases verdict_cases s.usrs msg fd garbage with ⟨-, -, hv⟩ | ⟨-, -, hv⟩ | ⟨ht, -⟩
  · rw [hv] at hseen' ⊢
    rcases seen_insert.mp hseen' with ho | ⟨rfl, rfl⟩
    · exact hold _ ho
    · simp
  · rw [hv] at hseen' ⊢
    rcases seen_update.mp hseen' with ⟨rfl, -, -, rfl⟩ | ⟨-, ho⟩
    · simp
    · exact hold _ ho
  · rw [ht] at hseen'
    exact hold _ hseen'

/-- Every event keeps track, whatever the option of a request. -/
theorem next (h : Tracked s) {e : Event} (hr : Registered s e) : Tracked (s.next e) := by
  cases e with
  | incoming accepted =>
    refine ⟨h.listed.add, fun name g hseen => ?_⟩
    change (s.add _).live g = some name
    rw [live_add]
    exact h.seen_live name g hseen
  | readable fd data loc =>
    have ht := next_turn s fd data loc
    have hk := h.listed.turn hr ht
    generalize s.next (.readable fd data loc) = s' at ht hk
    cases ht with
    | dropped hst =>
      refine ⟨hk, fun name g hseen => ?_⟩
      rw [live_del, ← not_live_of_entry hst, Function.update_eq_self]
      exact h.seen_live name g hseen
    | answered hst => exact h.answer hst hk
    | exited hst =>
      have hl : s.live fd = some (s.entry fd).1 := live_of_entry (by simp [hst])
      refine ⟨hk, fun name g hseen => ?_⟩
      rw [live_del]
      exact h.offline hl hseen
    | chose hst =>
      refine ⟨hk, fun name g hseen => ?_⟩
      rw [live_setEntry, if_neg (by simp), ← live_of_entry (by simp [hst])]
      exact (Function.update_eq_self fd s.live).symm ▸ h.seen_live name g hseen
    | left hst =>
      have hl : s.live fd = some (s.entry fd).1 := live_of_entry (by simp [hst])
      refine ⟨hk, fun name g hseen => ?_⟩
      rw [live_del]
      exact h.offline hl hseen
    | relayed => exact ⟨hk, h.seen_live⟩

lemma seen (h : Tracked s) {r : Row} (hr : r ∈ s.usrs) (h1 : r.status = 1) :
    s.live r.sockfd = some r.username :=
  h.seen_live _ _ ⟨r, hr, rfl, h1, rfl⟩

end Tracked

lemma Fresh.tracked {s : Server} (h : Fresh s) : Tracked s :=
  ⟨h.consistent.listed, fun name fd => (h.consistent.agree name fd).mp⟩

/-! ### Who is sent text -/

lemma mem_notices_iff {s : Server} {fd : Int32} {msg : Bytes} {e : Sent} :
    e ∈ s.notices fd msg ↔
      ∃ r ∈ s.usrs, r.status = 1 ∧ r.sockfd ≠ fd ∧ e = ⟨fd, r.sockfd, .text msg⟩ := by
  simp only [Server.notices, Stmt.rows, List.mem_map, List.mem_filter, decide_eq_true_eq,
    and_assoc]
  exact exists_congr fun r => by rw [eq_comm (a := e)]

lemma mem_notices {s : Server} {fd : Int32} {msg : Bytes} {e : Sent} (h : e ∈ s.notices fd msg) :
    e.dest ≠ fd ∧ ∃ name, Seen s.usrs name e.dest := by
  obtain ⟨r, hr, h1, hne, rfl⟩ := mem_notices_iff.mp h
  exact ⟨hne, r.username, r, hr, rfl, h1, rfl⟩

/-- The rows that the turn of a connection sends a text for. A user whose connection is gone
while it is online is put offline before the others are told. -/
def Notified (s : Server) (fd : Int32) (data : Bytes) (r : Row) : Prop :=
  (s.entry fd).2 ≠ .request ∧ r ∈ s.usrs ∧ r.status = 1 ∧ r.sockfd ≠ fd ∧
    ((s.entry fd).2 = .online → data = [] → r.username ≠ (s.entry fd).1)

instance (s : Server) (fd : Int32) (data : Bytes) (r : Row) : Decidable (Notified s fd data r) :=
  inferInstanceAs (Decidable (_ ∧ _))

lemma mem_notices_offline {s : Server} {fd : Int32} {name msg : Bytes} {e : Sent} :
    e ∈ (s.offline name).notices fd msg ↔
      ∃ r ∈ s.usrs, r.status = 1 ∧ r.sockfd ≠ fd ∧ r.username ≠ name ∧
        e = ⟨fd, r.sockfd, .text msg⟩ := by
  rw [mem_notices_iff]
  constructor
  · rintro ⟨r, hr, h1, hne, rfl⟩
    obtain ⟨r₀, hr₀, rfl⟩ := mem_update.mp hr
    by_cases hn : r₀.username = name
    · simp [hn] at h1
    · rw [if_neg hn] at h1 hne ⊢
      exact ⟨r₀, hr₀, h1, hne, hn, rfl⟩
  · rintro ⟨r, hr, h1, hne, hn, rfl⟩
    exact ⟨r, mem_update.mpr ⟨r, hr, by rw [if_neg hn]⟩, h1, hne, rfl⟩

section

variable {s s' : Server} {fd : Int32} {data : Bytes} {loc : Locals}

/-- The texts of a turn are sent for the rows that it notifies. -/
lemma Turn.text_iff (h : Turn s fd data loc s') (g : Int32) :
    (∃ e ∈ s'.sent.drop s.sent.length, e.dest = g ∧ ∃ m, e.message = .text m) ↔
      ∃ r, Notified s fd data r ∧ r.sockfd = g := by
  -- the notices to all rows of status 1
  have hall : ∀ msg, (s.entry fd).2 ≠ .request → ((s.entry fd).2 = .online → data ≠ []) →
      ((∃ e ∈ s.notices fd msg, e.dest = g ∧ ∃ m, e.message = .text m) ↔
        ∃ r, Notified s fd data r ∧ r.sockfd = g) := by
    intro msg hst hd
    constructor
    · rintro ⟨e, he, rfl, -⟩
      obtain ⟨r, hr, h1, hne, rfl⟩ := mem_notices_iff.mp he
      exact ⟨r, ⟨hst, hr, h1, hne, fun ho hnil => absurd hnil (hd ho)⟩, rfl⟩
    · rintro ⟨r, ⟨-, hr, h1, hne, -⟩, rfl⟩
      exact ⟨_, mem_notices_iff.mpr ⟨r, hr, h1, hne, rfl⟩, rfl, msg, rfl⟩
  cases h with
  | dropped hst => simp [Server.del, Notified, hst]
  | answered hst =>
    simp [Server.answer, Server.record, Server.setEntry, Server.setUsrs, Notified, hst]
  | exited hst =>
    rw [← hall (isOffline (s.entry fd).1) (by simp [hst]) (by simp [hst])]
    simp [Server.del, Server.offline, Server.setUsrs, Server.record]
  | chose hst =>
    rw [← hall (isOnline (s.entry fd).1) (by simp [hst]) (by simp [hst])]
    simp [Server.setEntry, Server.record]
  | left hst hd =>
    simp only [Server.del, Server.record, List.drop_left', Server.offline, Server.setUsrs]
    constructor
    · rintro ⟨e, he, rfl, -⟩
      obtain ⟨r, hr, h1, hne, hn, rfl⟩ := mem_notices_offline.mp he
      exact ⟨r, ⟨by simp [hst], hr, h1, hne, fun _ _ => hn⟩, rfl⟩
    · rintro ⟨r, ⟨-, hr, h1, hne, hn⟩, rfl⟩
      exact ⟨_, mem_notices_offline.mpr ⟨r, hr, h1, hne, hn hst hd, rfl⟩, rfl, _, rfl⟩
  | relayed hst hd =>
    rw [← hall (chatLine (s.entry fd).1 (textOf data loc)) (by simp [hst]) fun _ => hd]
    simp [Server.record]

lemma Turn.text_of_ne (h : Turn s fd data loc s') {e : Sent}
    (he : e ∈ s'.sent.drop s.sent.length) (hne : e.dest ≠ fd) : ∃ m, e.message = .text m := by
  have hnotices : ∀ (t : Server) msg, e ∈ t.notices fd msg → ∃ m, e.message = .text m := by
    intro t msg hmem
    obtain ⟨r, -, -, -, rfl⟩ := mem_notices_iff.mp hmem
    exact ⟨msg, rfl⟩
  cases h with
  | dropped => simp [Server.del] at he
  | answered =>
    have hl : e ∈ [Sent.mk fd fd (.requestResponse
        (verdict s.usrs (requestOf data loc) fd loc.res).1)] := by
      simpa [Server.answer, Server.record, Server.setEntry, Server.setUsrs] using he
    obtain rfl := List.mem_singleton.mp hl
    exact absurd rfl hne
  | exited =>
    exact hnotices s _ (by
      simpa [Server.del, Server.offline, Server.setUsrs, Server.record] using he)
  | chose =>
    have hl : e ∈ Sent.mk fd fd (.optionResponse success) ::
        s.notices fd (isOnline (s.entry fd).1) := by
      simpa [Server.setEntry, Server.record] using he
    rcases List.mem_cons.mp hl with rfl | hl
    · exact absurd rfl hne
    · exact hnotices s _ hl
  | left =>
    refine hnotices (s.offline (s.entry fd).1) (isOffline (s.entry fd).1) ?_
    simpa [Server.del, Server.offline, Server.setUsrs, Server.record] using he
  | relayed => exact hnotices s _ (by simpa [Server.record] using he)

lemma Turn.live_of_sent (h : Turn s fd data loc s') (ht : Tracked s) {e : Sent}
    (he : e ∈ s'.sent.drop s.sent.length) (hne : e.dest ≠ fd) :
    ∃ r, Notified s fd data r ∧ r.sockfd = e.dest ∧ s.live e.dest = some r.username := by
  obtain ⟨m, hm⟩ := h.text_of_ne he hne
  obtain ⟨r, hr, hdest⟩ := (h.text_iff e.dest).mp ⟨e, he, rfl, m, hm⟩
  exact ⟨r, hr, hdest, hdest ▸ ht.seen hr.2.1 hr.2.2.1⟩

end

/-! ### Steps of the system -/

/-- The turn of the event notifies no connection between its login and its option. -/
def Alone (s : Server) : Event → Prop
  | .incoming _ => True
  | .readable fd data _ =>
    ∀ r ∈ s.usrs, Notified s fd data r → (s.entry r.sockfd).2 ≠ .authenticated

instance (s : Server) : (e : Event) → Decidable (Alone s e)
  | .incoming _ => isTrue trivial
  | .readable _ _ _ => inferInstanceAs (Decidable (∀ r ∈ s.usrs, _))

/-- A step in which no quote goes into a statement that matters. -/
structure Orderly (sql : Sqlite) (a : Action) (n n' : Network) : Prop where
  step : NetStep sql a n n'
  unquoted : ∀ e ∈ n.event a, Unquoted n.server e

section

variable {sql : Sqlite} {a : Action} {n n' : Network}

lemma Orderly.cases (hw : sql.Works) (h : Orderly sql a n n') :
    (n.event a = none ∧ n' = n.move a) ∨
      ∃ e, n.event a = some e ∧ Registered n.server e ∧
        n' = (n.move a).deliver (n.server.next e) := by
  have hstep := h.step.2
  cases he : n.event a with
  | none => exact .inl ⟨rfl, by simpa [he] using hstep⟩
  | some e =>
    simp only [he] at hstep
    obtain ⟨s', ⟨hreg, hrun⟩, rfl⟩ := hstep
    obtain rfl := handleEvent_next hw (h.unquoted e he) hrun
    exact .inr ⟨e, rfl, hreg, rfl⟩

lemma Orderly.tracked (hw : sql.Works) (h : Orderly sql a n n') (ht : Tracked n.server) :
    Tracked n'.server := by
  rcases h.cases hw with ⟨-, rfl⟩ | ⟨e, -, hreg, rfl⟩
  · rwa [move_server]
  · exact ht.next hreg

/-- Whoever has logged in on a connection that a turn notifies is online. -/
lemma Alone.online {s : Server} {fd g : Int32} {data : Bytes} {loc : Locals}
    (h : Alone s (.readable fd data loc)) {r : Row} (hr : Notified s fd data r)
    (hg : r.sockfd = g) {name : Bytes} (hl : s.live g = some name) :
    s.conList g = some (name, .online) := by
  subst hg
  obtain ⟨st, hst | rfl, hcon⟩ := live_eq_some.mp hl
  · exact absurd (by simp [Server.entry, hcon, hst]) (h r hr.2.1 hr)
  · exact hcon

end

/-! ### Agendas -/

def emptyNetwork : Network := ⟨emptyServer, fun _ => none, fun _ => [], fun _ => [], fun _ => []⟩

def unread : Locals := ⟨7, []⟩

/-- A client registers and reads the response. -/
def register (fd : Int32) (name : Bytes) : List Action :=
  [.connect fd, .request fd (requestBytes 2 name (bytes "pw")), .serve fd requestSize unread,
    .response fd 4]

/-- A client chooses its option and reads the response. -/
def choose (fd : Int32) : List Action :=
  [.option fd 1, .serve fd 1 unread, .optionResponse fd 4]

lemma Agenda.trace {sql : Sqlite} (hw : sql.Works) {P : Network → Action → Prop} {n : Network}
    {as : List Action} (h : Agenda P n as) (hk : Keys n.server) :
    Trace (fun a n n' => NetStep sql a n n' ∧ Ready n a ∧ P n a) n as
      (as.foldl Network.play n) := by
  induction as generalizing n with
  | nil => exact .nil
  | cons a as ih =>
    obtain ⟨hr, hP, has⟩ := h
    exact .cons ⟨hr.step hw hk, hr, hP⟩ (ih has (hr.keys hk))

end SelfTraining.Chat
