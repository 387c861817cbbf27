import SelfTraining.Chat.Handling
import SelfTraining.Lib.Steps

/-!
The sessions of the server: who is live, as `con_list` has it and as the table has it, and
that the two agree in every state the server can come to.
-/

namespace SelfTraining.Chat

open SelfTraining.Text SelfTraining.Steps

/-! ### Who is live -/

/-- The user of a connection that has logged in. -/
def Server.live (s : Server) (fd : Int32) : Option Bytes :=
  match s.conList fd with
  | some (name, .authenticated) => some name
  | some (name, .online) => some name
  | _ => none

/-- The table has the user online on this socket. -/
def Seen (t : Table) (name : Bytes) (fd : Int32) : Prop :=
  ∃ r ∈ t, r.username = name ∧ r.status = 1 ∧ r.sockfd = fd

lemma live_eq_some {s : Server} {fd : Int32} {name : Bytes} :
    s.live fd = some name ↔ ∃ st, (st = .authenticated ∨ st = .online) ∧
      s.conList fd = some (name, st) := by
  unfold Server.live
  rcases h : s.conList fd with _ | ⟨n, _ | _ | _⟩ <;> simp

lemma live_touch (s : Server) (fd : Int32) : (s.touch fd).live = s.live := by
  ext g : 1
  by_cases hg : g = fd
  · subst hg
    rcases h : s.conList g with _ | e <;>
      simp [Server.live, Server.touch, Server.setEntry, Server.entry, h]
  · simp [Server.live, Server.touch, Server.setEntry, hg]

lemma live_add (s : Server) (fd : Int32) : (s.add fd).live = s.live := live_touch s fd

lemma live_del (s : Server) (fd : Int32) : (s.del fd).live = Function.update s.live fd none := by
  ext g : 1
  by_cases hg : g = fd
  · subst hg; simp [Server.live, Server.del]
  · simp [Server.live, Server.del, hg]

lemma live_setEntry (s : Server) (fd : Int32) (name : Bytes) (st : State) :
    (s.setEntry fd (name, st)).live =
      Function.update s.live fd (if st = .request then none else some name) := by
  ext g : 1
  by_cases hg : g = fd
  · subst hg; cases st <;> simp [Server.live, Server.setEntry]
  · simp [Server.live, Server.setEntry, hg]

lemma live_of_entry {s : Server} {fd : Int32} (h : (s.entry fd).2 ≠ .request) :
    s.live fd = some (s.entry fd).1 := by
  unfold Server.entry at *
  unfold Server.live
  rcases hc : s.conList fd with _ | ⟨n, _ | _ | _⟩ <;> simp_all

lemma not_live_of_entry {s : Server} {fd : Int32} (h : (s.entry fd).2 = .request) :
    s.live fd = none := by
  unfold Server.entry at *
  unfold Server.live
  rcases hc : s.conList fd with _ | ⟨n, _ | _ | _⟩ <;> simp_all

lemma live_answer {s : Server} {fd : Int32} (hst : (s.entry fd).2 = .request) (msg : RequestMsg)
    (garbage : Response) : (s.answer fd msg garbage).live = Function.update s.live fd
      (if (verdict s.usrs msg fd garbage).1 = success then some msg.name else none) := by
  refine (live_setEntry (s.setUsrs _) fd msg.name _).trans ?_
  congr 1
  by_cases hres : (verdict s.usrs msg fd garbage).1 = success <;> simp [hres, hst]

/-! ### What the statements do to the table -/

lemma username_update (status sockfd : Int32) (name : Bytes) (t : Table) :
    ((Stmt.update status sockfd name).run t).map Row.username = t.map Row.username := by
  simp only [Stmt.run, List.map_map]
  refine List.map_congr_left fun r _ => ?_
  by_cases h : r.username = name <;> simp [h]

lemma mem_update {status sockfd : Int32} {name : Bytes} {t : Table} {r : Row} :
    r ∈ (Stmt.update status sockfd name).run t ↔
      ∃ r₀ ∈ t, r = if r₀.username = name then { r₀ with status := status, sockfd := sockfd }
        else r₀ := by
  simp only [Stmt.run, List.mem_map, eq_comm]

lemma seen_insert {t : Table} {n p : Bytes} {f : Int32} {name : Bytes} {fd : Int32} :
    Seen ((Stmt.insert n p 1 f).run t) name fd ↔ Seen t name fd ∨ (name = n ∧ fd = f) := by
  simp only [Seen, Stmt.run, List.mem_append, List.mem_singleton]
  constructor
  · rintro ⟨r, hr | rfl, h1, h2, h3⟩
    · exact .inl ⟨r, hr, h1, h2, h3⟩
    · exact .inr ⟨h1.symm, h3.symm⟩
  · rintro (⟨r, hr, h1, h2, h3⟩ | ⟨rfl, rfl⟩)
    · exact ⟨r, .inl hr, h1, h2, h3⟩
    · exact ⟨_, .inr rfl, rfl, rfl, rfl⟩

lemma seen_update {t : Table} {st : Int32} {n : Bytes} {f : Int32} {name : Bytes} {fd : Int32} :
    Seen ((Stmt.update st f n).run t) name fd ↔
      (name = n ∧ n ∈ t.map Row.username ∧ st = 1 ∧ f = fd) ∨ (name ≠ n ∧ Seen t name fd) := by
  simp only [Seen, mem_update, List.mem_map]
  constructor
  · rintro ⟨r, ⟨r₀, hr₀, rfl⟩, h1, h2, h3⟩
    by_cases hn : r₀.username = n
    · simp only [hn, if_true] at h1 h2 h3
      exact .inl ⟨h1.symm, ⟨r₀, hr₀, hn⟩, h2, h3⟩
    · simp only [hn, if_false] at h1 h2 h3
      exact .inr ⟨fun h => hn (h1.trans h), r₀, hr₀, h1, h2, h3⟩
  · rintro (⟨rfl, ⟨r₀, hr₀, hn⟩, rfl, rfl⟩ | ⟨hne, r₀, hr₀, h1, h2, h3⟩)
    · exact ⟨_, ⟨r₀, hr₀, rfl⟩, by simp [hn]⟩
    · have hn : r₀.username ≠ n := fun h => hne (h1.symm.trans h)
      exact ⟨r₀, ⟨r₀, hr₀, by simp [hn]⟩, h1, h2, h3⟩

lemma eq_of_username {t : Table} (h : (t.map Row.username).Nodup) {r r' : Row} (hr : r ∈ t)
    (hr' : r' ∈ t) (heq : r.username = r'.username) : r = r' :=
  List.inj_on_of_nodup_map h hr hr' heq

lemma userOf_eq_none {t : Table} {name : Bytes} :
    userOf t name = none ↔ name ∉ t.map Row.username := by
  simp [userOf, List.find?_eq_none]

lemma mem_of_userOf {t : Table} {name : Bytes} {r : Row} (h : userOf t name = some r) :
    r ∈ t ∧ r.username = name := by
  exact ⟨List.mem_of_find?_eq_some h, by simpa using List.find?_some h⟩

/-! ### The keys of `con_list` -/

def Listed (s : Server) : Prop := ∀ fd, fd ∈ s.epoll ↔ s.conList fd ≠ none

namespace Listed

variable {s : Server} {fd : Int32}

lemma setEntry (h : Listed s) {e : Bytes × State} (hfd : fd ∈ s.epoll) :
    Listed (s.setEntry fd e) := by
  intro g
  by_cases hgf : g = fd
  · simpa [Server.setEntry, hgf] using hfd
  · simpa [Server.setEntry, hgf] using h g

lemma add (h : Listed s) : Listed (s.add fd) := by
  intro g
  by_cases hgf : g = fd
  · simp [Server.add, Server.touch, Server.setEntry, hgf]
  · simpa [Server.add, Server.touch, Server.setEntry, hgf] using h g

lemma del (h : Listed s) : Listed (s.del fd) := by
  intro g
  by_cases hgf : g = fd
  · simp [Server.del, hgf]
  · simpa [Server.del, hgf] using h g

lemma turn (h : Listed s) (hfd : fd ∈ s.epoll) {data : Bytes} {loc : Locals} {s' : Server}
    (ht : Turn s fd data loc s') : Listed s' := by
  cases ht with
  | dropped => exact h.del
  | answered => exact setEntry h hfd
  | exited => exact del h
  | chose => exact setEntry h hfd
  | left => exact del h
  | relayed => exact h

end Listed

/-- The names in `con_list` hold no quote, and its keys are the registered sockets. -/
structure Keys (s : Server) : Prop where
  plain : ∀ fd e, s.conList fd = some e → Stmt.Plain e.1
  valid : ∀ fd ∈ s.epoll, fd ≠ -1
  listed : ∀ fd, fd ∈ s.epoll ↔ s.conList fd ≠ none

namespace Keys

variable {s : Server} {fd : Int32}

lemma setEntry (h : Keys s) {e : Bytes × State} (hp : Stmt.Plain e.1) (hfd : fd ∈ s.epoll) :
    Keys (s.setEntry fd e) where
  plain g e' hg := by
    by_cases hgf : g = fd
    · subst hgf
      have : e = e' := by simpa [Server.setEntry] using hg
      exact this ▸ hp
    · exact h.plain g e' (by simpa [Server.setEntry, hgf] using hg)
  valid := h.valid
  listed := Listed.setEntry h.listed hfd

lemma entry (h : Keys s) (fd : Int32) : Stmt.Plain (s.entry fd).1 := by
  unfold Server.entry
  cases hc : s.conList fd with
  | none => simp [Stmt.Plain]
  | some e => exact h.plain fd e hc

lemma add (h : Keys s) (hfd : fd ≠ -1) : Keys (s.add fd) where
  plain g e hg := by
    by_cases hgf : g = fd
    · subst hgf
      have : s.entry g = e := by simpa [Server.add, Server.touch, Server.setEntry] using hg
      exact this ▸ h.entry g
    · exact h.plain g e (by simpa [Server.add, Server.touch, Server.setEntry, hgf] using hg)
  valid g hg := by
    rcases Finset.mem_insert.mp hg with rfl | hg
    · exact hfd
    · exact h.valid g hg
  listed := Listed.add h.listed

lemma del (h : Keys s) : Keys (s.del fd) where
  plain g e hg := by
    by_cases hgf : g = fd
    · simp [Server.del, hgf] at hg
    · exact h.plain g e (by simpa [Server.del, hgf] using hg)
  valid g hg := h.valid g (Finset.mem_of_mem_erase hg)
  listed := Listed.del h.listed

lemma setUsrs (h : Keys s) (t : Table) : Keys (s.setUsrs t) := ⟨h.plain, h.valid, h.listed⟩

lemma record (h : Keys s) (l : List Sent) : Keys (s.record l) := ⟨h.plain, h.valid, h.listed⟩

lemma turn (h : Keys s) (hfd : fd ∈ s.epoll) {data : Bytes} {loc : Locals} {s' : Server}
    (ht : Turn s fd data loc s') (hq : Quoteless s (.readable fd data loc)) : Keys s' := by
  cases ht with
  | dropped => exact h.del
  | answered hst hd =>
    simp only [Quoteless, hst] at hq
    have ht := h.setUsrs (verdict s.usrs (requestOf data loc) fd loc.res).2
    exact (ht.setEntry (e := (_, _)) (hq hd).1 hfd).record _
  | exited => exact ((h.record _).setUsrs _).del
  | chose => exact (h.record _).setEntry (h.entry fd) hfd
  | left => exact ((h.setUsrs _).record _).del
  | relayed => exact h.record _

end Keys

/-- A request that the event delivers holds no quote. -/
def PlainRequest (s : Server) : Event → Prop
  | .incoming _ => True
  | .readable fd data loc => (s.entry fd).2 = .request → data ≠ [] →
    Stmt.Plain (requestOf data loc).name ∧ Stmt.Plain (requestOf data loc).pass

lemma Keys.quoteless {s : Server} (h : Keys s) {e : Event} (he : PlainRequest s e) :
    Quoteless s e := by
  cases e with
  | incoming accepted => trivial
  | readable fd data loc =>
    have hp := h.entry fd
    cases hst : (s.entry fd).2 with
    | request => simpa only [Quoteless, hst] using fun hd => he hst hd
    | authenticated => simpa only [Quoteless, hst] using hp
    | online => simpa only [Quoteless, hst] using hp

lemma Keys.next {s : Server} (h : Keys s) {e : Event} (he : PlainRequest s e)
    (hr : Registered s e) : Keys (s.next e) := by
  cases e with
  | incoming accepted => exact h.add (accept_ne accepted)
  | readable fd data loc => exact h.turn hr (next_turn s fd data loc) (h.quoteless he)

/-! ### The invariant -/

/-- The table and `con_list` tell the same story. -/
structure Consistent (s : Server) : Prop extends Keys s where
  unique : (s.usrs.map Row.username).Nodup
  status : ∀ r ∈ s.usrs, r.status = 0 ∨ r.status = 1
  agree : ∀ name fd, Seen s.usrs name fd ↔ s.live fd = some name

/-- The events of the server. A request is a login or a registration, and its name and
password hold no quote. -/
def Allowed (s : Server) : Event → Prop
  | .incoming _ => True
  | .readable fd data loc => (s.entry fd).2 = .request → data ≠ [] →
    ((requestOf data loc).option = 1 ∨ (requestOf data loc).option = 2) ∧
      Stmt.Plain (requestOf data loc).name ∧ Stmt.Plain (requestOf data loc).pass

lemma Allowed.plainRequest {s : Server} {e : Event} (h : Allowed s e) : PlainRequest s e := by
  cases e with
  | incoming accepted => trivial
  | readable fd data loc => exact fun hst hd => (h hst hd).2

section Agreement

variable {s : Server} {fd : Int32}

namespace Consistent

lemma one_connection (h : Consistent s) {name : Bytes} {f g : Int32} (hf : s.live f = some name)
    (hg : s.live g = some name) : f = g := by
  obtain ⟨r, hr, hn, -, rfl⟩ := (h.agree name f).mpr hf
  obtain ⟨r', hr', hn', -, rfl⟩ := (h.agree name g).mpr hg
  rw [eq_of_username h.unique hr hr' (hn.trans hn'.symm)]

lemma update (h : Consistent s) (n : Bytes) {status : Int32} (sockfd : Int32)
    (hstatus : status = 0 ∨ status = 1) :
    (((Stmt.update status sockfd n).run s.usrs).map Row.username).Nodup ∧
      ∀ r ∈ (Stmt.update status sockfd n).run s.usrs, r.status = 0 ∨ r.status = 1 := by
  refine ⟨by rw [username_update]; exact h.unique, fun r hr => ?_⟩
  obtain ⟨r₀, hr₀, rfl⟩ := mem_update.mp hr
  by_cases hn : r₀.username = n
  · simpa [hn] using hstatus
  · simpa [hn] using h.status r₀ hr₀

lemma offline (h : Consistent s) {n : Bytes} (hl : s.live fd = some n) (name : Bytes)
    (g : Int32) : Seen ((Stmt.update 0 (-1) n).run s.usrs) name g ↔
      Function.update s.live fd none g = some name := by
  rw [seen_update, h.agree]
  by_cases hg : g = fd
  · subst hg
    simp [hl, eq_comm]
  · have hne : s.live g = some name → name ≠ n := by
      rintro hname rfl
      exact hg (h.one_connection hname hl)
    simpa [hg] using hne

lemma gone (h : Consistent s) (hl : (s.entry fd).2 ≠ .request) {s' : Server} (hk : Keys s')
    (husrs : s'.usrs = (Stmt.update 0 (-1) (s.entry fd).1).run s.usrs)
    (hlive : s'.live = Function.update s.live fd none) : Consistent s' := by
  obtain ⟨hunique, hstatus⟩ := h.update (s.entry fd).1 (-1) (.inl rfl)
  refine { hk with unique := husrs ▸ hunique, status := husrs ▸ hstatus, agree := ?_ }
  rw [husrs, hlive]
  exact h.offline (live_of_entry hl)

lemma login (h : Consistent s) {n : Bytes} {t : Table} (hl : s.live fd = none)
    (hseen : ∀ name g, Seen t name g ↔ (name = n ∧ g = fd) ∨ (name ≠ n ∧ Seen s.usrs name g))
    (hoff : ∀ g, ¬ Seen s.usrs n g) (name : Bytes) (g : Int32) :
    Seen t name g ↔ Function.update s.live fd (some n) g = some name := by
  rw [hseen, h.agree]
  by_cases hg : g = fd
  · subst hg
    simp [hl, eq_comm]
  · have hne : s.live g = some name → name ≠ n := by
      rintro hname rfl
      exact hoff g ((h.agree name g).mpr hname)
    simpa [hg] using hne

lemma add (h : Consistent s) (hfd : fd ≠ -1) : Consistent (s.add fd) where
  toKeys := h.toKeys.add hfd
  unique := h.unique
  status := h.status
  agree := by rw [live_add]; exact h.agree

lemma registered (h : Consistent s) (hst : (s.entry fd).2 = .request) {msg : RequestMsg}
    {garbage : Response} (hk : Keys (s.answer fd msg garbage))
    (hu : userOf s.usrs msg.name = none)
    (hv : verdict s.usrs msg fd garbage =
      (success, (Stmt.insert msg.name msg.pass 1 fd).run s.usrs)) :
    Consistent (s.answer fd msg garbage) := by
  have hlive := live_answer hst msg garbage
  have husrs : (s.answer fd msg garbage).usrs = (Stmt.insert msg.name msg.pass 1 fd).run s.usrs :=
    congrArg Prod.snd hv
  rw [userOf_eq_none] at hu
  rw [hv] at hlive
  refine { hk with unique := ?_, status := ?_, agree := ?_ }
  · rw [husrs]
    simpa [Stmt.run, List.nodup_append] using ⟨h.unique, by simpa using hu⟩
  · rw [husrs]
    intro r hr
    rcases List.mem_append.mp hr with hr | hr
    · exact h.status r hr
    · simp_all
  · rw [husrs, hlive]
    have hoff : ∀ g, ¬ Seen s.usrs msg.name g := by
      rintro g ⟨r, hr, hn, -⟩
      exact hu (List.mem_map.mpr ⟨r, hr, hn⟩)
    refine h.login (not_live_of_entry hst) (fun name g => ?_) hoff
    rw [seen_insert, or_comm]
    refine or_congr_right (iff_and_self.mpr ?_)
    rintro hs rfl
    exact hoff g hs

/-- A login: the row of the user was offline, and it is the only one of its name. -/
lemma loggedIn (h : Consistent s) (hst : (s.entry fd).2 = .request) {msg : RequestMsg}
    {garbage : Response} (hk : Keys (s.answer fd msg garbage)) {row : Row}
    (hu : userOf s.usrs msg.name = some row) (h0 : row.status = 0)
    (hv : verdict s.usrs msg fd garbage = (success, (Stmt.update 1 fd msg.name).run s.usrs)) :
    Consistent (s.answer fd msg garbage) := by
  have hlive := live_answer hst msg garbage
  have husrs : (s.answer fd msg garbage).usrs = (Stmt.update 1 fd msg.name).run s.usrs :=
    congrArg Prod.snd hv
  obtain ⟨hmem, hname⟩ := mem_of_userOf hu
  obtain ⟨hunique, hstatus⟩ := h.update msg.name fd (.inr rfl)
  rw [hv] at hlive
  refine { hk with unique := husrs ▸ hunique, status := husrs ▸ hstatus, agree := ?_ }
  rw [husrs, hlive]
  refine h.login (not_live_of_entry hst) (fun name g => ?_) ?_
  · have hin : msg.name ∈ s.usrs.map Row.username := List.mem_map.mpr ⟨row, hmem, hname⟩
    rw [seen_update]
    simp [hin, eq_comm]
  · rintro g ⟨r, hr, hn, h1, -⟩
    rw [eq_of_username h.unique hr hmem (hn.trans hname.symm), h0] at h1
    simp at h1

lemma answer (h : Consistent s) (hst : (s.entry fd).2 = .request) {msg : RequestMsg}
    (hopt : msg.option = 1 ∨ msg.option = 2) {garbage : Response}
    (hk : Keys (s.answer fd msg garbage)) : Consistent (s.answer fd msg garbage) := by
  rcases verdict_cases s.usrs msg fd garbage with ⟨-, hu, hv⟩ | ⟨-, ⟨row, hu, -, h0⟩, hv⟩ | ⟨ht, hv⟩
  · exact h.registered hst hk hu hv
  · exact h.loggedIn hst hk hu h0 hv
  · -- anything else is no success, so nothing changes
    have hl := not_live_of_entry hst
    have hlive := live_answer hst msg garbage
    have hres : (verdict s.usrs msg fd garbage).1 ≠ success := by
      refine hv.resolve_right fun hun => ?_
      rcases hun.1 with ⟨h1, h2⟩ | ⟨-, row, hu, -, h0, h1⟩
      · exact hopt.elim h1 h2
      · exact (h.status row (mem_of_userOf hu).1).elim h0 h1
    have husrs : (s.answer fd msg garbage).usrs = s.usrs := ht
    rw [if_neg hres, ← hl, Function.update_eq_self] at hlive
    exact { hk with
      unique := husrs ▸ h.unique
      status := husrs ▸ h.status
      agree := by rw [husrs, hlive]; exact h.agree }

lemma turn (h : Consistent s) {data : Bytes} {loc : Locals} {s' : Server}
    (he : Allowed s (.readable fd data loc)) (hk : Keys s') (ht : Turn s fd data loc s') :
    Consistent s' := by
  cases ht with
  | dropped hst =>
    refine { hk with unique := h.unique, status := h.status, agree := ?_ }
    rw [live_del, ← not_live_of_entry hst, Function.update_eq_self]
    exact h.agree
  | answered hst hd => exact h.answer hst (he hst hd).1 hk
  | exited hst => exact h.gone (by simp [hst]) hk rfl (live_del _ _)
  | chose hst =>
    refine { hk with unique := h.unique, status := h.status, agree := ?_ }
    rw [live_setEntry, if_neg (by simp), ← live_of_entry (by simp [hst])]
    exact (Function.update_eq_self fd s.live).symm ▸ h.agree
  | left hst => exact h.gone (by simp [hst]) hk rfl (live_del _ _)
  | relayed => exact { hk with unique := h.unique, status := h.status, agree := h.agree }

/-- Every event keeps the two sides in agreement. -/
theorem next (h : Consistent s) {e : Event} (he : Allowed s e)
    (hr : Registered s e) : Consistent (s.next e) := by
  cases e with
  | incoming accepted => exact h.add (accept_ne accepted)
  | readable fd data loc =>
    have ht := next_turn s fd data loc
    exact h.turn he (h.toKeys.turn hr ht (h.toKeys.quoteless he.plainRequest)) ht

end Consistent

end Agreement

/-! ### Runs -/

/-- A server that has just started, on a table in which everybody is offline. -/
structure Fresh (s : Server) : Prop where
  conList : s.conList = fun _ => none
  epoll : s.epoll = ∅
  unique : (s.usrs.map Row.username).Nodup
  offline : ∀ r ∈ s.usrs, r.status = 0

lemma Fresh.consistent {s : Server} (h : Fresh s) : Consistent s where
  plain fd e he := by simp [h.conList] at he
  valid fd he := by simp [h.epoll] at he
  listed fd := by simp [h.epoll, h.conList]
  unique := h.unique
  status r hr := .inl (h.offline r hr)
  agree name fd := by
    have hl : s.live fd = none := by simp [Server.live, h.conList]
    rw [hl]
    refine ⟨?_, by simp⟩
    rintro ⟨r, hr, -, h1, -⟩
    rw [h.offline r hr] at h1
    simp at h1

/-- The server handles an event of those it is meant for. -/
def SessionEvent (sql : Sqlite) (e : Event) (s s' : Server) : Prop := Allowed s e ∧ Step sql e s s'

def SessionStep (sql : Sqlite) (s s' : Server) : Prop := ∃ e, SessionEvent sql e s s'

lemma SessionEvent.eq_next {sql : Sqlite} (hw : sql.Works) {e : Event} {s s' : Server}
    (h : SessionEvent sql e s s') (hk : Keys s) : s' = s.next e := by
  have hrun := h.2.2
  rw [handleEvent_eq hw (hk.quoteless h.1.plainRequest)] at hrun
  simpa [eq_comm] using hrun

lemma SessionStep.consistent {sql : Sqlite} (hw : sql.Works) {s s' : Server}
    (h : SessionStep sql s s') (hc : Consistent s) : Consistent s' := by
  obtain ⟨e, he⟩ := h
  obtain rfl := he.eq_next hw hc.toKeys
  exact hc.next he.1 he.2.1

/-- **Session consistency.** Whatever events the server handles from its start on, in every
state it comes to: usernames are unique; a user is online on a socket in the table exactly
when the connection of that socket has logged in as that user; so no user is live on two
connections and no connection has two users; and `SetAllUsersOffline` leaves every row
offline. -/
theorem session_consistent {sql : Sqlite} (hw : sql.Works) {s₀ s : Server} (h0 : Fresh s₀)
    (h : Reaches (SessionStep sql) s₀ s) :
    (s.usrs.map Row.username).Nodup ∧
    (∀ name fd, Seen s.usrs name fd ↔
      s.conList fd = some (name, .authenticated) ∨ s.conList fd = some (name, .online)) ∧
    (∀ name f g, Seen s.usrs name f → Seen s.usrs name g → f = g) ∧
    (∀ n n' fd, Seen s.usrs n fd → Seen s.usrs n' fd → n = n') ∧
    ∃ t, setAllUsersOffline sql s.usrs = .ok (true, t) ∧ ∀ r ∈ t, r.status = 0 := by
  have hc : Consistent s :=
    h.invariant h0.consistent fun u v hu huv => huv.consistent hw hu
  refine ⟨hc.unique, fun name fd => ?_, fun name f g hf hg => ?_, fun n n' fd hn hn' => ?_, ?_⟩
  · refine (hc.agree name fd).trans (live_eq_some.trans ?_)
    simp only [or_and_right, exists_or, exists_eq_left]
  · exact hc.one_connection ((hc.agree name f).mp hf) ((hc.agree name g).mp hg)
  · have hl := (hc.agree n fd).mp hn
    rw [(hc.agree n' fd).mp hn'] at hl
    exact (Option.some.inj hl).symm
  · refine ⟨_, execute_eq hw s.usrs .setOffline trivial, fun r hr => ?_⟩
    obtain ⟨r₀, hr₀, rfl⟩ := List.mem_map.mp hr
    by_cases hf : r₀.sockfd = -1
    · -- a row that is online names a descriptor, so this one was offline already
      simp only [hf, ne_eq, not_true_eq_false, if_false]
      refine (hc.status r₀ hr₀).resolve_right fun h1 => ?_
      have hl := (hc.agree r₀.username (-1)).mp ⟨r₀, hr₀, rfl, h1, hf⟩
      obtain ⟨st, -, hcon⟩ := live_eq_some.mp hl
      exact hc.valid (-1) ((hc.listed (-1)).mpr (by simp [hcon])) rfl
    · simp [hf]

instance (s : Server) : (e : Event) → Decidable (Allowed s e)
  | .incoming _ => isTrue trivial
  | .readable _ _ _ => inferInstanceAs (Decidable (_ → _ → _))

/-- The events come one after the other, each allowed when it comes. -/
def Schedule (s : Server) : List Event → Prop
  | [] => True
  | e :: es => Allowed s e ∧ Registered s e ∧ Schedule (s.next e) es

instance : (s : Server) → (es : List Event) → Decidable (Schedule s es)
  | _, [] => isTrue trivial
  | s, e :: es =>
    have : Decidable (Schedule (s.next e) es) := instDecidableSchedule (s.next e) es
    inferInstanceAs (Decidable (_ ∧ _ ∧ _))

lemma Schedule.trace {sql : Sqlite} (hw : sql.Works) {s : Server} {es : List Event}
    (h : Schedule s es) (hc : Consistent s) :
    Trace (SessionEvent sql) s es (es.foldl Server.next s) := by
  induction es generalizing s with
  | nil => exact .nil
  | cons e es ih =>
    obtain ⟨ha, hr, hes⟩ := h
    have hstep := handleEvent_eq hw (hc.toKeys.quoteless ha.plainRequest)
    exact .cons ⟨ha, hr, hstep⟩ (ih hes (hc.next ha hr))

/-- The server before any connection, with nobody registered. -/
def emptyServer : Server := ⟨fun _ => none, ∅, [], []⟩

lemma emptyServer_fresh : Fresh emptyServer :=
  ⟨rfl, rfl, by simp [emptyServer], by simp [emptyServer]⟩

/-- A user registers over descriptor 5 and is seen there. -/
theorem session_consistent_registration : ∃ s : Server,
    s.conList 5 = some (bytes "al", .authenticated) ∧ Seen s.usrs (bytes "al") 5 := by
  let es : List Event :=
    [.incoming 5, .readable 5 (requestBytes 2 (bytes "al") (bytes "pw")) ⟨7, []⟩]
  have hes : Schedule emptyServer es := by decide +kernel
  have hrun := (hes.trace Sqlite.reference_works emptyServer_fresh.consistent).reaches
  have h5 : (es.foldl Server.next emptyServer).conList 5 = some (bytes "al", .authenticated) := by
    decide +kernel
  exact ⟨_, h5, ((session_consistent Sqlite.reference_works emptyServer_fresh hrun).2.1 _ 5).mpr
    (.inl h5)⟩

end SelfTraining.Chat
