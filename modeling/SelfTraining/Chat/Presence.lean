import SelfTraining.Chat.Authentication
import SelfTraining.Chat.Failures

/-!
The notices of who is online and who is offline.

A user who chooses an option is announced, and one who leaves while online is taken back. One
who leaves between the login and the option is taken back without having been announced. The
rows of a user who is logged in keep a second login out, so that at most one connection of a
name is announced at a time.
-/

namespace SelfTraining.Chat

open SelfTraining.Text SelfTraining.Steps

/-! ### Broadcasts -/

/-- What `NotifyToOnelineUser` is called for. -/
inductive Broadcast where
  | notice (name : Bytes) (online : Bool)
  | line (name text : Bytes)

def Broadcast.text : Broadcast → Bytes
  | .notice name true => isOnline name
  | .notice name false => isOffline name
  | .line name text => chatLine name text

/-- The broadcast that an event leads to, by the state of its connection. -/
def broadcast (s : Server) : Event → Option Broadcast
  | .incoming _ => none
  | .readable fd data loc =>
    match s.entry fd with
    | (_, .request) => none
    | (name, .authenticated) => some (.notice name (¬ Leaves data loc))
    | (name, .online) =>
      if data = [] then some (.notice name false) else some (.line name (textOf data loc))

/-- Every text that the server sends is that of the event's broadcast. -/
theorem text_of_sent {sql : Sqlite} {s s' : Server} {e : Event} (h : Step sql e s s') {x : Sent}
    (hx : x ∈ s'.sent.drop s.sent.length) {m : Bytes} (hm : x.message = .text m) :
    (broadcast s e).map Broadcast.text = some m := by
  cases e with
  | incoming accepted =>
    obtain rfl : s.add (accept accepted) = s' := by simpa [handleEvent, accept_ne] using h.2
    simp [Server.add, Server.touch, Server.setEntry] at hx
  | readable fd data loc =>
    obtain ⟨l, y, t, hserved, hafter⟩ := handleSingleSocketCon_served h.2
    rw [hafter.sent, List.drop_left] at hx
    have htext : ∀ {text l}, Texts fd text l → x ∈ l → text = m := by
      intro text l ht hxl
      rw [(ht x hxl).2.2] at hm
      simpa using hm
    unfold broadcast
    rcases hentry : s.entry fd with ⟨name, st⟩
    cases hserved with
    | dropped => simp at hx
    | answered =>
      obtain rfl := List.mem_singleton.mp hx
      cases hm
    | exited hst hl ht =>
      obtain rfl : st = .authenticated := by simpa [hentry] using hst
      simpa [hl, Broadcast.text, hentry] using htext ht hx
    | chose hst hl ht =>
      obtain rfl : st = .authenticated := by simpa [hentry] using hst
      rcases List.mem_cons.mp hx with rfl | hx
      · cases hm
      · simpa [hl, Broadcast.text, hentry] using htext ht hx
    | left hst hd ht =>
      obtain rfl : st = .online := by simpa [hentry] using hst
      simpa [hd, Broadcast.text, hentry] using htext ht hx
    | relayed hst hd ht =>
      obtain rfl : st = .online := by simpa [hentry] using hst
      simpa [hd, Broadcast.text, hentry] using htext ht hx

/-! ### Runs -/

/-- An event with the server that handles it. -/
structure Handling where
  server : Server
  event : Event

/-- The notice about a user that a handling broadcasts: whether it says online. -/
def Handling.notice (name : Bytes) (h : Handling) : Option Bool :=
  match broadcast h.server h.event with
  | some (.notice n online) => if n = name then some online else none
  | _ => none

/-- The notices about a user in a run. -/
def notices (name : Bytes) (hs : List Handling) : List Bool := hs.filterMap (Handling.notice name)

/-- Online at the even places, offline at the odd ones. -/
def Alternates (l : List Bool) : Prop := ∀ i b, l[i]? = some b → b = decide (i % 2 = 0)

/-- The user leaves after the login, in place of an option. -/
def Handling.LeavesEarly (name : Bytes) (h : Handling) : Prop :=
  ∃ fd data loc, h.event = .readable fd data loc ∧ h.server.entry fd = (name, .authenticated) ∧
    Leaves data loc

/-- A request without quotes that is not answered by chance; if it is a login, the update of its
row does not fail. -/
def Sober (sql : Sqlite) (s : Server) (fd : Int32) (msg : RequestMsg) (garbage : Response) : Prop :=
  QuoteFree msg ∧ ¬ ByChance sql s.usrs msg garbage ∧
    ¬ (msg.option = 1 ∧ WriteFails sql s.usrs msg fd)

/-- The server handles an event, with statements failing or not; the requests are sober. -/
def PresenceStep (h : Handling) (s s' : Server) : Prop :=
  h.server = s ∧ ∃ sql : Sqlite, sql.Faithful ∧ Step sql h.event s s' ∧
    ∀ fd data loc, h.event = .readable fd data loc → (s.entry fd).2 = .request → data ≠ [] →
      Sober sql s fd (requestOf data loc) loc.res

/-! ### One connection a name -/

/-- A name is live on one connection at most, and then a login finds its rows taken. -/
structure Exclusive (s : Server) : Prop where
  one : ∀ f g name, s.live f = some name → s.live g = some name → f = g
  plain : ∀ f name, s.live f = some name → Stmt.Plain name
  taken : ∀ f name, s.live f = some name →
    name ∈ s.usrs.map Row.username ∧ ∀ r ∈ s.usrs, r.username = name → r.status ≠ 0

/-- The user of an entry that has logged in. -/
def userOfEntry : Option (Bytes × State) → Option Bytes
  | some (name, .authenticated) => some name
  | some (name, .online) => some name
  | _ => none

section

variable {sql : Sqlite} {s s' : Server} {fd : Int32} {msg : RequestMsg} {garbage : Response}
  {name : Bytes} {t : Table}

lemma live_of_update {x : Option (Bytes × State)}
    (h : s'.conList = Function.update s.conList fd x) :
    s'.live = Function.update s.live fd (userOfEntry x) := by
  ext g : 1
  by_cases hg : g = fd
  · subst hg
    simp only [Server.live, h, Function.update_self]
    rcases x with _ | ⟨n, _ | _ | _⟩ <;> rfl
  · simp [Server.live, h, hg]

lemma Exclusive.gone (h : Exclusive s) (hlive : s'.live = Function.update s.live fd none)
    (husrs : ∀ g name, g ≠ fd → s.live g = some name →
      name ∈ s'.usrs.map Row.username ∧ ∀ r ∈ s'.usrs, r.username = name → r.status ≠ 0) :
    Exclusive s' := by
  have hold : ∀ {g name}, s'.live g = some name → g ≠ fd ∧ s.live g = some name := by
    intro g name hg
    rw [hlive] at hg
    by_cases hne : g = fd
    · subst hne
      simp at hg
    · exact ⟨hne, by rwa [Function.update_of_ne hne] at hg⟩
  exact ⟨fun f g name hf hg => h.one f g name (hold hf).2 (hold hg).2,
    fun f name hf => h.plain f name (hold hf).2,
    fun f name hf => husrs f name (hold hf).1 (hold hf).2⟩

lemma Exclusive.login (h : Exclusive s) (hlive : s'.live = Function.update s.live fd (some name))
    (hplain : Stmt.Plain name) (hno : ∀ g, s.live g ≠ some name)
    (hnew : name ∈ s'.usrs.map Row.username ∧ ∀ r ∈ s'.usrs, r.username = name → r.status ≠ 0)
    (hothers : ∀ g name', name' ≠ name → s.live g = some name' →
      name' ∈ s'.usrs.map Row.username ∧ ∀ r ∈ s'.usrs, r.username = name' → r.status ≠ 0) :
    Exclusive s' := by
  have hcases : ∀ {g name'}, s'.live g = some name' →
      g = fd ∧ name' = name ∨ g ≠ fd ∧ name' ≠ name ∧ s.live g = some name' := by
    intro g name' hg
    rw [hlive] at hg
    by_cases hne : g = fd
    · subst hne
      exact .inl ⟨rfl, by simpa [eq_comm] using hg⟩
    · rw [Function.update_of_ne hne] at hg
      refine .inr ⟨hne, ?_, hg⟩
      rintro rfl
      exact hno g hg
  refine ⟨fun f g name' hf hg => ?_, fun f name' hf => ?_, fun f name' hf => ?_⟩
  · rcases hcases hf with ⟨rfl, rfl⟩ | ⟨-, hf, hfl⟩
    · rcases hcases hg with ⟨rfl, -⟩ | ⟨-, hg, -⟩
      · rfl
      · exact absurd rfl hg
    · rcases hcases hg with ⟨-, rfl⟩ | ⟨-, -, hgl⟩
      · exact absurd rfl hf
      · exact h.one f g name' hfl hgl
  · rcases hcases hf with ⟨-, rfl⟩ | ⟨-, -, hfl⟩
    · exact hplain
    · exact h.plain f name' hfl
  · rcases hcases hf with ⟨-, rfl⟩ | ⟨-, hne, hfl⟩
    · exact hnew
    · exact hothers f name' hne hfl

/-- What a sober request comes to: a registration of a new name, a login of a user whose first
row was offline, or no success and no change. -/
lemma sober_cases (hf : sql.Faithful) (hs : Sober sql s fd msg garbage) {res : Response}
    (h : checkUserInfo sql msg fd garbage s = .ok res (s.setUsrs t)) :
    res = success ∧ Stmt.Plain msg.name ∧
        (userOf s.usrs msg.name = none ∧ t = (Stmt.insert msg.name msg.pass 1 fd).run s.usrs ∨
          (∃ row, userOf s.usrs msg.name = some row ∧ row.status = 0) ∧
            t = (Stmt.update 1 fd msg.name).run s.usrs) ∨
      res ≠ success ∧ t = s.usrs := by
  obtain ⟨hq, hchance, hfail⟩ := hs
  obtain ⟨answer, t', hquery, ht, hout⟩ := checkUserInfo_ok h
  obtain rfl : t = t' := congrArg Server.usrs ht
  have hanswer : msg.option = 1 ∨ msg.option = 2 →
      answer = (userOf s.usrs msg.name).map fun r => (r.password, r.status, r.sockfd) :=
    fun ho => queryUserInfo_sound hf (hq.1 ho) hquery
  have hchance' : ∀ {res}, Unassigned s.usrs msg → garbage = res → res ≠ success :=
    fun hun hres hsuccess => hchance ⟨⟨_, hquery⟩, hun, hres.trans hsuccess⟩
  cases hout with
  | @registered done t h2 hadd =>
    have hplain := hq.1 (.inr h2)
    have hquoteless : (Stmt.insert msg.name msg.pass 1 fd).Quoteless := ⟨hplain, hq.2 h2⟩
    have hrun := execute_sound hf hquoteless hadd
    have hnone : userOf s.usrs msg.name = none := by simpa [eq_comm] using hanswer (.inr h2)
    cases done with
    | false => exact .inr ⟨by decide, hrun⟩
    | true => exact .inl ⟨rfl, hplain, .inl ⟨hnone, hrun⟩⟩
  | @loggedIn sockfd done t h1 hup =>
    have hplain := hq.1 (.inl h1)
    have hquoteless : (Stmt.update 1 fd msg.name).Quoteless := hplain
    have hrun := execute_sound hf hquoteless hup
    obtain ⟨row, hu, hrow⟩ := Option.map_eq_some_iff.mp (hanswer (.inl h1)).symm
    have hdone : done = true := by
      by_contra hne
      have hexec := (execute_eq_ok hup).2.1.mpr (by simpa using hne)
      refine hfail ⟨h1, .update 1 fd msg.name, ?_, .inr hexec⟩
      simp [(queryUserInfo_eq_ok.mp hquery).2.2, statementOf, h1]
    subst hdone
    exact .inl ⟨rfl, hplain, .inr ⟨⟨row, hu, congrArg (·.2.1) hrow⟩, hrun⟩⟩
  | refused hne => exact .inr ⟨hne, rfl⟩
  | unknownOption h1 h2 => exact .inr ⟨hchance' (.inl ⟨h1, h2⟩) rfl, rfl⟩
  | unknownStatus h1 h0 hs1 =>
    obtain ⟨row, hu, hrow⟩ := Option.map_eq_some_iff.mp (hanswer (.inl h1)).symm
    obtain ⟨hp, rfl, -⟩ : row.password = msg.pass ∧ row.status = _ ∧ _ := by simpa using hrow
    exact .inr ⟨hchance' (.inr ⟨h1, row, hu, hp.symm, h0, hs1⟩) rfl, rfl⟩

lemma Exclusive.taken_update (h : Exclusive s) (hf : sql.Faithful) {n : Bytes} {done : Bool}
    (hn : Stmt.Plain n) (hup : updateUserStatus sql s.usrs n 0 (-1) = .ok (done, t)) {g : Int32}
    (hg : s.live g = some name) (hne : name ≠ n) :
    name ∈ t.map Row.username ∧ ∀ r ∈ t, r.username = name → r.status ≠ 0 := by
  obtain ⟨hmem, hstatus⟩ := h.taken g name hg
  have hquoteless : (Stmt.update 0 (-1) n).Quoteless := hn
  have hrun := execute_sound hf hquoteless hup
  cases done with
  | false =>
    obtain rfl : t = s.usrs := hrun
    exact ⟨hmem, hstatus⟩
  | true =>
    obtain rfl : t = (Stmt.update 0 (-1) n).run s.usrs := hrun
    refine ⟨by rwa [username_update], fun r hr hname => ?_⟩
    obtain ⟨r₀, hr₀, rfl⟩ := mem_update.mp hr
    by_cases hrn : r₀.username = n
    · rw [if_pos hrn] at hname
      exact absurd (hname.symm.trans hrn) hne
    · rw [if_neg hrn] at hname ⊢
      exact hstatus r₀ hr₀ hname

lemma Exclusive.registered (h : Exclusive s) (hplain : Stmt.Plain msg.name)
    (hu : userOf s.usrs msg.name = none)
    (husrs : s'.usrs = (Stmt.insert msg.name msg.pass 1 fd).run s.usrs)
    (hlive : s'.live = Function.update s.live fd (some msg.name)) : Exclusive s' := by
  have hfresh := userOf_eq_none.mp hu
  refine h.login hlive hplain (fun g hg => hfresh (h.taken g _ hg).1) ?_ fun g name' hne hg => ?_
  · rw [husrs]
    refine ⟨by simp [Stmt.run], fun r hr hname => ?_⟩
    rcases List.mem_append.mp hr with hr | hr
    · exact absurd (List.mem_map.mpr ⟨r, hr, hname⟩) hfresh
    · simp_all
  · obtain ⟨hmem, hstatus⟩ := h.taken g name' hg
    rw [husrs]
    refine ⟨by simpa [Stmt.run] using .inl (by simpa using hmem), fun r hr hname => ?_⟩
    rcases List.mem_append.mp hr with hr | hr
    · exact hstatus r hr hname
    · obtain rfl := List.mem_singleton.mp hr
      exact absurd hname.symm hne

lemma Exclusive.loggedIn (h : Exclusive s) (hplain : Stmt.Plain msg.name) {row : Row}
    (hu : userOf s.usrs msg.name = some row) (h0 : row.status = 0)
    (husrs : s'.usrs = (Stmt.update 1 fd msg.name).run s.usrs)
    (hlive : s'.live = Function.update s.live fd (some msg.name)) : Exclusive s' := by
  obtain ⟨hrow, hname⟩ := mem_of_userOf hu
  refine h.login hlive hplain (fun g hg => (h.taken g _ hg).2 row hrow hname h0) ?_
    fun g name' hne hg => ?_
  · rw [husrs]
    refine ⟨?_, fun r hr hname' => ?_⟩
    · rw [username_update]
      exact List.mem_map.mpr ⟨row, hrow, hname⟩
    · obtain ⟨r₀, -, rfl⟩ := mem_update.mp hr
      by_cases hrn : r₀.username = msg.name
      · simp [hrn]
      · rw [if_neg hrn] at hname'
        exact absurd hname' hrn
  · obtain ⟨hmem, hstatus⟩ := h.taken g name' hg
    rw [husrs]
    refine ⟨by rwa [username_update], fun r hr hname' => ?_⟩
    obtain ⟨r₀, hr₀, rfl⟩ := mem_update.mp hr
    by_cases hrn : r₀.username = msg.name
    · rw [if_pos hrn] at hname'
      exact absurd (hname'.symm.trans hrn) hne
    · rw [if_neg hrn] at hname' ⊢
      exact hstatus r₀ hr₀ hname'

lemma Exclusive.congr (h : Exclusive s) (hlive : s'.live = s.live) (husrs : s'.usrs = s.usrs) :
    Exclusive s' := by
  obtain ⟨h1, h2, h3⟩ := h
  refine ⟨?_, ?_, ?_⟩ <;> rw [hlive]
  · exact h1
  · exact h2
  · rwa [husrs]

lemma live_rewrite {st st' : State} (hst : (s.entry fd).2 = st) (h : st ≠ .request)
    (h' : st' ≠ .request)
    (hcon : s'.conList = Function.update s.conList fd (some ((s.entry fd).1, st'))) :
    s'.live = s.live := by
  rw [live_of_update hcon]
  have hlive : s.live fd = some (s.entry fd).1 := live_of_entry (hst ▸ h)
  have hentry : userOfEntry (some ((s.entry fd).1, st')) = s.live fd := by
    rw [hlive]
    cases st' with
    | request => exact absurd rfl h'
    | authenticated => rfl
    | online => rfl
  rw [hentry, Function.update_eq_self]

/-- **One step keeps the names apart**, whichever event is handled. -/
lemma Exclusive.step {h : Handling} (hs : Exclusive s) (hstep : PresenceStep h s s') :
    Exclusive s' := by
  obtain ⟨-, sql, hf, hrun, hsober⟩ := hstep
  cases he : h.event with
  | incoming accepted =>
    rw [he] at hrun
    obtain rfl : s.add (accept accepted) = s' := by simpa [handleEvent, accept_ne] using hrun.2
    exact hs.congr (live_add _ _) rfl
  | readable fd data loc =>
    rw [he] at hrun
    obtain ⟨l, x, t, hserved, hafter⟩ := handleSingleSocketCon_served hrun.2
    have hlive := live_of_update hafter.conList
    have husrs := hafter.usrs
    -- the others keep their rows when the user of this connection is put offline
    have hothers : ∀ {done t}, (s.entry fd).2 ≠ .request → s'.usrs = t →
        updateUserStatus sql s.usrs (s.entry fd).1 0 (-1) = .ok (done, t) →
        ∀ g name, g ≠ fd → s.live g = some name →
          name ∈ s'.usrs.map Row.username ∧ ∀ r ∈ s'.usrs, r.username = name → r.status ≠ 0 := by
      rintro done t hst rfl hup g name hg hname
      have hfd := live_of_entry hst
      refine hs.taken_update hf (hs.plain fd _ hfd) hup hname ?_
      rintro rfl
      exact hg (hs.one g fd _ hname hfd)
    cases hserved with
    | dropped hst => exact hs.gone hlive fun g name _ hg => husrs ▸ hs.taken g name hg
    | answered hst hd hcheck =>
      have hcases := sober_cases (s := s.touch fd) hf (hsober fd data loc he hst hd) hcheck
      rcases hcases with ⟨rfl, hplain, ⟨hu, ht⟩ | ⟨⟨row, hu, h0⟩, ht⟩⟩ | ⟨hne, ht⟩
      · exact hs.registered hplain hu (husrs.trans ht) hlive
      · exact hs.loggedIn hplain hu h0 (husrs.trans ht) hlive
      · rw [if_neg hne] at hlive
        exact hs.gone hlive fun g name _ hg => (husrs.trans ht) ▸ hs.taken g name hg
    | exited hst hl ht hup => exact hs.gone hlive (hothers (by simp [hst]) husrs hup)
    | chose hst hl ht =>
      exact hs.congr (live_rewrite hst (by simp) (by simp) hafter.conList) husrs
    | left hst hd ht hup => exact hs.gone hlive (hothers (by simp [hst]) husrs hup)
    | relayed hst hd ht =>
      have hentry : s.entry fd = ((s.entry fd).1, .online) := by rw [← hst]
      have hcon := hafter.conList
      rw [hentry] at hcon
      exact hs.congr (live_rewrite hst (by simp) (by simp) hcon) husrs

/-! ### What a step announces -/

/-- The user has chosen an option and not left. -/
def Online (name : Bytes) (s : Server) : Prop := ∃ fd, s.conList fd = some (name, .online)

lemma live_of_online {g : Int32} (h : s.conList g = some (name, .online)) :
    s.live g = some name :=
  live_eq_some.mpr ⟨_, .inr rfl, h⟩

lemma live_of_entry_eq {st : State} (h : s.entry fd = (name, st)) (hst : st ≠ .request) :
    s.live fd = some name := by
  have hentry : s.live fd = some (s.entry fd).1 := live_of_entry (by rw [h]; exact hst)
  rwa [h] at hentry

lemma conList_of_entry {st : State} (h : s.entry fd = (name, st)) (hst : st ≠ .request) :
    s.conList fd = some (name, st) := by
  unfold Server.entry at h
  cases hc : s.conList fd with
  | none =>
    rw [hc] at h
    exact absurd (congrArg Prod.snd h).symm hst
  | some e =>
    rw [hc] at h
    exact congrArg some h

lemma online_of_write {x : Option (Bytes × State)}
    (hcon : s'.conList = Function.update s.conList fd x)
    (hold : s.conList fd ≠ some (name, .online)) (hnew : x ≠ some (name, .online)) :
    Online name s' ↔ Online name s := by
  unfold Online
  rw [hcon]
  constructor
  · rintro ⟨g, hg⟩
    by_cases hne : g = fd
    · subst hne
      exact absurd (by simpa using hg) hnew
    · exact ⟨g, by simpa [hne] using hg⟩
  · rintro ⟨g, hg⟩
    have hne : g ≠ fd := by
      rintro rfl
      exact hold hg
    exact ⟨g, by simpa [hne] using hg⟩

/-- How a step announces a user: not at all; online, one who was not; offline, one who was; or
offline, one who leaves early and was not online. -/
inductive Announces (name : Bytes) (h : Handling) (s s' : Server) : Option Bool → Prop where
  | silent (hn : ¬ h.LeavesEarly name) (ho : Online name s' ↔ Online name s) :
    Announces name h s s' none
  | online (hn : ¬ h.LeavesEarly name) (h₁ : ¬ Online name s) (h₂ : Online name s') :
    Announces name h s s' (some true)
  | offline (hn : ¬ h.LeavesEarly name) (h₁ : Online name s) (h₂ : ¬ Online name s') :
    Announces name h s s' (some false)
  | early (he : h.LeavesEarly name) (h₁ : ¬ Online name s) : Announces name h s s' (some false)

lemma online_touch (s : Server) (fd : Int32) : Online name (s.touch fd) ↔ Online name s := by
  cases hc : s.conList fd with
  | none =>
    have hentry : s.entry fd = ([], .request) := by simp [Server.entry, hc]
    have hwrite : (s.touch fd).conList = Function.update s.conList fd (some (s.entry fd)) := rfl
    exact online_of_write hwrite (by simp [hc]) (by simp [hentry])
  | some e =>
    have hentry : s.entry fd = e := by simp [Server.entry, hc]
    have hsame : (s.touch fd).conList = s.conList := by
      simp only [Server.touch, Server.setEntry, hentry, ← hc, Function.update_eq_self]
    unfold Online
    rw [hsame]

lemma Exclusive.online_iff (h : Exclusive s) (hl : s.live fd = some name) :
    Online name s ↔ s.conList fd = some (name, .online) := by
  constructor
  · rintro ⟨g, hg⟩
    rwa [h.one fd g name hl (live_of_online hg)]
  · exact fun hfd => ⟨fd, hfd⟩

lemma leavesEarly_readable {n : Bytes} {st : State} {data : Bytes} {loc : Locals}
    (hentry : s.entry fd = (n, st)) :
    Handling.LeavesEarly name ⟨s, .readable fd data loc⟩ ↔
      n = name ∧ st = .authenticated ∧ Leaves data loc := by
  constructor
  · rintro ⟨_, _, _, he, hfd, hl⟩
    cases he
    rw [hentry] at hfd
    exact ⟨congrArg Prod.fst hfd, congrArg Prod.snd hfd, hl⟩
  · rintro ⟨rfl, rfl, hl⟩
    exact ⟨fd, data, loc, rfl, hentry, hl⟩

lemma conList_ne_online {n : Bytes} {st : State} (hentry : s.entry fd = (n, st))
    (hne : st ≠ .online ∨ n ≠ name) : s.conList fd ≠ some (name, .online) := by
  intro hfd
  have heq : s.entry fd = (name, .online) := by simp [Server.entry, hfd]
  rw [hentry] at heq
  obtain ⟨rfl, rfl⟩ := by simpa using heq
  simp at hne

lemma Exclusive.not_online (hs : Exclusive s) (hentry : s.entry fd = (name, .authenticated)) :
    ¬ Online name s :=
  (hs.online_iff (live_of_entry_eq hentry (by simp))).not.mpr
    (conList_ne_online hentry (.inl (by simp)))

lemma Exclusive.not_online_of_remove (hs : Exclusive s) (hentry : s.entry fd = (name, .online))
    (hcon : s'.conList = Function.update s.conList fd none) : ¬ Online name s' := by
  have hlive := live_of_entry_eq hentry (by simp)
  rintro ⟨g, hg⟩
  rw [hcon] at hg
  by_cases hne : g = fd
  · simp [hne] at hg
  · rw [Function.update_of_ne hne] at hg
    exact hne (hs.one g fd name (live_of_online hg) hlive)

/-- **One step announces** a user in one of the four ways. -/
lemma Exclusive.announces {h : Handling} (hs : Exclusive s) (hstep : PresenceStep h s s')
    (name : Bytes) : Announces name h s s' (h.notice name) := by
  obtain ⟨rfl, sql, hf, hrun, -⟩ := hstep
  obtain ⟨s, e⟩ := h
  simp only at hs hrun
  cases e with
  | incoming accepted =>
    obtain rfl : s.add (accept accepted) = s' := by simpa [handleEvent, accept_ne] using hrun.2
    refine .silent ?_ (online_touch s _)
    rintro ⟨fd, data, loc, he, -⟩
    cases he
  | readable fd data loc =>
    obtain ⟨l, x, t, hserved, hafter⟩ := handleSingleSocketCon_served hrun.2
    have hcon := hafter.conList
    rcases hentry : s.entry fd with ⟨n, st⟩
    have hearly : Handling.LeavesEarly name ⟨s, .readable fd data loc⟩ ↔
        n = name ∧ st = .authenticated ∧ Leaves data loc := leavesEarly_readable hentry
    have hold : st ≠ .online ∨ n ≠ name → s.conList fd ≠ some (name, .online) :=
      conList_ne_online hentry
    -- where nobody of the name is announced
    have hsilent : ∀ {b}, b = none → ¬ Handling.LeavesEarly name ⟨s, .readable fd data loc⟩ →
        s.conList fd ≠ some (name, .online) → x ≠ some (name, .online) →
        Announces name ⟨s, .readable fd data loc⟩ s s' b := by
      rintro b rfl hn hfd hx
      exact .silent hn (online_of_write hcon hfd hx)
    simp only [Handling.notice, broadcast, hentry]
    cases hserved with
    | dropped hst =>
      obtain rfl : st = .request := by simpa [hentry] using hst
      exact hsilent rfl (by simp [hearly]) (hold (by simp)) (by simp)
    | @answered hst hd res =>
      obtain rfl : st = .request := by simpa [hentry] using hst
      refine hsilent rfl (by simp [hearly]) (hold (by simp)) ?_
      by_cases hres : res = success <;> simp [hres]
    | exited hst hl =>
      obtain rfl : st = .authenticated := by simpa [hentry] using hst
      by_cases hn : n = name
      · subst hn
        simp only [hl, not_true_eq_false, decide_false, if_true]
        exact .early (hearly.mpr ⟨rfl, rfl, hl⟩) (hs.not_online hentry)
      · exact hsilent (by simp [hn]) (by simp [hearly, hn]) (hold (by simp)) (by simp)
    | chose hst hl =>
      obtain rfl : st = .authenticated := by simpa [hentry] using hst
      by_cases hn : n = name
      · subst hn
        simp only [hl, not_false_eq_true, decide_true, if_true]
        exact .online (by simp [hearly, hl]) (hs.not_online hentry)
          ⟨fd, by rw [hcon, Function.update_self, hentry]⟩
      · exact hsilent (by simp [hn]) (by simp [hearly, hn]) (hold (by simp)) (by simp [hentry, hn])
    | left hst hd =>
      obtain rfl : st = .online := by simpa [hentry] using hst
      subst hd
      simp only [if_true]
      by_cases hn : n = name
      · subst hn
        simp only [if_true]
        exact .offline (by simp [hearly]) ⟨fd, conList_of_entry hentry (by simp)⟩
          (hs.not_online_of_remove hentry hcon)
      · exact hsilent (by simp [hn]) (by simp [hearly]) (hold (.inr hn)) (by simp)
    | relayed hst hd =>
      obtain rfl : st = .online := by simpa [hentry] using hst
      have hsame : s'.conList = s.conList := by
        rw [hcon, hentry, ← conList_of_entry hentry (by simp), Function.update_eq_self]
      simp only [hd, if_false]
      exact .silent (by simp [hearly]) (by unfold Online; rw [hsame])

end

/-! ### Alternation -/

lemma alternates_snoc {l : List Bool} {b : Bool} :
    Alternates (l ++ [b]) ↔ Alternates l ∧ b = decide (l.length % 2 = 0) := by
  constructor
  · intro h
    refine ⟨fun i c hi => h i c ?_, h l.length b (by simp)⟩
    rw [List.getElem?_append_left (List.getElem?_eq_some_iff.mp hi).1]
    exact hi
  · rintro ⟨h, hb⟩ i c hi
    by_cases hlt : i < l.length
    · rw [List.getElem?_append_left hlt] at hi
      exact h i c hi
    · have hlen := (List.getElem?_eq_some_iff.mp hi).1
      simp only [List.length_append, List.length_singleton] at hlen
      obtain rfl : i = l.length := by omega
      obtain rfl : b = c := by simpa using hi
      exact hb

lemma Exclusive.of_empty {s : Server} (h : s.conList = fun _ => none) : Exclusive s := by
  have hlive : s.live = fun _ => none := by
    ext fd
    simp [Server.live, h]
  refine ⟨?_, ?_, ?_⟩
  · simp [hlive]
  · simp [hlive]
  · simp [hlive]

lemma notices_snoc (name : Bytes) (hs : List Handling) (h : Handling) :
    notices name (hs ++ [h]) = notices name hs ++ (h.notice name).toList := by
  unfold notices
  cases hn : h.notice name <;> simp [hn]

/-- Along a run: whether the notices about a user alternate, and, as long as they do, whether
the user is online. -/
lemma run_alternates {s₀ s : Server} {hs : List Handling} (h0 : s₀.conList = fun _ => none)
    (hrun : Trace PresenceStep s₀ hs s) (name : Bytes) :
    Exclusive s ∧ (Alternates (notices name hs) ↔ ∀ h ∈ hs, ¬ h.LeavesEarly name) ∧
      ((∀ h ∈ hs, ¬ h.LeavesEarly name) →
        (Online name s ↔ (notices name hs).length % 2 = 1)) := by
  induction hrun with
  | nil =>
    refine ⟨.of_empty h0, ?_, ?_⟩
    · simp [Alternates, notices]
    · simp [Online, h0, notices]
  | @snoc hs h s s' _ hstep ih =>
    obtain ⟨hex, halt, honline⟩ := ih
    refine ⟨hex.step hstep, ?_⟩
    have hsnoc := notices_snoc name hs h
    have hann := hex.announces hstep name
    generalize h.notice name = b at hsnoc hann
    rw [hsnoc]
    simp only [List.mem_append, List.mem_singleton, or_imp, forall_and, forall_eq]
    cases hann with
    | silent hn ho =>
      simp only [Option.toList_none, List.append_nil]
      exact ⟨⟨fun ha => ⟨halt.mp ha, hn⟩, fun he => halt.mpr he.1⟩,
        fun he => ho.trans (honline he.1)⟩
    | online hn h₁ h₂ =>
      simp only [Option.toList_some, alternates_snoc, List.length_append, List.length_singleton]
      refine ⟨⟨fun ha => ⟨halt.mp ha.1, hn⟩, fun he => ⟨halt.mpr he.1, ?_⟩⟩, fun he => ?_⟩
      · have heven := (honline he.1).not.mp h₁
        have hzero : (notices name hs).length % 2 = 0 := by omega
        simp [hzero]
      · have heven := (honline he.1).not.mp h₁
        exact iff_of_true h₂ (by omega)
    | offline hn h₁ h₂ =>
      simp only [Option.toList_some, alternates_snoc, List.length_append, List.length_singleton]
      refine ⟨⟨fun ha => ⟨halt.mp ha.1, hn⟩, fun he => ⟨halt.mpr he.1, ?_⟩⟩, fun he => ?_⟩
      · have hodd := (honline he.1).mp h₁
        simp [hodd]
      · have hodd := (honline he.1).mp h₁
        exact iff_of_false h₂ (by omega)
    | early he h₁ =>
      simp only [Option.toList_some, alternates_snoc]
      refine ⟨iff_of_false ?_ fun hno => hno.2 he, fun hno => absurd he hno.2⟩
      rintro ⟨ha, hb⟩
      have heven := (honline (halt.mp ha)).not.mp h₁
      have hodd : ¬ (notices name hs).length % 2 = 0 := by simpa using hb
      omega

/-- **Presence notices alternate** online, offline, online, if and only if the user never
leaves between a login and the option after it. -/
theorem presence_alternates_iff {s₀ s : Server} {hs : List Handling}
    (h0 : s₀.conList = fun _ => none) (hrun : Trace PresenceStep s₀ hs s) (name : Bytes) :
    Alternates (notices name hs) ↔ ∀ h ∈ hs, ¬ h.LeavesEarly name :=
  (run_alternates h0 hrun name).2.1

/-! ### One user -/

lemma Allowed.sober {sql : Sqlite} (hw : sql.Works) {s : Server} (hc : Consistent s) {fd : Int32}
    {data : Bytes} {loc : Locals} (ha : Allowed s (.readable fd data loc))
    (hst : (s.entry fd).2 = .request) (hd : data ≠ []) :
    Sober sql s fd (requestOf data loc) loc.res := by
  obtain ⟨hopt, hname, hpass⟩ := ha hst hd
  refine ⟨⟨fun _ => hname, fun _ => hpass⟩, ?_, ?_⟩
  · rintro ⟨-, ⟨h1, h2⟩ | ⟨-, row, hu, -, h0, h1⟩, -⟩
    · exact hopt.elim h1 h2
    · exact (hc.status row (mem_of_userOf hu).1).elim h0 h1
  · rintro ⟨h1, st, hstmt, hfail⟩
    have hquoteless : st.Quoteless := by
      unfold statementOf at hstmt
      split at hstmt
      · simp [h1] at hstmt
      · split at hstmt
        · obtain rfl := Option.some.inj hstmt
          exact hname
        · cases hstmt
    have hlex := Stmt.lex_text hquoteless
    have hexec := Option.isSome_iff_ne_none.mp (hw.exec_ends hlex s.usrs)
    simp [hw.prepares hlex, hexec] at hfail

/-- Events one after the other, each with the server that handles it. -/
def handlings (s : Server) : List Event → List Handling
  | [] => []
  | e :: es => ⟨s, e⟩ :: handlings (s.next e) es

lemma Schedule.presenceTrace {s : Server} {es : List Event} (h : Schedule s es)
    (hc : Consistent s) : Trace PresenceStep s (handlings s es) (es.foldl Server.next s) := by
  induction es generalizing s with
  | nil => exact .nil
  | cons e es ih =>
    obtain ⟨ha, hr, hes⟩ := h
    have hrun := handleEvent_eq Sqlite.reference_works (hc.toKeys.quoteless ha.plainRequest)
    refine .cons ⟨rfl, .reference, Sqlite.reference_faithful, ⟨hr, hrun⟩, ?_⟩
      (ih hes (hc.next ha hr))
    rintro fd data loc rfl hst hd
    exact ha.sober Sqlite.reference_works hc hst hd

/-- A user registers over descriptor 5. -/
def joining : List Event :=
  [.incoming 5, .readable 5 (requestBytes 2 (bytes "al") (bytes "pw")) ⟨7, []⟩]

/-- The user disconnects without having chosen an option, and is announced offline. -/
theorem offline_without_online : ¬ ∀ (s₀ s : Server) (hs : List Handling) (name : Bytes),
    Fresh s₀ → Trace PresenceStep s₀ hs s → Alternates (notices name hs) := by
  intro h
  let es := joining ++ [.readable 5 [] ⟨7, []⟩]
  have hes : Schedule emptyServer es := by decide +kernel
  have hrun := hes.presenceTrace emptyServer_fresh.consistent
  have hnotices : notices (bytes "al") (handlings emptyServer es) = [false] := by decide +kernel
  have hfirst := h _ _ _ (bytes "al") emptyServer_fresh hrun 0 false (by rw [hnotices]; rfl)
  simp at hfirst

/-- The user chooses an option and disconnects. -/
theorem presence_alternates_iff_leaving : ∃ hs s, Trace PresenceStep emptyServer hs s ∧
    notices (bytes "al") hs = [true, false] ∧ ∀ h ∈ hs, ¬ h.LeavesEarly (bytes "al") := by
  let es := joining ++ [.readable 5 [1] ⟨7, []⟩, .readable 5 [] ⟨7, []⟩]
  have hes : Schedule emptyServer es := by decide +kernel
  have hrun := hes.presenceTrace emptyServer_fresh.consistent
  have hnotices : notices (bytes "al") (handlings emptyServer es) = [true, false] := by
    decide +kernel
  refine ⟨_, _, hrun, hnotices, (presence_alternates_iff rfl hrun _).mp ?_⟩
  rw [hnotices]
  intro i b hi
  match i with
  | 0 => simpa [eq_comm] using hi
  | 1 => simpa [eq_comm] using hi
  | i + 2 => simp at hi

end SelfTraining.Chat
