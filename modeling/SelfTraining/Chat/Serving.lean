import SelfTraining.Chat.Session

/-!
What handling an event does when statements may fail, in any pattern. `checkUserInfo_run` and
`handleRequest_run` give the result of a call, returned or thrown; `Served` says what a
connection is sent and what becomes of its entry when the handling comes to its end. Nothing
here depends on what SQLite does.
-/

namespace SelfTraining.Chat

open SelfTraining.Text

/-! ### Calls -/

lemma bind_ok {α β : Type} {x : ServerM α} {f : α → ServerM β} {s s' : Server} {b : β} :
    (x >>= f) s = .ok b s' ↔ ∃ a s₁, x s = .ok a s₁ ∧ f a s₁ = .ok b s' := by
  simp only [bind, EStateM.bind]
  split <;> simp_all

lemma database_ok {α : Type} {f : Table → Except SqlException (α × Table)} {s s' : Server}
    {a : α} : database f s = .ok a s' ↔ ∃ t, f s.usrs = .ok (a, t) ∧ s' = s.setUsrs t := by
  unfold database
  rcases hf : f s.usrs with e | ⟨b, t⟩
  · simp
  · simp only [EStateM.Result.ok.injEq, Except.ok.injEq, Prod.mk.injEq, Server.setUsrs]
    constructor
    · rintro ⟨rfl, rfl⟩
      exact ⟨t, ⟨rfl, rfl⟩, rfl⟩
    · rintro ⟨t', ⟨rfl, rfl⟩, rfl⟩
      exact ⟨rfl, rfl⟩

section

variable {sql : Sqlite} {s s' : Server} {fd : Int32} {msg : RequestMsg} {garbage : Response}

lemma query_ok {name : Bytes} {answer : Option (Bytes × Int32 × Int32)} :
    database (fun t => (queryUserInfo sql t name).map fun a => (a, t)) s = .ok answer s' ↔
      queryUserInfo sql s.usrs name = .ok answer ∧ s' = s := by
  rw [database_ok]
  cases queryUserInfo sql s.usrs name with
  | error e => simp [Except.map]
  | ok a =>
    have hself : s.setUsrs s.usrs = s := rfl
    simp [Except.map, hself]

lemma query_run (name : Bytes) :
    database (fun t => (queryUserInfo sql t name).map fun a => (a, t)) s =
      match queryUserInfo sql s.usrs name with
      | .ok answer => .ok answer s
      | .error e => .error e s := by
  cases hq : queryUserInfo sql s.usrs name <;> simp [database, hq, Except.map]

lemma execute_run (st : Stmt) : database (fun t => execute sql t st) s =
    match execute sql s.usrs st with
    | .ok (done, t) => .ok done (s.setUsrs t)
    | .error e => .error e s := by
  rcases hex : execute sql s.usrs st with e | ⟨done, t⟩ <;>
    simp [database, hex, Server.setUsrs]

/-! ### `CheckUserInfo` -/

/-- The statement that is executed after the query has given `answer`. -/
def statementOf (msg : RequestMsg) (confd : Int32) : Option (Bytes × Int32 × Int32) → Option Stmt
  | none => if msg.option = 2 then some (.insert msg.name msg.pass 1 confd) else none
  | some (storedPass, status, _) =>
    if msg.option = 1 ∧ msg.pass = storedPass ∧ status = 0 then
      some (.update 1 confd msg.name)
    else none

/-- The response when no statement is executed after the query. -/
def refusal (msg : RequestMsg) (garbage : Response) :
    Option (Bytes × Int32 × Int32) → Response
  | none => if msg.option = 1 then errorUsernameNotFound else garbage
  | some (storedPass, status, _) =>
    if msg.option = 2 then errorDuplicateUsername
    else if msg.option = 1 then
      if msg.pass = storedPass then if status = 1 then errorUserLoggedIn else garbage
      else errorPasswordNotMatching
    else garbage

/-- The response when a statement was executed: the result of an insertion is looked at, that
of an update is not. -/
def responseOf (msg : RequestMsg) (done : Bool) : Response :=
  if done ∨ msg.option = 1 then success else errorUnkown

/-- **What `CheckUserInfo` does**: a query, and then one statement or none. -/
theorem checkUserInfo_run : checkUserInfo sql msg fd garbage s =
    match queryUserInfo sql s.usrs msg.name with
    | .error e => .error e s
    | .ok answer =>
      match statementOf msg fd answer with
      | none => .ok (refusal msg garbage answer) s
      | some st =>
        match execute sql s.usrs st with
        | .error e => .error e s
        | .ok (done, t) => .ok (responseOf msg done) (s.setUsrs t) := by
  simp only [checkUserInfo, bind, EStateM.bind, query_run]
  cases queryUserInfo sql s.usrs msg.name with
  | error e => rfl
  | ok answer =>
    have hexecute : ∀ st, database (fun t => execute sql t st) s = _ := execute_run
    have hinsert := hexecute (.insert msg.name msg.pass 1 fd)
    have hupdate := hexecute (.update 1 fd msg.name)
    rcases answer with _ | ⟨storedPass, status, sockfd⟩
    · by_cases h1 : msg.option = 1
      · simp [statementOf, refusal, h1, pure, EStateM.pure]
      · by_cases h2 : msg.option = 2
        · rcases hex : execute sql s.usrs (.insert msg.name msg.pass 1 fd) with e | ⟨_ | _, t⟩ <;>
            simp [statementOf, responseOf, h2, EStateM.bind, addNewUserToDatabase, hinsert, hex,
              pure, EStateM.pure]
        · simp [statementOf, refusal, h1, h2, pure, EStateM.pure]
    · by_cases h2 : msg.option = 2
      · simp [statementOf, refusal, h2, pure, EStateM.pure]
      · by_cases h1 : msg.option = 1
        · by_cases hp : msg.pass = storedPass
          · by_cases h0 : status = 0
            · rcases hex : execute sql s.usrs (.update 1 fd msg.name) with e | ⟨done, t⟩ <;>
                simp [statementOf, responseOf, h1, hp, h0, EStateM.bind, updateUserStatus,
                  hupdate, hex, pure, EStateM.pure]
            · by_cases hs1 : status = 1
              · simp [statementOf, refusal, h1, hp, hs1, pure, EStateM.pure]
              · simp [statementOf, refusal, h1, hp, h0, hs1, pure, EStateM.pure]
          · simp [statementOf, refusal, h1, hp, pure, EStateM.pure]
        · simp [statementOf, refusal, h1, h2, pure, EStateM.pure]

/-- The request is answered with `res`. -/
def Server.respond (s : Server) (fd : Int32) (name : Bytes) (res : Response) : Server :=
  (s.setEntry fd (name, if res = success then .authenticated else (s.entry fd).2)).record
    [⟨fd, fd, .requestResponse res⟩]

theorem handleRequest_run {data : Bytes} {loc : Locals} (hd : data ≠ []) :
    handleRequest sql fd data loc s =
      match checkUserInfo sql (RequestMsg.ofBytes (filled data loc.mem)) fd loc.res s with
      | .error e s₁ => .error e s₁
      | .ok res s₁ =>
        .ok () (s₁.respond fd (RequestMsg.ofBytes (filled data loc.mem)).name res) := by
  simp only [handleRequest, if_neg hd, bind, EStateM.bind]
  cases checkUserInfo sql (RequestMsg.ofBytes (filled data loc.mem)) fd loc.res s with
  | error e s₁ => rfl
  | ok res s₁ =>
    simp only [setName_eq, send_eq, Server.respond]
    split
    · next hres => simp [hres]
    · simp [pure, EStateM.pure]

/-! ### What a connection is sent -/

/-- A text that is sent for a connection to others. -/
def Texts (fd : Int32) (text : Bytes) (l : List Sent) : Prop :=
  ∀ e ∈ l, e.source = fd ∧ e.dest ≠ fd ∧ e.message = .text text

/-- What `NotifyToOnelineUser` records, it records whether or not it throws. -/
lemma notifyToOnelineUser_run (text : Bytes) : ∃ l, Texts fd text l ∧
    (notifyToOnelineUser sql fd text s = .ok () (s.record l) ∨
      ∃ e, notifyToOnelineUser sql fd text s = .error e (s.record l)) := by
  unfold notifyToOnelineUser
  split
  · refine ⟨((sql.query Stmt.selectOnline.text s.usrs).1.filter fun r => r.sockfd ≠ fd).map
      fun r => ⟨fd, r.sockfd, .text text⟩, ?_, ?_⟩
    · simp only [Texts, List.mem_map, List.mem_filter, decide_eq_true_eq]
      rintro e ⟨r, ⟨-, hr⟩, rfl⟩
      exact ⟨rfl, hr, rfl⟩
    · dsimp only
      split
      · exact .inl rfl
      · exact .inr ⟨_, rfl⟩
  · exact ⟨[], by simp [Texts], .inr ⟨.prepare, by simp [Server.record]⟩⟩

lemma notifyToOnelineUser_ok {text : Bytes} {u : Unit}
    (h : notifyToOnelineUser sql fd text s = .ok u s') :
    ∃ l, Texts fd text l ∧ s' = s.record l := by
  obtain ⟨l, hl, hrun | ⟨e, hrun⟩⟩ := @notifyToOnelineUser_run sql s fd text
  · rw [hrun] at h
    exact ⟨l, hl, ((EStateM.Result.ok.injEq ..).mp h).2.symm⟩
  · rw [hrun] at h
    cases h

/-- How a handling of readable data comes to its end, with what it sends, the entry that the
connection has after it, none when it is removed, and the table. -/
inductive Served (sql : Sqlite) (s : Server) (fd : Int32) (data : Bytes) (loc : Locals) :
    List Sent → Option (Bytes × State) → Table → Prop where
  | dropped (hst : (s.entry fd).2 = .request) (hd : data = []) :
    Served sql s fd data loc [] none s.usrs
  | answered (hst : (s.entry fd).2 = .request) (hd : data ≠ []) {res : Response} {t : Table}
      (hcheck : checkUserInfo sql (requestOf data loc) fd loc.res (s.touch fd) =
        .ok res ((s.touch fd).setUsrs t)) :
    Served sql s fd data loc [⟨fd, fd, .requestResponse res⟩]
      (some ((requestOf data loc).name, if res = success then .authenticated else .request)) t
  | exited (hst : (s.entry fd).2 = .authenticated) (hl : Leaves data loc) {l : List Sent}
      (ht : Texts fd (isOffline (s.entry fd).1) l) {done : Bool} {t : Table}
      (hup : updateUserStatus sql s.usrs (s.entry fd).1 0 (-1) = .ok (done, t)) :
    Served sql s fd data loc l none t
  | chose (hst : (s.entry fd).2 = .authenticated) (hl : ¬ Leaves data loc) {l : List Sent}
      (ht : Texts fd (isOnline (s.entry fd).1) l) :
    Served sql s fd data loc (⟨fd, fd, .optionResponse success⟩ :: l)
      (some ((s.entry fd).1, .online)) s.usrs
  | left (hst : (s.entry fd).2 = .online) (hd : data = []) {l : List Sent}
      (ht : Texts fd (isOffline (s.entry fd).1) l) {done : Bool} {t : Table}
      (hup : updateUserStatus sql s.usrs (s.entry fd).1 0 (-1) = .ok (done, t)) :
    Served sql s fd data loc l none t
  | relayed (hst : (s.entry fd).2 = .online) (hd : data ≠ []) {l : List Sent}
      (ht : Texts fd (chatLine (s.entry fd).1 (textOf data loc)) l) :
    Served sql s fd data loc l (some (s.entry fd)) s.usrs

/-- The server after a handling that sent `l` and left the entry `x` and the table `t`. -/
structure Server.After (s : Server) (fd : Int32) (l : List Sent) (x : Option (Bytes × State))
    (t : Table) (s' : Server) : Prop where
  sent : s'.sent = s.sent ++ l
  conList : s'.conList = Function.update s.conList fd x
  epoll : s'.epoll = if x = none then s.epoll.erase fd else s.epoll
  usrs : s'.usrs = t

lemma update_touch (s : Server) (fd : Int32) (x : Option (Bytes × State)) :
    Function.update (s.touch fd).conList fd x = Function.update s.conList fd x := by
  simp [Server.touch, Server.setEntry]

lemma checkUserInfo_usrs {res : Response} (h : checkUserInfo sql msg fd garbage s = .ok res s') :
    ∃ t, s' = s.setUsrs t := by
  rw [checkUserInfo_run] at h
  split at h
  · cases h
  · split at h
    · exact ⟨s.usrs, ((EStateM.Result.ok.injEq ..).mp h).2.symm⟩
    · split at h
      · cases h
      · exact ⟨_, ((EStateM.Result.ok.injEq ..).mp h).2.symm⟩

lemma handleRequest_served {data : Bytes} {loc : Locals} {u : Unit}
    (hst : (s.entry fd).2 = .request)
    (h : handleRequest sql fd (data.take requestSize) loc (s.touch fd) = .ok u s') :
    ∃ l x t, Served sql s fd data loc l x t ∧ s.After fd l x t s' := by
  have hnil := take_eq_nil (n := requestSize) (by decide) data
  by_cases hd : data = []
  · obtain rfl : (s.touch fd).del fd = s' := by simpa [handleRequest, hd] using h
    exact ⟨[], none, s.usrs, .dropped hst hd, by simp [Server.del, Server.touch, Server.setEntry],
      update_touch s fd none, rfl, rfl⟩
  · rw [handleRequest_run (hnil.not.mpr hd)] at h
    split at h
    · cases h
    · next res s₁ hcheck =>
      obtain rfl := ((EStateM.Result.ok.injEq ..).mp h).2
      obtain ⟨t, rfl⟩ := checkUserInfo_usrs hcheck
      refine ⟨_, _, t, .answered hst hd hcheck, rfl, ?_, ?_, rfl⟩
      · rw [← update_touch s fd, ← hst, ← entry_touch s fd]
        rfl
      · simp [Server.respond, Server.record, Server.setEntry, Server.setUsrs, Server.touch]

lemma handleAuthenticated_served {data : Bytes} {loc : Locals} {u : Unit}
    (hst : (s.entry fd).2 = .authenticated)
    (h : handleAuthenticated sql fd (data.take 4) loc s = .ok u s') :
    ∃ l x t, Served sql s fd data loc l x t ∧ s.After fd l x t s' := by
  have hself : s.touch fd = s := touch_eq_self (by simp [hst])
  have hleaves : data.take 4 = [] ∨ ofLeBytes (filled (data.take 4) loc.mem) = 3 ↔
      Leaves data loc := by
    rw [take_eq_nil (by decide)]
    rfl
  simp only [handleAuthenticated, bind_ok, lookup_eq, hself, EStateM.Result.ok.injEq] at h
  obtain ⟨_, _, ⟨rfl, rfl⟩, h⟩ := h
  simp only [hleaves] at h
  split at h
  · next hl =>
    obtain ⟨_, s₁, hn, h⟩ := bind_ok.mp h
    obtain ⟨l, ht, rfl⟩ := notifyToOnelineUser_ok hn
    obtain ⟨_, s₂, hdb, h⟩ := bind_ok.mp h
    obtain ⟨t, hup, rfl⟩ := database_ok.mp hdb
    obtain rfl := ((EStateM.Result.ok.injEq ..).mp ((delFromEpoll_eq _ fd).symm.trans h)).2
    exact ⟨l, none, t, .exited hst hl ht hup, rfl, rfl, rfl, rfl⟩
  · next hl =>
    obtain ⟨_, s₁, hs, h⟩ := bind_ok.mp h
    obtain rfl := ((EStateM.Result.ok.injEq ..).mp hs).2
    obtain ⟨_, s₂, hn, h⟩ := bind_ok.mp h
    obtain ⟨l, ht, rfl⟩ := notifyToOnelineUser_ok hn
    obtain rfl := ((EStateM.Result.ok.injEq ..).mp h).2
    exact ⟨_, _, _, .chose hst hl ht, by simp [Server.record, Server.setEntry], rfl, by
      simp [Server.record, Server.setEntry], rfl⟩

lemma handleOnline_served {data : Bytes} {loc : Locals} {u : Unit}
    (hst : (s.entry fd).2 = .online)
    (h : handleOnline sql fd (data.take recvSize) loc s = .ok u s') :
    ∃ l x t, Served sql s fd data loc l x t ∧ s.After fd l x t s' := by
  have hself : s.touch fd = s := touch_eq_self (by simp [hst])
  have hnil := take_eq_nil (n := recvSize) (by decide) data
  simp only [handleOnline, bind_ok, lookup_eq, hself, EStateM.Result.ok.injEq] at h
  obtain ⟨_, _, ⟨rfl, rfl⟩, h⟩ := h
  simp only [hnil] at h
  split at h
  · next hd =>
    obtain ⟨_, s₁, hdb, h⟩ := bind_ok.mp h
    obtain ⟨t, hup, rfl⟩ := database_ok.mp hdb
    obtain ⟨_, s₂, hn, h⟩ := bind_ok.mp h
    obtain ⟨l, ht, rfl⟩ := notifyToOnelineUser_ok hn
    obtain rfl := ((EStateM.Result.ok.injEq ..).mp ((delFromEpoll_eq _ fd).symm.trans h)).2
    exact ⟨l, none, t, .left hst hd ht hup, rfl, rfl, rfl, rfl⟩
  · next hd =>
    obtain ⟨l, ht, rfl⟩ := notifyToOnelineUser_ok h
    refine ⟨l, some (s.entry fd), s.usrs, .relayed hst hd ht, rfl, ?_, by simp [Server.record],
      rfl⟩
    exact congrArg Server.conList hself.symm

/-- **What a handling does to its connection**, whatever SQLite does: every handling that comes
to its end has served it in one of six ways. -/
theorem handleSingleSocketCon_served {data : Bytes} {loc : Locals} {u : Unit}
    (h : handleSingleSocketCon sql fd data loc s = .ok u s') :
    ∃ l x t, Served sql s fd data loc l x t ∧ s.After fd l x t s' := by
  simp only [handleSingleSocketCon, bind_ok, lookup_eq, EStateM.Result.ok.injEq] at h
  obtain ⟨_, _, ⟨rfl, rfl⟩, h⟩ := h
  cases hst : (s.entry fd).2 with
  | request =>
    simp only [hst] at h
    exact handleRequest_served hst h
  | authenticated =>
    simp only [hst, touch_eq_self (show (s.entry fd).2 ≠ .request by simp [hst])] at h
    exact handleAuthenticated_served hst h
  | online =>
    simp only [hst, touch_eq_self (show (s.entry fd).2 ≠ .request by simp [hst])] at h
    exact handleOnline_served hst h

end

end SelfTraining.Chat
