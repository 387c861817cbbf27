import SelfTraining.Chat.Server

/-!
What handling an event comes to when no statement fails and the names hold no quote: a pure
function `Server.next`, with no database behind it. `handleEvent_eq` ties it to the code; the
invariants of the server are proved about `next`.
-/

namespace SelfTraining.Chat

open SelfTraining.Text

/-! ### The pure step -/

/-- The response to a request, and the table after it. -/
def verdict (t : Table) (msg : RequestMsg) (confd : Int32) (garbage : Response) :
    Response × Table :=
  match userOf t msg.name with
  | none =>
    if msg.option = 1 then (errorUsernameNotFound, t)
    else if msg.option = 2 then (success, (Stmt.insert msg.name msg.pass 1 confd).run t)
    else (garbage, t)
  | some row =>
    if msg.option = 2 then (errorDuplicateUsername, t)
    else if msg.option = 1 then
      if msg.pass = row.password then
        if row.status = 0 then (success, (Stmt.update 1 confd msg.name).run t)
        else if row.status = 1 then (errorUserLoggedIn, t)
        else (garbage, t)
      else (errorPasswordNotMatching, t)
    else (garbage, t)

/-- No branch of `CheckUserInfo` assigns `res`. -/
def Unassigned (t : Table) (msg : RequestMsg) : Prop :=
  (msg.option ≠ 1 ∧ msg.option ≠ 2) ∨
    (msg.option = 1 ∧ ∃ row, userOf t msg.name = some row ∧ msg.pass = row.password ∧
      row.status ≠ 0 ∧ row.status ≠ 1)

/-- What goes into a statement that matters for the answer holds no quote. -/
def QuoteFree (msg : RequestMsg) : Prop :=
  (msg.option = 1 ∨ msg.option = 2 → Stmt.Plain msg.name) ∧ (msg.option = 2 → Stmt.Plain msg.pass)

instance (msg : RequestMsg) : Decidable (QuoteFree msg) := inferInstanceAs (Decidable (_ ∧ _))

/-- How a verdict comes about: a registration, a login, or a response that leaves the table as
it is and is a success only by chance. -/
lemma verdict_cases (t : Table) (msg : RequestMsg) (confd : Int32) (garbage : Response) :
    (msg.option = 2 ∧ userOf t msg.name = none ∧ verdict t msg confd garbage =
      (success, (Stmt.insert msg.name msg.pass 1 confd).run t)) ∨
    (msg.option = 1 ∧ (∃ row, userOf t msg.name = some row ∧ msg.pass = row.password ∧
      row.status = 0) ∧ verdict t msg confd garbage =
      (success, (Stmt.update 1 confd msg.name).run t)) ∨
    ((verdict t msg confd garbage).2 = t ∧ ((verdict t msg confd garbage).1 ≠ success ∨
      Unassigned t msg ∧ (verdict t msg confd garbage).1 = garbage)) := by
  unfold verdict Unassigned
  cases hu : userOf t msg.name with
  | none =>
    by_cases h1 : msg.option = 1
    · simp [h1, errorUsernameNotFound, success]
    · by_cases h2 : msg.option = 2
      · simp [h2]
      · simp [h1, h2]
  | some row =>
    by_cases h2 : msg.option = 2
    · simp [h2, errorDuplicateUsername, success]
    · by_cases h1 : msg.option = 1
      · by_cases hp : msg.pass = row.password
        · by_cases h0 : row.status = 0
          · simp [h1, hp, h0]
          · by_cases hs1 : row.status = 1
            · simp [h1, hp, hs1, errorUserLoggedIn, success]
            · simp [h1, hp, h0, hs1]
        · simp [h1, hp, errorPasswordNotMatching, success]
      · simp [h1, h2]

/-- The request that a read of `data` delivers. -/
def requestOf (data : Bytes) (loc : Locals) : RequestMsg :=
  RequestMsg.ofBytes (filled (data.take requestSize) loc.mem)

/-- The text that a read of `data` delivers to a connection that is online. -/
def textOf (data : Bytes) (loc : Locals) : Bytes :=
  cstr (filled (data.take recvSize) (List.replicate recvSize 0) ++ loc.mem)

/-- The connection is gone or has asked to leave, in place of an option. -/
def Leaves (data : Bytes) (loc : Locals) : Prop :=
  data = [] ∨ ofLeBytes (filled (data.take 4) loc.mem) = 3

instance (data : Bytes) (loc : Locals) : Decidable (Leaves data loc) :=
  inferInstanceAs (Decidable (_ ∨ _))

/-- The event brings no quote into a statement. -/
def Quoteless (s : Server) : Event → Prop
  | .incoming _ => True
  | .readable fd data loc =>
    match (s.entry fd).2 with
    | .request => data ≠ [] →
      Stmt.Plain (requestOf data loc).name ∧ Stmt.Plain (requestOf data loc).pass
    | _ => Stmt.Plain (s.entry fd).1

/-- No quote goes into a statement that is run for the event and matters for what comes of it.
The password of a login goes into none, and the name of a user who stays goes into none. -/
def Unquoted (s : Server) : Event → Prop
  | .incoming _ => True
  | .readable fd data loc =>
    ((s.entry fd).2 = .request → data ≠ [] → QuoteFree (requestOf data loc)) ∧
    ((s.entry fd).2 = .authenticated → Leaves data loc → Stmt.Plain (s.entry fd).1) ∧
    ((s.entry fd).2 = .online → data = [] → Stmt.Plain (s.entry fd).1)

instance (s : Server) : (e : Event) → Decidable (Unquoted s e)
  | .incoming _ => isTrue trivial
  | .readable _ _ _ => inferInstanceAs (Decidable (_ ∧ _))

namespace Server

/-- The notices for all rows of status 1 but the sender's. -/
def notices (s : Server) (fd : Int32) (msg : Bytes) : List Sent :=
  ((Stmt.selectOnline.rows s.usrs).filter fun r => r.sockfd ≠ fd).map fun r =>
    ⟨fd, r.sockfd, .text msg⟩

def setUsrs (s : Server) (t : Table) : Server := { s with usrs := t }

/-- A request is answered. -/
def answer (s : Server) (fd : Int32) (msg : RequestMsg) (garbage : Response) : Server :=
  let v := verdict s.usrs msg fd garbage
  ((s.setUsrs v.2).setEntry fd
    (msg.name, if v.1 = success then .authenticated else (s.entry fd).2)).record
      [⟨fd, fd, .requestResponse v.1⟩]

/-- The row of a user is put offline. -/
def offline (s : Server) (name : Bytes) : Server :=
  s.setUsrs ((Stmt.update 0 (-1) name).run s.usrs)

/-- The data of an event in the state that its connection is in. -/
def nextIn (s : Server) (fd : Int32) (data : Bytes) (loc : Locals) : State → Server
  | .request => if data = [] then s.del fd else s.answer fd (requestOf data loc) loc.res
  | .authenticated =>
    let name := (s.entry fd).1
    if Leaves data loc then
      ((s.record (s.notices fd (isOffline name))).offline name).del fd
    else
      (s.record (⟨fd, fd, .optionResponse success⟩ :: s.notices fd (isOnline name))).setEntry fd
        (name, .online)
  | .online =>
    let name := (s.entry fd).1
    if data = [] then
      ((s.offline name).record ((s.offline name).notices fd (isOffline name))).del fd
    else s.record (s.notices fd (chatLine name (textOf data loc)))

/-- The state after an event. -/
def next (s : Server) : Event → Server
  | .incoming accepted => s.add (accept accepted)
  | .readable fd data loc => (s.touch fd).nextIn fd data loc (s.entry fd).2

end Server

/-! ### What a turn can do -/

/-- What handling a readable socket can do, by the state of its connection and the data. -/
inductive Turn (s : Server) (fd : Int32) (data : Bytes) (loc : Locals) : Server → Prop
  | dropped (hst : (s.entry fd).2 = .request) (hd : data = []) : Turn s fd data loc (s.del fd)
  | answered (hst : (s.entry fd).2 = .request) (hd : data ≠ []) :
    Turn s fd data loc (s.answer fd (requestOf data loc) loc.res)
  | exited (hst : (s.entry fd).2 = .authenticated) (hl : Leaves data loc) :
    Turn s fd data loc
      (((s.record (s.notices fd (isOffline (s.entry fd).1))).offline (s.entry fd).1).del fd)
  | chose (hst : (s.entry fd).2 = .authenticated) (hl : ¬ Leaves data loc) :
    Turn s fd data loc
      ((s.record (⟨fd, fd, .optionResponse success⟩ ::
        s.notices fd (isOnline (s.entry fd).1))).setEntry fd ((s.entry fd).1, .online))
  | left (hst : (s.entry fd).2 = .online) (hd : data = []) :
    Turn s fd data loc
      (((s.offline (s.entry fd).1).record
        ((s.offline (s.entry fd).1).notices fd (isOffline (s.entry fd).1))).del fd)
  | relayed (hst : (s.entry fd).2 = .online) (hd : data ≠ []) :
    Turn s fd data loc
      (s.record (s.notices fd (chatLine (s.entry fd).1 (textOf data loc))))

section Operations

variable (s : Server) (fd : Int32)

@[simp] lemma entry_setEntry (e : Bytes × State) : (s.setEntry fd e).entry fd = e := by
  simp [Server.setEntry, Server.entry]

@[simp] lemma setEntry_setEntry (e e' : Bytes × State) :
    (s.setEntry fd e).setEntry fd e' = s.setEntry fd e' := by
  simp [Server.setEntry]

@[simp] lemma entry_touch : (s.touch fd).entry fd = s.entry fd := by
  simp [Server.touch]

@[simp] lemma touch_touch : (s.touch fd).touch fd = s.touch fd := by
  rw [Server.touch, entry_touch, Server.touch, setEntry_setEntry]

lemma entry_del : (s.del fd).entry fd = ([], .request) := by
  simp [Server.del, Server.entry]

lemma entry_add (g : Int32) : (s.add g).entry fd = s.entry fd := by
  by_cases hg : fd = g
  · subst hg
    exact entry_touch s fd
  · simp [Server.add, Server.touch, Server.setEntry, Server.entry, hg]

lemma del_touch : (s.touch fd).del fd = s.del fd := by
  simp [Server.touch, Server.setEntry, Server.del]

lemma answer_touch (msg : RequestMsg) (garbage : Response) :
    (s.touch fd).answer fd msg garbage = s.answer fd msg garbage := by
  unfold Server.answer
  rw [entry_touch]
  have hset : ∀ t e, ((s.touch fd).setUsrs t).setEntry fd e = (s.setUsrs t).setEntry fd e := by
    simp [Server.touch, Server.setEntry, Server.setUsrs]
  simp only [hset]
  rfl

variable {s fd} in
lemma touch_eq_self (h : (s.entry fd).2 ≠ .request) : s.touch fd = s := by
  cases hc : s.conList fd with
  | none => simp [Server.entry, hc] at h
  | some e =>
    have he : s.entry fd = e := by simp [Server.entry, hc]
    have hupd : Function.update s.conList fd (some e) = s.conList := by
      rw [← hc, Function.update_eq_self]
    simp [Server.touch, Server.setEntry, he, hupd]

/-- The cases of `next`. -/
theorem next_turn (data : Bytes) (loc : Locals) :
    Turn s fd data loc (s.next (.readable fd data loc)) := by
  change Turn s fd data loc ((s.touch fd).nextIn fd data loc (s.entry fd).2)
  cases hst : (s.entry fd).2 with
  | request =>
    simp only [Server.nextIn, del_touch, answer_touch]
    split
    · next hd => exact .dropped hst hd
    · next hd => exact .answered hst hd
  | authenticated =>
    have hself : s.touch fd = s := touch_eq_self (by simp [hst])
    simp only [Server.nextIn, hself]
    split
    · next hl => exact .exited hst hl
    · next hl => exact .chose hst hl
  | online =>
    have hself : s.touch fd = s := touch_eq_self (by simp [hst])
    simp only [Server.nextIn, hself]
    split
    · next hd => exact .left hst hd
    · next hd => exact .relayed hst hd

end Operations

section Frame

variable {s s' : Server} {fd : Int32} {data : Bytes} {loc : Locals}

lemma Turn.conList_of_ne (h : Turn s fd data loc s') {g : Int32} (hg : g ≠ fd) :
    s'.conList g = s.conList g := by
  cases h <;> simp [Server.del, Server.answer, Server.offline, Server.setEntry, Server.record,
    Server.setUsrs, hg]

lemma Turn.sent (h : Turn s fd data loc s') :
    ∃ l, s'.sent = s.sent ++ l ∧ ∀ e ∈ l, e.source = fd := by
  have hnotices : ∀ (s : Server) msg, ∀ e ∈ s.notices fd msg, e.source = fd := by
    intro s msg e he
    obtain ⟨r, -, rfl⟩ := List.mem_map.mp he
    rfl
  cases h with
  | dropped => exact ⟨[], by simp [Server.del], by simp⟩
  | answered => exact ⟨_, rfl, by simp⟩
  | exited => exact ⟨_, rfl, hnotices _ _⟩
  | chose =>
    refine ⟨_, rfl, fun e he => ?_⟩
    rcases List.mem_cons.mp he with rfl | he
    · rfl
    · exact hnotices _ _ e he
  | left => exact ⟨_, rfl, hnotices _ _⟩
  | relayed => exact ⟨_, rfl, hnotices _ _⟩

end Frame

/-! ### The code computes it -/

lemma accept_ne (accepted : Int32) : accept accepted ≠ -1 := by
  unfold accept
  split
  · decide
  · rintro rfl
    simp_all

section Monadic

variable (s : Server) (fd : Int32)

@[simp] lemma entry_setUsrs (t : Table) : (s.setUsrs t).entry fd = s.entry fd := rfl

@[simp] lemma entry_record (l : List Sent) : (s.record l).entry fd = s.entry fd := rfl

@[simp] lemma setEntry_record (l : List Sent) (e : Bytes × State) :
    (s.record l).setEntry fd e = (s.setEntry fd e).record l := rfl

@[simp] lemma record_record (l l' : List Sent) : (s.record l).record l' = s.record (l ++ l') := by
  simp [Server.record]

@[simp] lemma notices_record (l : List Sent) (msg : Bytes) :
    (s.record l).notices fd msg = s.notices fd msg := rfl

@[simp] lemma lookup_eq : lookup fd s = .ok (s.entry fd) (s.touch fd) := rfl

@[simp] lemma setName_eq (name : Bytes) :
    setName fd name s = .ok () (s.setEntry fd (name, (s.entry fd).2)) := rfl

@[simp] lemma setState_eq (state : State) :
    setState fd state s = .ok () (s.setEntry fd ((s.entry fd).1, state)) := rfl

@[simp] lemma send_eq (dest : Int32) (message : Message) :
    send fd dest message s = .ok () (s.record [⟨fd, dest, message⟩]) := rfl

@[simp] lemma delFromEpoll_eq : delFromEpoll fd s = .ok () (s.del fd) := rfl

@[simp] lemma addSocketToEpoll_eq : addSocketToEpoll fd s = .ok () (s.add fd) := rfl

end Monadic

section

variable {sql : Sqlite}

lemma take_eq_nil {n : ℕ} (hn : 0 < n) (data : Bytes) : data.take n = [] ↔ data = [] := by
  rw [List.take_eq_nil_iff, or_iff_right hn.ne']

variable (hw : sql.Works)

include hw

lemma database_execute (s : Server) (st : Stmt) (h : st.Quoteless) :
    database (fun t => execute sql t st) s = .ok true (s.setUsrs (st.run s.usrs)) := by
  simp [database, execute_eq hw s.usrs st h, Server.setUsrs]

lemma notifyToOnelineUser_eq (s : Server) (fd : Int32) (msg : Bytes) :
    notifyToOnelineUser sql fd msg s = .ok () (s.record (s.notices fd msg)) := by
  have hlex := Stmt.lex_text (show Stmt.selectOnline.Quoteless from trivial)
  have hdone := hw.query_ends hlex s.usrs
  have hrows := hw.query_done hlex s.usrs hdone
  simp [notifyToOnelineUser, hw.prepares hlex, hdone, hrows, Server.notices]

lemma database_query (s : Server) {name : Bytes} (h : Stmt.Plain name) :
    database (fun t => (queryUserInfo sql t name).map fun a => (a, t)) s =
      .ok ((userOf s.usrs name).map fun r => (r.password, r.status, r.sockfd)) s := by
  simp [database, queryUserInfo_eq hw s.usrs h, Except.map]

theorem checkUserInfo_eq (s : Server) {msg : RequestMsg} (hname : Stmt.Plain msg.name)
    (hpass : msg.option = 2 → Stmt.Plain msg.pass) (fd : Int32) (garbage : Response) :
    checkUserInfo sql msg fd garbage s =
      .ok (verdict s.usrs msg fd garbage).1 (s.setUsrs (verdict s.usrs msg fd garbage).2) := by
  have hinsert := fun h2 =>
    database_execute hw s (.insert msg.name msg.pass 1 fd) ⟨hname, hpass h2⟩
  have hupdate := database_execute hw s (.update 1 fd msg.name) hname
  simp only [checkUserInfo, bind, EStateM.bind, database_query hw s hname, verdict,
    addNewUserToDatabase, updateUserStatus]
  cases userOf s.usrs msg.name with
  | none =>
    by_cases h1 : msg.option = 1
    · simp [h1, Server.setUsrs, pure, EStateM.pure]
    · by_cases h2 : msg.option = 2
      · simp [h2, EStateM.bind, hinsert h2, pure, EStateM.pure]
      · simp [h1, h2, Server.setUsrs, pure, EStateM.pure]
  | some row =>
    by_cases h2 : msg.option = 2
    · simp [h2, Server.setUsrs, pure, EStateM.pure]
    · by_cases h1 : msg.option = 1
      · by_cases hp : msg.pass = row.password
        · by_cases h0 : row.status = 0
          · simp [h1, hp, h0, EStateM.bind, hupdate, pure, EStateM.pure]
          · by_cases hs1 : row.status = 1
            · simp [h1, hp, hs1, Server.setUsrs, pure, EStateM.pure]
            · simp [h1, hp, h0, hs1, Server.setUsrs, pure, EStateM.pure]
        · simp [h1, hp, Server.setUsrs, pure, EStateM.pure]
      · simp [h1, h2, Server.setUsrs, pure, EStateM.pure]

omit hw in
/-- With any other option nothing is assigned and nothing is run but the query. -/
lemma checkUserInfo_unknown {s s' : Server} {msg : RequestMsg} {fd : Int32}
    {garbage res : Response} (h1 : msg.option ≠ 1) (h2 : msg.option ≠ 2)
    (h : checkUserInfo sql msg fd garbage s = .ok res s') : garbage = res ∧ s = s' := by
  cases hq : queryUserInfo sql s.usrs msg.name with
  | error e => simp [checkUserInfo, bind, EStateM.bind, database, hq, Except.map] at h
  | ok answer =>
    rcases answer with _ | ⟨pass, status, sockfd⟩ <;>
      simpa [checkUserInfo, bind, EStateM.bind, database, hq, Except.map, h1, h2, pure,
        EStateM.pure] using h

lemma checkUserInfo_next {s s' : Server} {msg : RequestMsg} (hq : QuoteFree msg) {fd : Int32}
    {garbage res : Response} (h : checkUserInfo sql msg fd garbage s = .ok res s') :
    res = (verdict s.usrs msg fd garbage).1 ∧
      s' = s.setUsrs (verdict s.usrs msg fd garbage).2 := by
  by_cases ho : msg.option = 1 ∨ msg.option = 2
  · rw [checkUserInfo_eq hw s (hq.1 ho) hq.2] at h
    obtain ⟨rfl, rfl⟩ := by simpa using h
    exact ⟨rfl, rfl⟩
  · obtain ⟨h1, h2⟩ := not_or.mp ho
    obtain ⟨rfl, rfl⟩ := checkUserInfo_unknown h1 h2 h
    cases hu : userOf s.usrs msg.name <;> simp [verdict, hu, h1, h2, Server.setUsrs]

omit hw in
lemma handleRequest_of_check {s : Server} {fd : Int32} {data : Bytes} {loc : Locals}
    (hd : data ≠ []) (hcheck : checkUserInfo sql (requestOf data loc) fd loc.res s =
      .ok (verdict s.usrs (requestOf data loc) fd loc.res).1
        (s.setUsrs (verdict s.usrs (requestOf data loc) fd loc.res).2)) :
    handleRequest sql fd (data.take requestSize) loc s =
      .ok () (s.nextIn fd data loc .request) := by
  have hnil := take_eq_nil (n := requestSize) (by decide) data
  unfold requestOf at hcheck
  simp only [handleRequest, hnil, hd, if_false, bind, EStateM.bind, hcheck, setName_eq, send_eq,
    Server.nextIn, Server.answer, requestOf]
  split
  · next h => simp [h]
  · next h => simp [h, pure, EStateM.pure]

omit hw in
lemma handleRequest_dropped (s : Server) (fd : Int32) (loc : Locals) :
    handleRequest sql fd (List.take requestSize []) loc s =
      .ok () (s.nextIn fd [] loc .request) := by
  simp [handleRequest, Server.nextIn]

lemma handleRequest_eq (s : Server) (fd : Int32) {data : Bytes} (loc : Locals)
    (hq : data ≠ [] →
      Stmt.Plain (requestOf data loc).name ∧ Stmt.Plain (requestOf data loc).pass) :
    handleRequest sql fd (data.take requestSize) loc s =
      .ok () (s.nextIn fd data loc .request) := by
  by_cases hd : data = []
  · subst hd
    exact handleRequest_dropped s fd loc
  · obtain ⟨hname, hpass⟩ := hq hd
    exact handleRequest_of_check hd (checkUserInfo_eq hw s hname (fun _ => hpass) fd loc.res)

lemma handleRequest_next {s s' : Server} {fd : Int32} {data : Bytes} {loc : Locals}
    (hq : data ≠ [] → QuoteFree (requestOf data loc))
    (h : handleRequest sql fd (data.take requestSize) loc s = .ok () s') :
    s' = s.nextIn fd data loc .request := by
  have hrun : handleRequest sql fd (data.take requestSize) loc s =
      .ok () (s.nextIn fd data loc .request) := by
    by_cases hd : data = []
    · subst hd
      exact handleRequest_dropped s fd loc
    · cases hcheck : checkUserInfo sql (requestOf data loc) fd loc.res s with
      | ok res s₁ =>
        obtain ⟨rfl, rfl⟩ := checkUserInfo_next hw (hq hd) hcheck
        exact handleRequest_of_check hd hcheck
      | error e s₁ =>
        -- an exception would have ended the turn
        have hnil := take_eq_nil (n := requestSize) (by decide) data
        unfold requestOf at hcheck
        simp [handleRequest, hnil, hd, bind, EStateM.bind, hcheck] at h
  rw [hrun] at h
  simpa [eq_comm] using h

lemma handleAuthenticated_eq (s : Server) (fd : Int32) (data : Bytes) (loc : Locals)
    (hq : Leaves data loc → Stmt.Plain (s.entry fd).1) :
    handleAuthenticated sql fd (data.take 4) loc s =
      .ok () ((s.touch fd).nextIn fd data loc .authenticated) := by
  have hnil := take_eq_nil (n := 4) (by decide) data
  simp only [handleAuthenticated, bind, EStateM.bind, lookup_eq, hnil, Server.nextIn, entry_touch]
  by_cases hl : Leaves data loc
  · have hupdate := fun s' => database_execute hw s' (.update 0 (-1) (s.entry fd).1) (hq hl)
    have hl' := hl
    unfold Leaves at hl'
    simp only [hl', hl, if_true, EStateM.bind, notifyToOnelineUser_eq hw, updateUserStatus,
      hupdate, delFromEpoll_eq, Server.offline]
  · have hl' := hl
    unfold Leaves at hl'
    simp [hl', hl, EStateM.bind, notifyToOnelineUser_eq hw]

lemma handleOnline_eq (s : Server) (fd : Int32) (data : Bytes) (loc : Locals)
    (hq : data = [] → Stmt.Plain (s.entry fd).1) :
    handleOnline sql fd (data.take recvSize) loc s =
      .ok () ((s.touch fd).nextIn fd data loc .online) := by
  have hnil := take_eq_nil (n := recvSize) (by decide) data
  simp only [handleOnline, bind, EStateM.bind, lookup_eq, hnil, Server.nextIn, entry_touch]
  by_cases hd : data = []
  · have hupdate := fun s' => database_execute hw s' (.update 0 (-1) (s.entry fd).1) (hq hd)
    simp only [hd, if_true, EStateM.bind, updateUserStatus, hupdate, notifyToOnelineUser_eq hw,
      delFromEpoll_eq, Server.offline]
  · simp only [hd, if_false, notifyToOnelineUser_eq hw, textOf]

/-- The code computes `next`. -/
theorem handleEvent_eq {s : Server} {e : Event} (hq : Quoteless s e) :
    handleEvent sql e s = .ok () (s.next e) := by
  cases e with
  | incoming accepted =>
    simp [handleEvent, accept_ne, Server.next]
  | readable fd data loc =>
    simp only [handleEvent, handleSingleSocketCon, bind, EStateM.bind, lookup_eq, Server.next]
    unfold Quoteless at hq
    cases hst : (s.entry fd).2 with
    | request =>
      simp only [hst] at hq
      exact handleRequest_eq hw (s.touch fd) fd loc hq
    | authenticated =>
      simp only [hst] at hq
      have h := handleAuthenticated_eq hw (s.touch fd) fd data loc fun _ => by simpa using hq
      rwa [touch_touch] at h
    | online =>
      simp only [hst] at hq
      have h := handleOnline_eq hw (s.touch fd) fd data loc fun _ => by simpa using hq
      rwa [touch_touch] at h

/-- Where the quotes do not matter, a turn that no exception ends has computed it. -/
theorem handleEvent_next {s s' : Server} {e : Event} (hq : Unquoted s e)
    (h : handleEvent sql e s = .ok () s') : s' = s.next e := by
  cases e with
  | incoming accepted =>
    simp only [handleEvent, accept_ne, if_false, addSocketToEpoll_eq] at h
    simpa [Server.next, eq_comm] using h
  | readable fd data loc =>
    simp only [handleEvent, handleSingleSocketCon, bind, EStateM.bind, lookup_eq] at h
    simp only [Server.next]
    obtain ⟨hrequest, hauth, honline⟩ := hq
    cases hst : (s.entry fd).2 with
    | request =>
      simp only [hst] at h
      exact handleRequest_next hw (hrequest hst) h
    | authenticated =>
      simp only [hst] at h
      have hrun := handleAuthenticated_eq hw (s.touch fd) fd data loc
        (by simpa using hauth hst)
      rw [readSize, hrun, touch_touch] at h
      simpa [eq_comm] using h
    | online =>
      simp only [hst] at h
      have hrun := handleOnline_eq hw (s.touch fd) fd data loc (by simpa using honline hst)
      rw [readSize, hrun, touch_touch] at h
      simpa [eq_comm] using h

end

end SelfTraining.Chat
