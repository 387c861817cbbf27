import SelfTraining.Lib.Accounts
import SelfTraining.Chat.Session

/-!
The server over several lifetimes on one database.

A signal that comes while no event is handled makes the process put everybody offline and end;
another process may be started on the table that is left. From outside, all the lifetimes
together are one book of accounts: `server_refines_book` gives each step of a server as a step
of the book, with the calls of `send` as its answers, and what the book says of a whole run is
then true of the server.
-/

namespace SelfTraining.Chat

open SelfTraining.Text SelfTraining.Steps SelfTraining.Accounts

/-! ### The end of a process -/

def sigint : Int32 := 2
def sigkill : Int32 := 9

/-- `SignalHandler`. The second test assigns `SIGKILL`, and what is assigned is tested. -/
def signalHandler (sql : Sqlite) (signum : Int32) : ServerM Unit := do
  if signum = sigint ∨ sigkill ≠ 0 then
    let _ ← database fun t => setAllUsersOffline sql t

/-- A process that has been started on a table. -/
def started (t : Table) : Server := ⟨fun _ => none, ∅, t, []⟩

/-- What a server goes through: it handles an event and makes some calls of `send`, or it gets a
signal. -/
inductive Life where
  | handles (server : Server) (event : Event) (sends : List Sent)
  | stops (signum : Int32)

/-- A step in the lifetimes of a server. A signal comes between two events, and interrupts the
handling of none; after it the next process is started. -/
inductive LifeStep (sql : Sqlite) : Life → Server → Server → Prop where
  | handles {e : Event} {s s' : Server} (h : SessionEvent sql e s s') :
    LifeStep sql (.handles s e (s'.sent.drop s.sent.length)) s s'
  | stops {signum : Int32} {s s' : Server} (h : signalHandler sql signum s = .ok () s') :
    LifeStep sql (.stops signum) s (started s'.usrs)

/-! ### The book -/

/-- The accounts as the table has them, and the users as `con_list` has them. -/
def Server.book (s : Server) : Book Bytes Bytes Int32 where
  accounts := s.usrs.map fun r => (r.username, r.password)
  user := s.live

def responseTo : Answer → Response
  | .welcome => success
  | .unknown => errorUsernameNotFound
  | .wrongPassword => errorPasswordNotMatching
  | .alreadyIn => errorUserLoggedIn
  | .taken => errorDuplicateUsername

/-- A request is answered by one call of `send` and no others. -/
def deliver (fd : Int32) (a : Answer) : List Sent := [⟨fd, fd, .requestResponse (responseTo a)⟩]

/-- What happens to the book, if anything: by the state of the connection, and for a request
with all the calls of `send` that are made. -/
def Life.op : Life → Option (Op Bytes Bytes Int32 (List Sent))
  | .handles _ (.incoming _) _ => none
  | .handles s (.readable fd data loc) sends =>
    match (s.entry fd).2 with
    | .request =>
      let msg := requestOf data loc
      if data = [] then none
      else if msg.option = 2 then some (.register fd msg.name msg.pass sends)
      else some (.login fd msg.name msg.pass sends)
    | .authenticated => if Leaves data loc then some (.leave fd) else none
    | .online => if data = [] then some (.leave fd) else none
  | .stops _ => some .close

lemma deliver_injective (fd : Int32) : Function.Injective (deliver fd) := by
  intro a b h
  have hres : responseTo a = responseTo b := by simpa [deliver] using h
  cases a <;> cases b <;> first | rfl | exact absurd hres (by decide)

section

variable {s s' : Server} {fd : Int32} {name : Bytes}

lemma accounts_update (status sockfd : Int32) (name : Bytes) (t : Table) :
    ((Stmt.update status sockfd name).run t).map (fun r => (r.username, r.password)) =
      t.map fun r => (r.username, r.password) := by
  unfold Stmt.run
  rw [List.map_map]
  refine List.map_congr_left fun r _ => ?_
  by_cases h : r.username = name <;> simp [h]

lemma accounts_setOffline (t : Table) :
    (Stmt.setOffline.run t).map (fun r => (r.username, r.password)) =
      t.map fun r => (r.username, r.password) := by
  unfold Stmt.run
  rw [List.map_map]
  refine List.map_congr_left fun r _ => ?_
  by_cases h : r.sockfd = -1 <;> simp [h]

lemma passOf_book : s.book.passOf name = (userOf s.usrs name).map Row.password := by
  unfold Book.passOf Server.book userOf
  rw [List.find?_map, Option.map_map]
  rfl

lemma Consistent.in_iff (h : Consistent s) {row : Row} (hu : userOf s.usrs name = some row) :
    s.book.In name ↔ row.status = 1 := by
  obtain ⟨hmem, hname⟩ := mem_of_userOf hu
  constructor
  · rintro ⟨fd, hfd⟩
    obtain ⟨r, hr, hn, h1, -⟩ := (h.agree name fd).mpr hfd
    rwa [eq_of_username h.unique hmem hr (hname.trans hn.symm)]
  · intro h1
    exact ⟨row.sockfd, (h.agree name row.sockfd).mp ⟨row, hmem, hname, h1, rfl⟩⟩

lemma Consistent.answer_book (h : Consistent s) (hst : (s.entry fd).2 = .request)
    {msg : RequestMsg} (hopt : msg.option = 1 ∨ msg.option = 2) (garbage : Response) :
    Book.Step deliver
      (if msg.option = 2 then .register fd msg.name msg.pass
          [⟨fd, fd, .requestResponse (verdict s.usrs msg fd garbage).1⟩]
        else .login fd msg.name msg.pass
          [⟨fd, fd, .requestResponse (verdict s.usrs msg fd garbage).1⟩])
      s.book (s.answer fd msg garbage).book := by
  have hl := not_live_of_entry hst
  -- a refusal leaves the book alone
  have hstay : ∀ res, res ≠ success → verdict s.usrs msg fd garbage = (res, s.usrs) →
      (s.answer fd msg garbage).book = s.book := by
    intro res hres hv
    have hlive := live_answer hst msg garbage
    rw [hv, if_neg hres, ← hl, Function.update_eq_self] at hlive
    unfold Server.book
    rw [hlive, show (s.answer fd msg garbage).usrs = s.usrs from congrArg Prod.snd hv]
  have henter : ∀ t, verdict s.usrs msg fd garbage = (success, t) →
      (s.answer fd msg garbage).book =
        ⟨t.map fun r => (r.username, r.password), Function.update s.live fd (some msg.name)⟩ := by
    intro t hv
    have hlive := live_answer hst msg garbage
    rw [hv, if_pos rfl] at hlive
    unfold Server.book
    rw [hlive, show (s.answer fd msg garbage).usrs = t from congrArg Prod.snd hv]
  have h12 : (1 : UInt8) ≠ 2 := by decide
  cases hu : userOf s.usrs msg.name with
  | none =>
    have hp : s.book.passOf msg.name = none := by rw [passOf_book, hu]; rfl
    rcases hopt with hopt | hopt
    · have hv : verdict s.usrs msg fd garbage = (errorUsernameNotFound, s.usrs) := by
        simp [verdict, hu, hopt]
      rw [hstay _ (by decide) hv, hv, hopt, if_neg h12]
      exact .unknown hp
    · have hv : verdict s.usrs msg fd garbage =
          (success, (Stmt.insert msg.name msg.pass 1 fd).run s.usrs) := by
        simp [verdict, hu, hopt]
      have hbook : (s.answer fd msg garbage).book =
          (s.book.openAccount msg.name msg.pass).enter fd msg.name := by
        rw [henter _ hv]
        simp [Stmt.run, Server.book, Book.openAccount, Book.enter]
      rw [hbook, hv, if_pos hopt]
      exact .registered hp
  | some row =>
    have hp : s.book.passOf msg.name = some row.password := by rw [passOf_book, hu]; rfl
    rcases hopt with hopt | hopt
    · by_cases hpass : msg.pass = row.password
      · rcases h.status row (mem_of_userOf hu).1 with h0 | h1
        · have hv : verdict s.usrs msg fd garbage =
              (success, (Stmt.update 1 fd msg.name).run s.usrs) := by
            simp [verdict, hu, hopt, hpass, h0]
          have hbook : (s.answer fd msg garbage).book = s.book.enter fd msg.name := by
            rw [henter _ hv, accounts_update]
            rfl
          rw [hbook, hv, hopt, if_neg h12]
          refine .loggedIn (hpass ▸ hp) fun hin => ?_
          rw [h.in_iff hu, h0] at hin
          exact absurd hin (by decide)
        · have hv : verdict s.usrs msg fd garbage = (errorUserLoggedIn, s.usrs) := by
            simp [verdict, hu, hopt, hpass, h1]
          rw [hstay _ (by decide) hv, hv, hopt, if_neg h12]
          exact .alreadyIn (hpass ▸ hp) ((h.in_iff hu).mpr h1)
      · have hv : verdict s.usrs msg fd garbage = (errorPasswordNotMatching, s.usrs) := by
          simp [verdict, hu, hopt, hpass]
        rw [hstay _ (by decide) hv, hv, hopt, if_neg h12]
        exact .wrongPassword hp hpass
    · have hv : verdict s.usrs msg fd garbage = (errorDuplicateUsername, s.usrs) := by
        simp [verdict, hu, hopt]
      rw [hstay _ (by decide) hv, hv, if_pos hopt]
      exact .taken hp

lemma leave_book (hst : (s.entry fd).2 ≠ .request)
    (husrs : s'.usrs = (Stmt.update 0 (-1) (s.entry fd).1).run s.usrs)
    (hlive : s'.live = Function.update s.live fd none) :
    Book.Step deliver (.leave fd) s.book s'.book := by
  have hbook : s'.book = { s.book with user := Function.update s.book.user fd none } := by
    unfold Server.book
    rw [hlive, husrs, accounts_update]
  rw [hbook]
  exact .left (live_of_entry hst)

lemma book_congr (husrs : s'.usrs = s.usrs) (hlive : s'.live = s.live) : s'.book = s.book := by
  unfold Server.book
  rw [husrs, hlive]

/-- **One event** is a step of the book or leaves it alone. -/
lemma Consistent.next_book (h : Consistent s) {e : Event} (he : Allowed s e) :
    Trace (Book.Step deliver) s.book
      (Life.op (.handles s e ((s.next e).sent.drop s.sent.length))).toList (s.next e).book := by
  cases e with
  | incoming accepted =>
    rw [show (s.next (.incoming accepted)).book = s.book from book_congr rfl (live_add s _)]
    exact .nil
  | readable fd data loc =>
    have ht := next_turn s fd data loc
    generalize s.next (.readable fd data loc) = s' at ht
    have hone : ∀ {op}, Book.Step deliver op s.book s'.book →
        Trace (Book.Step deliver) s.book [op] s'.book := fun hstep => Trace.nil.snoc hstep
    cases ht with
    | dropped hst hd =>
      have hbook : (s.del fd).book = s.book :=
        book_congr rfl (by rw [live_del, ← not_live_of_entry hst, Function.update_eq_self])
      rw [hbook]
      simpa [Life.op, hst, hd] using Trace.nil
    | answered hst hd =>
      have hstep := h.answer_book hst (he hst hd).1 loc.res
      have hsent : (s.answer fd (requestOf data loc) loc.res).sent.drop s.sent.length =
          [⟨fd, fd, .requestResponse (verdict s.usrs (requestOf data loc) fd loc.res).1⟩] := by
        simp [Server.answer, Server.record, Server.setUsrs, Server.setEntry]
      rw [hsent]
      by_cases hopt : (requestOf data loc).option = 2
      · rw [if_pos hopt] at hstep
        simpa [Life.op, hst, hd, hopt] using hone hstep
      · rw [if_neg hopt] at hstep
        simpa [Life.op, hst, hd, hopt] using hone hstep
    | exited hst hl =>
      simpa [Life.op, hst, hl] using hone (leave_book (by simp [hst]) rfl (live_del _ _))
    | chose hst hl =>
      have hbook : ((s.record (⟨fd, fd, .optionResponse success⟩ ::
          s.notices fd (isOnline (s.entry fd).1))).setEntry fd ((s.entry fd).1, .online)).book =
            s.book := by
        refine book_congr rfl ?_
        rw [live_setEntry, if_neg (by simp), ← live_of_entry (by simp [hst])]
        exact Function.update_eq_self fd s.live
      rw [hbook]
      simpa [Life.op, hst, hl] using Trace.nil
    | left hst hd =>
      simpa [Life.op, hst, hd] using hone (leave_book (by simp [hst]) rfl (live_del _ _))
    | relayed hst hd =>
      have hbook : (s.record (s.notices fd (chatLine (s.entry fd).1 (textOf data loc)))).book =
          s.book := rfl
      rw [hbook]
      simpa [Life.op, hst, hd] using Trace.nil

end

/-! ### Signals -/

section

variable {sql : Sqlite} {s s' : Server} {signum : Int32}

lemma signalHandler_eq (hw : sql.Works) (s : Server) (signum : Int32) :
    signalHandler sql signum s = .ok () (s.setUsrs (Stmt.setOffline.run s.usrs)) := by
  have hdb : database (setAllUsersOffline sql) s =
      .ok true (s.setUsrs (Stmt.setOffline.run s.usrs)) := database_execute hw s .setOffline trivial
  simp [signalHandler, sigkill, hdb, bind, EStateM.bind]
  rfl

lemma signalHandler_ok (hw : sql.Works) (h : signalHandler sql signum s = .ok () s') :
    s'.usrs = Stmt.setOffline.run s.usrs := by
  rw [signalHandler_eq hw] at h
  cases h
  rfl

lemma Consistent.sockfd_ne (h : Consistent s) {r : Row} (hr : r ∈ s.usrs) (h1 : r.status = 1) :
    r.sockfd ≠ -1 := by
  intro hf
  obtain ⟨st, -, hcon⟩ :=
    live_eq_some.mp ((h.agree r.username (-1)).mp ⟨r, hr, rfl, h1, hf⟩)
  exact h.valid (-1) ((h.listed (-1)).mpr (by simp [hcon])) rfl

lemma username_setOffline (t : Table) :
    (Stmt.setOffline.run t).map Row.username = t.map Row.username := by
  unfold Stmt.run
  rw [List.map_map]
  refine List.map_congr_left fun r _ => ?_
  by_cases h : r.sockfd = -1 <;> simp [h]

/-- **After a signal** the next process starts as on a table where nobody has ever logged in. -/
lemma fresh_of_signal {t : Table} (hunique : (t.map Row.username).Nodup)
    (hstatus : ∀ r ∈ t, r.status = 0 ∨ r.status = 1 ∧ r.sockfd ≠ -1) :
    Fresh (started (Stmt.setOffline.run t)) where
  conList := rfl
  epoll := rfl
  unique := by
    rw [show (started (Stmt.setOffline.run t)).usrs = Stmt.setOffline.run t from rfl,
      username_setOffline]
    exact hunique
  offline r hr := by
    obtain ⟨r₀, hr₀, rfl⟩ := List.mem_map.mp hr
    rcases hstatus r₀ hr₀ with h0 | ⟨-, hf⟩
    · by_cases hf : r₀.sockfd = -1 <;> simp [hf, h0]
    · simp [hf]

lemma Consistent.stopped (h : Consistent s) (hw : sql.Works)
    (hs : signalHandler sql signum s = .ok () s') : Fresh (started s'.usrs) := by
  rw [signalHandler_ok hw hs]
  refine fresh_of_signal h.unique fun r hr => (h.status r hr).imp_right fun h1 => ?_
  exact ⟨h1, h.sockfd_ne hr h1⟩

lemma stopped_book (hw : sql.Works) (hs : signalHandler sql signum s = .ok () s') :
    Book.Step deliver .close s.book (started s'.usrs).book := by
  have hbook : (started s'.usrs).book = { s.book with user := fun _ => none } := by
    unfold Server.book
    rw [show (started s'.usrs).usrs = s'.usrs from rfl, signalHandler_ok hw hs,
      accounts_setOffline]
    rfl
  rw [hbook]
  exact .closed

lemma LifeStep.consistent (hw : sql.Works) {a : Life} (h : LifeStep sql a s s')
    (hc : Consistent s) : Consistent s' := by
  cases h with
  | handles hstep =>
    rw [hstep.eq_next hw hc.toKeys]
    exact hc.next hstep.1 hstep.2.1
  | stops hs => exact (hc.stopped hw hs).consistent

end

/-! ### Runs -/

section

variable {sql : Sqlite} {s₀ s : Server} {as : List Life}

lemma LifeStep.book {a : Life} {s s' : Server} (h : LifeStep sql a s s') (hw : sql.Works)
    (hc : Consistent s) : Trace (Book.Step deliver) s.book a.op.toList s'.book := by
  cases h with
  | handles h =>
    rw [h.eq_next hw hc.toKeys]
    exact hc.next_book h.1
  | stops h => exact Trace.nil.snoc (stopped_book hw h)

lemma book_of_life (hw : sql.Works) (h0 : Fresh s₀) (hrun : Trace (LifeStep sql) s₀ as s) :
    ∃ b, Trace (Book.Step deliver) s₀.book (as.filterMap Life.op) b ∧ Consistent s ∧
      s.book = b := by
  have hsim : ∀ a s t b, Consistent s ∧ s.book = b → LifeStep sql a s t →
      ∃ b', Trace (Book.Step deliver) b a.op.toList b' ∧ Consistent t ∧ t.book = b' := by
    rintro a s t b ⟨hc, rfl⟩ hstep
    exact ⟨t.book, hstep.book hw hc, hstep.consistent hw hc, rfl⟩
  exact hrun.simulate hsim ⟨h0.consistent, rfl⟩

lemma consistent_of_life (hw : sql.Works) (h0 : Fresh s₀) (hrun : Trace (LifeStep sql) s₀ as s) :
    Consistent s := by
  obtain ⟨-, -, hc, -⟩ := book_of_life hw h0 hrun
  exact hc

/-- **The server is a book of accounts.** Over all its lifetimes, whatever events and signals it
gets, what happens on its connections is a run of the book: each request is answered by one call
of `send`, with what the book has for it, and the table and `con_list` are the book after it. -/
theorem server_refines_book (hw : sql.Works) (h0 : Fresh s₀)
    (hrun : Trace (LifeStep sql) s₀ as s) :
    Trace (Book.Step deliver) s₀.book (as.filterMap Life.op) s.book := by
  obtain ⟨b, hb, -, rfl⟩ := book_of_life hw h0 hrun
  exact hb

/-- **An account is for good.** Over all the lifetimes of the server the table holds the
accounts from before and those that were registered, in this order. Once a user has been
registered, and whatever happens after it, each request under this name is answered by the
password it was registered with and by whether the user is in. -/
theorem accounts_for_good (hw : sql.Works) (h0 : Fresh s₀) (hrun : Trace (LifeStep sql) s₀ as s) :
    s.book.accounts =
      s₀.book.accounts ++ (as.filterMap Life.op).filterMap (Op.opened deliver) ∧
    ∀ fd name pass, .register fd name pass (deliver fd .welcome) ∈ as.filterMap Life.op →
      ∀ a s', LifeStep sql a s s' → ∀ g given sends,
        (a.op = some (.register g name given sends) → sends = deliver g .taken) ∧
        (a.op = some (.login g name given sends) →
          (given ≠ pass → sends = deliver g .wrongPassword) ∧
          (given = pass → (∃ f, s.live f = some name) → sends = deliver g .alreadyIn) ∧
          (given = pass → (∀ f, s.live f ≠ some name) → sends = deliver g .welcome)) := by
  obtain ⟨b, hbook, hc, rfl⟩ := book_of_life hw h0 hrun
  refine ⟨accounts_of_run deliver_injective hbook, fun fd name pass hmem a s' hstep g given sends =>
    ?_⟩
  have hp := passOf_of_registered deliver_injective hbook hmem
  have hone : ∀ op, a.op = some op → Book.Step deliver op s.book s'.book := by
    intro op hop
    have hsim := hstep.book hw hc
    rw [hop] at hsim
    exact hsim.step_of_singleton
  refine ⟨fun hop => (hone _ hop).register_reply hp, fun hop => ?_⟩
  rcases (hone _ hop).login_reply hp with ⟨hne, hr⟩ | ⟨heq, hin, hr⟩ | ⟨heq, hout, hr⟩
  · exact ⟨fun _ => hr, fun h => absurd h hne, fun h => absurd h hne⟩
  · exact ⟨fun h => absurd heq h, fun _ _ => hr, fun _ h => absurd hin fun ⟨f, hf⟩ => h f hf⟩
  · exact ⟨fun h => absurd heq h, fun _ h => absurd h hout, fun _ _ => hr⟩

end

/-! ### A user who comes back -/

/-- The steps of a server that handles some events. -/
def lifeOf (s : Server) : List Event → List Life
  | [] => []
  | e :: es => .handles s e ((s.next e).sent.drop s.sent.length) :: lifeOf (s.next e) es

lemma Schedule.life {sql : Sqlite} (hw : sql.Works) {s : Server} {es : List Event}
    (h : Schedule s es) (hc : Consistent s) :
    Trace (LifeStep sql) s (lifeOf s es) (es.foldl Server.next s) := by
  induction es generalizing s with
  | nil => exact .nil
  | cons e es ih =>
    obtain ⟨ha, hr, hes⟩ := h
    have hone : Schedule s [e] := ⟨ha, hr, trivial⟩
    exact Trace.cons (.handles (hone.trace hw hc).step_of_singleton) (ih hes (hc.next ha hr))

/-- A user registers; the process gets a signal; and in the next one somebody connects. -/
def firstLife : List Event :=
  [.incoming 5, .readable 5 (requestBytes 2 (bytes "al") (bytes "pw")) ⟨7, []⟩]

def firstProcess : Server := firstLife.foldl Server.next emptyServer

def secondProcess : Server :=
  [Event.incoming 7].foldl Server.next (started (Stmt.setOffline.run firstProcess.usrs))

def twoLives : List Life :=
  lifeOf emptyServer firstLife ++ [.stops sigint] ++
    lifeOf (started (Stmt.setOffline.run firstProcess.usrs)) [.incoming 7]

lemma twoLives_trace : Trace (LifeStep .reference) emptyServer twoLives secondProcess := by
  have hes : Schedule emptyServer firstLife := by decide +kernel
  have hfirst := hes.life Sqlite.reference_works emptyServer_fresh.consistent
  have hstop := hfirst.snoc (.stops (signalHandler_eq Sqlite.reference_works firstProcess sigint))
  have hc := consistent_of_life Sqlite.reference_works emptyServer_fresh hstop
  have hnext : Schedule (started (Stmt.setOffline.run firstProcess.usrs)) [.incoming 7] :=
    ⟨trivial, trivial, trivial⟩
  exact hstop.append (hnext.life Sqlite.reference_works hc)

theorem server_refines_book_twice : Trace (Book.Step deliver) emptyServer.book
    [.register 5 (bytes "al") (bytes "pw") (deliver 5 .welcome), .close] secondProcess.book := by
  have h := server_refines_book Sqlite.reference_works emptyServer_fresh twoLives_trace
  have hops : twoLives.filterMap Life.op =
      [.register 5 (bytes "al") (bytes "pw") (deliver 5 .welcome), .close] := by decide +kernel
  rwa [hops] at h

lemma secondProcess_live (f : Int32) : secondProcess.live f ≠ some (bytes "al") := by
  have hlive : secondProcess.live = fun _ => none := live_add _ 7
  simp [hlive]

def comeBack : Event := .readable 7 (requestBytes 1 (bytes "al") (bytes "pw")) ⟨7, []⟩

/-- The user logs in over another connection, and is welcomed. -/
theorem accounts_for_good_twice :
    (secondProcess.next comeBack).sent.drop secondProcess.sent.length = deliver 7 .welcome := by
  have hc := consistent_of_life Sqlite.reference_works emptyServer_fresh twoLives_trace
  have hes : Schedule secondProcess [comeBack] := by decide +kernel
  have hstep := (hes.life Sqlite.reference_works hc).step_of_singleton
  have hall := (accounts_for_good Sqlite.reference_works emptyServer_fresh twoLives_trace).2 5
    (bytes "al") (bytes "pw") (by decide +kernel) _ _ hstep 7 (bytes "pw")
    ((secondProcess.next comeBack).sent.drop secondProcess.sent.length)
  exact (hall.2 (by decide +kernel)).2.2 rfl secondProcess_live

end SelfTraining.Chat
