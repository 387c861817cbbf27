import SelfTraining.Chat.Lifetimes

/-!
The server after a crash.

Only `SignalHandler` puts the users offline. When a process ends without it, the rows of those
who were in stay as they are, and the next process takes them for users who are in over another
connection.
-/

namespace SelfTraining.Chat

open SelfTraining.Text SelfTraining.Steps SelfTraining.Accounts

/-- A step of a server that gets no signal: it handles an event, or its process ends between two
events and the next is started on the table as it is. -/
inductive CrashStep (sql : Sqlite) : Server → Server → Prop where
  | handles {s s' : Server} (h : SessionStep sql s s') : CrashStep sql s s'
  | crashes {s : Server} : CrashStep sql s (started s.usrs)

/-! ### What an event does to the table and to who is in -/

/-- The table and the users after an event of a connection. -/
inductive Written (s : Server) (fd : Int32) : Table → (Int32 → Option Bytes) → Prop where
  | kept : Written s fd s.usrs s.live
  | registered {n p : Bytes} (h : userOf s.usrs n = none) :
    Written s fd ((Stmt.insert n p 1 fd).run s.usrs) (Function.update s.live fd (some n))
  | loggedIn {n : Bytes} {row : Row} (h : userOf s.usrs n = some row) (h0 : row.status = 0) :
    Written s fd ((Stmt.update 1 fd n).run s.usrs) (Function.update s.live fd (some n))
  | left {n : Bytes} (h : s.live fd = some n) :
    Written s fd ((Stmt.update 0 (-1) n).run s.usrs) (Function.update s.live fd none)

/-- Rows as the program writes them: names are unique, and who is online has a socket. -/
structure Rows (t : Table) : Prop where
  unique : (t.map Row.username).Nodup
  status : ∀ r ∈ t, r.status = 0 ∨ r.status = 1 ∧ r.sockfd ≠ -1

section

variable {s s' : Server} {fd : Int32}

lemma Rows.status_cases (h : Rows s.usrs) {r : Row} (hr : r ∈ s.usrs) :
    r.status = 0 ∨ r.status = 1 := (h.status r hr).imp_right And.left

/-- **What a turn writes**, whoever else the table has online. -/
lemma Turn.written (hrows : Rows s.usrs) {data : Bytes} {loc : Locals}
    (he : Allowed s (.readable fd data loc)) (ht : Turn s fd data loc s') :
    Written s fd s'.usrs s'.live := by
  have hkept : s'.usrs = s.usrs → s'.live = s.live → Written s fd s'.usrs s'.live := by
    intro husrs hlive
    rw [husrs, hlive]
    exact .kept
  cases ht with
  | dropped hst =>
    exact hkept rfl (by rw [live_del, ← not_live_of_entry hst, Function.update_eq_self])
  | answered hst hd =>
    have hlive := live_answer hst (requestOf data loc) loc.res
    rcases verdict_cases s.usrs (requestOf data loc) fd loc.res with
      ⟨-, hu, hv⟩ | ⟨-, ⟨row, hu, -, h0⟩, hv⟩ | ⟨ht, hv⟩
    · rw [hv, if_pos rfl] at hlive
      rw [hlive, show (s.answer fd (requestOf data loc) loc.res).usrs = _ from
        congrArg Prod.snd hv]
      exact .registered hu
    · rw [hv, if_pos rfl] at hlive
      rw [hlive, show (s.answer fd (requestOf data loc) loc.res).usrs = _ from
        congrArg Prod.snd hv]
      exact .loggedIn hu h0
    · -- anything else is no success
      have hres : (verdict s.usrs (requestOf data loc) fd loc.res).1 ≠ success := by
        refine hv.resolve_right fun hun => ?_
        rcases hun.1 with ⟨h1, h2⟩ | ⟨-, row, hu, -, h0, h1⟩
        · exact (he hst hd).1.elim h1 h2
        · exact (hrows.status_cases (mem_of_userOf hu).1).elim h0 h1
      rw [if_neg hres, ← not_live_of_entry hst, Function.update_eq_self] at hlive
      exact hkept ht hlive
  | exited hst =>
    rw [live_del]
    exact .left (live_of_entry (by simp [hst]))
  | chose hst =>
    refine hkept rfl ?_
    rw [live_setEntry, if_neg (by simp), ← live_of_entry (by simp [hst])]
    exact Function.update_eq_self fd s.live
  | left hst =>
    rw [live_del]
    exact .left (live_of_entry (by simp [hst]))
  | relayed => exact hkept rfl rfl

lemma Written.rows {t : Table} {live : Int32 → Option Bytes} (h : Written s fd t live)
    (hrows : Rows s.usrs) (hfd : fd ≠ -1) : Rows t := by
  cases h with
  | kept => exact hrows
  | @registered n p hu =>
    refine ⟨?_, fun r hr => ?_⟩
    · have hnew := userOf_eq_none.mp hu
      simpa [Stmt.run, List.nodup_append] using ⟨hrows.unique, fun r hr heq => hnew
        (List.mem_map.mpr ⟨r, hr, heq⟩)⟩
    · rcases List.mem_append.mp hr with hr | hr
      · exact hrows.status r hr
      · obtain rfl := List.mem_singleton.mp hr
        exact .inr ⟨rfl, hfd⟩
  | @loggedIn n row hu h0 =>
    refine ⟨by rw [username_update]; exact hrows.unique, fun r hr => ?_⟩
    obtain ⟨r₀, hr₀, rfl⟩ := mem_update.mp hr
    by_cases hn : r₀.username = n
    · simpa [hn] using hfd
    · simpa [hn] using hrows.status r₀ hr₀
  | @left n hl =>
    refine ⟨by rw [username_update]; exact hrows.unique, fun r hr => ?_⟩
    obtain ⟨r₀, hr₀, rfl⟩ := mem_update.mp hr
    by_cases hn : r₀.username = n
    · simp [hn]
    · simpa [hn] using hrows.status r₀ hr₀

/-! ### Who is locked out -/

lemma userOf_insert {t : Table} {name n p : Bytes} {status sockfd : Int32} {row : Row}
    (h : userOf t name = some row) :
    userOf ((Stmt.insert n p status sockfd).run t) name = some row := by
  unfold userOf at h ⊢
  simp [Stmt.run, List.find?_append, h]

lemma userOf_update_of_ne {t : Table} {name n : Bytes} {status sockfd : Int32} (hne : n ≠ name) :
    userOf ((Stmt.update status sockfd n).run t) name = userOf t name := by
  have hkey : ((fun r : Row => decide (r.username = name)) ∘ fun r =>
      if r.username = n then { r with status := status, sockfd := sockfd } else r) =
        fun r => decide (r.username = name) := by
    funext r
    by_cases hn : r.username = n <;> simp [hn]
  unfold userOf
  simp only [Stmt.run]
  rw [List.find?_map, hkey]
  cases hfind : t.find? fun r => r.username = name with
  | none => rfl
  | some r =>
    have hr : r.username = name := by simpa using List.find?_some hfind
    have hrn : r.username ≠ n := fun h => hne (h.symm.trans hr)
    simp [hrn]

/-- The user has a row that is online, and no connection. -/
structure LockedOut (name : Bytes) (row : Row) (s : Server) : Prop extends Keys s, Rows s.usrs where
  found : userOf s.usrs name = some row
  online : row.status = 1
  out : ∀ f, s.live f ≠ some name

variable {name : Bytes} {row : Row}

lemma LockedOut.written (h : LockedOut name row s) {t : Table} {live : Int32 → Option Bytes}
    (hw : Written s fd t live) : userOf t name = some row ∧ ∀ f, live f ≠ some name := by
  have hupdate : ∀ n f, n ≠ name → Function.update s.live fd (some n) f ≠ some name := by
    intro n f hne
    by_cases hf : f = fd
    · simp [hf, hne]
    · simpa [hf] using h.out f
  cases hw with
  | kept => exact ⟨h.found, h.out⟩
  | @registered n p hu =>
    have hne : n ≠ name := by
      rintro rfl
      rw [h.found] at hu
      cases hu
    exact ⟨userOf_insert h.found, fun f => hupdate n f hne⟩
  | @loggedIn n row' hu h0 =>
    have hne : n ≠ name := by
      rintro rfl
      obtain rfl : row = row' := Option.some.inj (h.found.symm.trans hu)
      rw [h.online] at h0
      exact absurd h0 (by decide)
    exact ⟨by rw [userOf_update_of_ne hne]; exact h.found, fun f => hupdate n f hne⟩
  | @left n hl =>
    have hne : n ≠ name := fun heq => h.out fd (heq ▸ hl)
    refine ⟨by rw [userOf_update_of_ne hne]; exact h.found, fun f => ?_⟩
    by_cases hf : f = fd
    · simp [hf]
    · simpa [hf] using h.out f

lemma LockedOut.next (h : LockedOut name row s) {e : Event} (he : Allowed s e)
    (hr : Registered s e) : LockedOut name row (s.next e) := by
  cases e with
  | incoming accepted =>
    refine { h.toKeys.add (accept_ne accepted), h.toRows with
      found := h.found, online := h.online, out := fun f => ?_ }
    rw [Server.next, live_add]
    exact h.out f
  | readable fd data loc =>
    have ht := next_turn s fd data loc
    have hk := h.toKeys.turn hr ht (h.toKeys.quoteless he.plainRequest)
    have hwritten := ht.written h.toRows he
    obtain ⟨hfound, hout⟩ := h.written hwritten
    exact { hk, hwritten.rows h.toRows (h.valid fd hr) with
      found := hfound, online := h.online, out := hout }

lemma LockedOut.started (h : LockedOut name row s) : LockedOut name row (started s.usrs) where
  plain fd e he := by simp [Chat.started] at he
  valid fd hfd := by simp [Chat.started] at hfd
  listed fd := by simp [Chat.started]
  unique := h.unique
  status := h.status
  found := h.found
  online := h.online
  out f := by simp [Chat.started, Server.live]

lemma LockedOut.step {sql : Sqlite} (hw : sql.Works) (h : LockedOut name row s)
    (hstep : CrashStep sql s s') : LockedOut name row s' := by
  cases hstep with
  | handles hs =>
    obtain ⟨e, he⟩ := hs
    rw [he.eq_next hw h.toKeys]
    exact h.next he.1 he.2.1
  | crashes => exact h.started

/-- **A crash locks out** those who were in. -/
lemma Consistent.lockedOut (h : Consistent s) (hin : s.live fd = some name) :
    ∃ row, LockedOut name row (started s.usrs) := by
  obtain ⟨row, hrow, hn, h1, hsock⟩ := (h.agree name fd).mpr hin
  have hfound : userOf s.usrs name = some row := by
    cases hu : userOf s.usrs name with
    | none => exact absurd (List.mem_map.mpr ⟨row, hrow, hn⟩) (userOf_eq_none.mp hu)
    | some r =>
      obtain ⟨hr, hrn⟩ := mem_of_userOf hu
      rw [eq_of_username h.unique hr hrow (hrn.trans hn.symm)]
  exact ⟨row, {
    plain := fun fd e he => by simp [Chat.started] at he
    valid := fun fd hfd => by simp [Chat.started] at hfd
    listed := fun fd => by simp [Chat.started]
    unique := h.unique
    status := fun r hr => (h.status r hr).imp_right fun h1 => ⟨h1, h.sockfd_ne hr h1⟩
    found := hfound
    online := h1
    out := fun f => by simp [Chat.started, Server.live] }⟩

lemma LockedOut.refused (h : LockedOut name row s) {g : Int32} {data : Bytes} {loc : Locals}
    (he : Allowed s (.readable g data loc)) (hst : (s.entry g).2 = .request) (hd : data ≠ [])
    (hname : (requestOf data loc).name = name) :
    (s.next (.readable g data loc)).sent = s.sent ++ deliver g
      (if (requestOf data loc).option = 2 then .taken
        else if (requestOf data loc).pass = row.password then .alreadyIn
        else .wrongPassword) := by
  have hu : userOf s.usrs (requestOf data loc).name = some row := by rw [hname]; exact h.found
  have hv : (verdict s.usrs (requestOf data loc) g loc.res).1 = responseTo
      (if (requestOf data loc).option = 2 then .taken
        else if (requestOf data loc).pass = row.password then .alreadyIn
        else .wrongPassword) := by
    rcases (he hst hd).1 with hopt | hopt
    · by_cases hpass : (requestOf data loc).pass = row.password <;>
        simp [verdict, hu, hopt, hpass, h.online, responseTo]
    · simp [verdict, hu, hopt, responseTo]
  have ht := next_turn s g data loc
  generalize s.next (.readable g data loc) = s' at ht
  cases ht with
  | answered hst' hd' =>
    unfold deliver
    rw [← hv]
    rfl
  | dropped hst' hd' => exact absurd hd' hd
  | exited hst' => rw [hst] at hst'; cases hst'
  | chose hst' => rw [hst] at hst'; cases hst'
  | left hst' => rw [hst] at hst'; cases hst'
  | relayed hst' => rw [hst] at hst'; cases hst'

end

/-! ### Runs -/

section

variable {sql : Sqlite} {s₀ s u : Server} {as : List Life} {fd : Int32} {name : Bytes}

/-- **A crash locks users out until there is a signal.** A user is in when the process ends
without one. However often it is started again, and whatever it handles then: the row of the
user stays as it is, nobody is in under this name, and each request for it is refused, even with
the right password. A signal ends this: it puts everybody offline, and the password is kept. -/
theorem crash_locks_out (hw : sql.Works) (h0 : Fresh s₀) (hrun : Trace (LifeStep sql) s₀ as s)
    (hin : s.live fd = some name) (hcrash : Reaches (CrashStep sql) (started s.usrs) u) :
    ∃ row, userOf s.usrs name = some row ∧ userOf u.usrs name = some row ∧
      (∀ f, u.live f ≠ some name) ∧
      (∀ g data loc v, SessionEvent sql (.readable g data loc) u v →
        (u.entry g).2 = .request → data ≠ [] → (requestOf data loc).name = name →
        v.sent = u.sent ++ deliver g
          (if (requestOf data loc).option = 2 then .taken
            else if (requestOf data loc).pass = row.password then .alreadyIn
            else .wrongPassword)) ∧
      ∀ signum v, signalHandler sql signum u = .ok () v →
        Fresh (started v.usrs) ∧ (started v.usrs).book.passOf name = some row.password := by
  obtain ⟨row, hstart⟩ := (consistent_of_life hw h0 hrun).lockedOut hin
  have hu : LockedOut name row u := hcrash.invariant hstart fun _ _ h hstep => h.step hw hstep
  refine ⟨row, hstart.found, hu.found, hu.out, fun g data loc v hstep hst hd hname => ?_,
    fun signum v hv => ⟨?_, ?_⟩⟩
  · rw [hstep.eq_next hw hu.toKeys]
    exact hu.refused hstep.1 hst hd hname
  · rw [signalHandler_ok hw hv]
    exact fresh_of_signal hu.unique hu.status
  · have hp : u.book.passOf name = some row.password := by rw [passOf_book, hu.found]; rfl
    exact passOf_of_run deliver_injective (Trace.nil.snoc (stopped_book hw hv)) hp

end

/-- The process that is started after the first one has crashed, with a connection. -/
def afterCrash : Server := [Event.incoming 7].foldl Server.next (started firstProcess.usrs)

/-- The user who has registered comes back with the right password. -/
theorem crash_locks_out_registered :
    (afterCrash.next comeBack).sent = afterCrash.sent ++ deliver 7 .alreadyIn := by
  have hw := Sqlite.reference_works
  have hes : Schedule emptyServer firstLife := by decide +kernel
  have hlife := hes.life hw emptyServer_fresh.consistent
  have hin : firstProcess.live 5 = some (bytes "al") := by decide +kernel
  obtain ⟨row, hstart⟩ := (consistent_of_life hw emptyServer_fresh hlife).lockedOut hin
  have hconnect : CrashStep .reference (started firstProcess.usrs) afterCrash :=
    .handles ⟨.incoming 7, trivial, trivial, handleEvent_eq hw trivial⟩
  have hallowed : Allowed afterCrash comeBack := by decide +kernel
  have hevent : SessionEvent .reference comeBack afterCrash (afterCrash.next comeBack) :=
    ⟨hallowed, by decide +kernel,
      handleEvent_eq hw ((hstart.step hw hconnect).toKeys.quoteless hallowed.plainRequest)⟩
  obtain ⟨row', hrow, -, -, hrefused, -⟩ :=
    crash_locks_out hw emptyServer_fresh hlife hin (Relation.ReflTransGen.single hconnect)
  have hfound : userOf firstProcess.usrs (bytes "al") = some ⟨bytes "al", bytes "pw", 1, 5⟩ := by
    decide +kernel
  obtain rfl : (⟨bytes "al", bytes "pw", 1, 5⟩ : Row) = row' :=
    Option.some.inj (hfound.symm.trans hrow)
  exact hrefused 7 _ _ _ hevent (by decide +kernel) (by decide +kernel) (by decide +kernel)

end SelfTraining.Chat
