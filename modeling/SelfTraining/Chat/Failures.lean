import SelfTraining.Chat.Serving

/-!
Which failing statements a request survives.

`CheckUserInfo` catches what an execution throws, but neither what the query throws nor what
the constructor of a statement does, and of the two results it looks at one only.
-/

namespace SelfTraining.Chat

open SelfTraining.Text SelfTraining.Steps

section

variable {sql : Sqlite} {s : Server} {t : Table} {fd : Int32} {msg : RequestMsg} {data : Bytes}
  {loc : Locals}

/-- The rows that the query for the request's name comes to, and whether it ends after them. -/
def found (sql : Sqlite) (t : Table) (msg : RequestMsg) : List Row × Bool :=
  sql.query (Stmt.selectUser msg.name).text t

/-- What the first of them says. -/
def answerOf (sql : Sqlite) (t : Table) (msg : RequestMsg) : Option (Bytes × Int32 × Int32) :=
  (found sql t msg).1.head?.map fun r => (r.password, r.status, r.sockfd)

/-- The insertion of a new user, or the update of the status of a user who logs in, is come to
and fails. -/
def WriteFails (sql : Sqlite) (t : Table) (msg : RequestMsg) (fd : Int32) : Prop :=
  ∃ st, statementOf msg fd (answerOf sql t msg) = some st ∧
    (sql.prepares st.text = false ∨ sql.exec st.text t = none)

/-- Handling the request lets no exception escape; and when the insertion or the update has
failed, the table is as before, the connection waits for another request, and the response is
not a success. -/
structure Contained (sql : Sqlite) (s : Server) (fd : Int32) (data : Bytes) (loc : Locals) :
    Prop where
  returns : ∃ s', handleEvent sql (.readable fd data loc) s = .ok () s'
  failed : ∀ s', handleEvent sql (.readable fd data loc) s = .ok () s' →
    WriteFails sql s.usrs (requestOf data loc) fd →
    s'.usrs = s.usrs ∧ (s'.entry fd).2 = .request ∧
      ∃ res, res ≠ success ∧ s'.sent = s.sent ++ [⟨fd, fd, .requestResponse res⟩]

/-- The query prepares and finds a row or the end; an insertion that it leads to prepares; an
update that it leads to prepares and runs. -/
structure Survives (sql : Sqlite) (t : Table) (msg : RequestMsg) (fd : Int32) : Prop where
  query : sql.prepares (Stmt.selectUser msg.name).text = true
  step : (found sql t msg).1 = [] → (found sql t msg).2 = true
  insert : msg.option = 2 → (found sql t msg).1 = [] →
    sql.prepares (Stmt.insert msg.name msg.pass 1 fd).text = true
  update : msg.option = 1 → ∀ r, (found sql t msg).1.head? = some r → r.password = msg.pass →
    r.status = 0 → sql.prepares (Stmt.update 1 fd msg.name).text = true ∧
      (sql.exec (Stmt.update 1 fd msg.name).text t).isSome = true

/-! ### Single statements -/

lemma execute_eq_error {st : Stmt} {e : SqlException} (h : execute sql t st = .error e) :
    sql.prepares st.text = false := by
  unfold execute at h
  split at h
  · split at h <;> cases h
  · next hp => simpa using hp

lemma execute_eq_ok {st : Stmt} {done : Bool} {t' : Table} (h : execute sql t st = .ok (done, t')) :
    sql.prepares st.text = true ∧ (sql.exec st.text t = none ↔ done = false) ∧
      (done = false → t' = t) := by
  unfold execute at h
  split at h
  · next hp =>
    split at h
    · next hex =>
      obtain ⟨rfl, rfl⟩ := by simpa using h
      simp [hp, hex]
    · next hex =>
      obtain ⟨rfl, rfl⟩ := by simpa using h
      simp [hp, hex]
  · cases h

lemma queryUserInfo_eq_ok {answer : Option (Bytes × Int32 × Int32)} :
    queryUserInfo sql t msg.name = .ok answer ↔
      sql.prepares (Stmt.selectUser msg.name).text = true ∧
        ((found sql t msg).1 = [] → (found sql t msg).2 = true) ∧
        answerOf sql t msg = answer := by
  unfold queryUserInfo answerOf found
  split
  · next h =>
    rcases sql.query (Stmt.selectUser msg.name).text t with ⟨_ | ⟨row, rest⟩, _ | _⟩ <;>
      simp [h]
  · next h => simp [h]

/-- A request survives its statements when the query does not throw, and what it leads to does
not either, and succeeds where nobody looks at the result. -/
lemma survives_iff : Survives sql t msg fd ↔
    queryUserInfo sql t msg.name = .ok (answerOf sql t msg) ∧
      ∀ st, statementOf msg fd (answerOf sql t msg) = some st →
        sql.prepares st.text = true ∧ (msg.option = 1 → sql.exec st.text t ≠ none) := by
  rw [queryUserInfo_eq_ok]
  constructor
  · intro h
    refine ⟨⟨h.query, h.step, rfl⟩, fun st hst => ?_⟩
    unfold answerOf at hst
    cases hf : (found sql t msg).1.head? with
    | none =>
      obtain ⟨h2, rfl⟩ : msg.option = 2 ∧ Stmt.insert msg.name msg.pass 1 fd = st := by
        simpa [statementOf, hf] using hst
      exact ⟨h.insert h2 (List.head?_eq_none_iff.mp hf), by simp [h2]⟩
    | some r =>
      obtain ⟨⟨h1, hp, h0⟩, rfl⟩ : (msg.option = 1 ∧ msg.pass = r.password ∧ r.status = 0) ∧
          Stmt.update 1 fd msg.name = st := by
        simpa [statementOf, hf] using hst
      obtain ⟨hprep, hexec⟩ := h.update h1 r hf hp.symm h0
      exact ⟨hprep, fun _ => Option.isSome_iff_ne_none.mp hexec⟩
  · rintro ⟨⟨hquery, hstep, -⟩, hst⟩
    refine ⟨hquery, hstep, fun h2 hf => ?_, fun h1 r hf hp h0 => ?_⟩
    · exact (hst _ (by simp [statementOf, answerOf, hf, h2])).1
    · obtain ⟨hprep, hexec⟩ := hst (.update 1 fd msg.name) (by
        simp [statementOf, answerOf, hf, h1, hp, h0])
      exact ⟨hprep, Option.isSome_iff_ne_none.mpr (hexec h1)⟩

/-! ### The whole request -/

lemma handleEvent_request (hst : (s.entry fd).2 = .request) (hd : data ≠ []) :
    handleEvent sql (.readable fd data loc) s =
      match checkUserInfo sql (requestOf data loc) fd loc.res (s.touch fd) with
      | .error e s₁ => .error e s₁
      | .ok res s₁ => .ok () (s₁.respond fd (requestOf data loc).name res) := by
  have hd' : data.take requestSize ≠ [] := (take_eq_nil (by decide) data).not.mpr hd
  simp only [handleEvent, handleSingleSocketCon, bind, EStateM.bind, lookup_eq, hst, readSize,
    handleRequest_run hd']
  rfl

lemma not_contained_of_error {e : SqlException} {s' : Server}
    (hrun : handleEvent sql (.readable fd data loc) s = .error e s') :
    ¬ Contained sql s fd data loc := by
  rintro ⟨⟨s'', hs''⟩, -⟩
  rw [hrun] at hs''
  cases hs''

/-- A request that executes a statement is contained unless it is a login whose update fails,
which is answered with success all the same. -/
lemma contained_of_executed {st : Stmt} {done : Bool} (hst : (s.entry fd).2 = .request)
    (hmsg : requestOf data loc = msg) (ho : msg.option = 1 ∨ msg.option = 2)
    (hstmt : statementOf msg fd (answerOf sql s.usrs msg) = some st)
    (hex : execute sql s.usrs st = .ok (done, t))
    (hrun : handleEvent sql (.readable fd data loc) s =
      .ok () (((s.touch fd).setUsrs t).respond fd msg.name (responseOf msg done))) :
    Contained sql s fd data loc ↔ (msg.option = 1 → sql.exec st.text s.usrs ≠ none) := by
  subst hmsg
  obtain ⟨hprep, hnone, hsame⟩ := execute_eq_ok hex
  have hafter : ∀ {s'}, handleEvent sql (.readable fd data loc) s = .ok () s' → s' = _ :=
    fun h => ((EStateM.Result.ok.injEq ..).mp (hrun.symm.trans h)).2.symm
  cases done with
  | true =>
    have hexec : sql.exec st.text s.usrs ≠ none := hnone.not.mpr (by simp)
    refine iff_of_true ⟨⟨_, hrun⟩, ?_⟩ fun _ => hexec
    rintro s' - ⟨st', hst', hfail⟩
    obtain rfl : st = st' := Option.some.inj (hstmt.symm.trans hst')
    simp [hprep, hexec] at hfail
  | false =>
    have hexec : sql.exec st.text s.usrs = none := hnone.mpr rfl
    have hfails : WriteFails sql s.usrs (requestOf data loc) fd := ⟨st, hstmt, .inr hexec⟩
    rcases ho with h1 | h2
    · -- the result of the update is not looked at
      refine iff_of_false (fun h => ?_) fun h => h h1 hexec
      obtain ⟨-, -, res, hne, hsent⟩ := h.failed _ hrun hfails
      have hres : responseOf (requestOf data loc) false = res := by
        simpa [Server.respond, Server.record, Server.setEntry, Server.setUsrs, Server.touch] using
          hsent
      simp [responseOf, h1, hne.symm] at hres
    · have hres : responseOf (requestOf data loc) false = errorUnkown := by simp [responseOf, h2]
      refine iff_of_true ⟨⟨_, hrun⟩, fun s' hs' _ => ?_⟩ (by simp [h2])
      obtain rfl := hafter hs'
      rw [hres, hsame rfl]
      refine ⟨rfl, ?_, errorUnkown, by decide, rfl⟩
      have hne : errorUnkown ≠ success := by decide
      simp [Server.respond, hne, hst]

/-- **Failures are contained** if and only if the query does not throw, an insertion prepares,
and an update prepares and runs. -/
theorem failures_contained_iff (hst : (s.entry fd).2 = .request) (hd : data ≠ [])
    (ho : (requestOf data loc).option = 1 ∨ (requestOf data loc).option = 2) :
    Contained sql s fd data loc ↔ Survives sql s.usrs (requestOf data loc) fd := by
  rw [survives_iff]
  have hrun : handleEvent sql (.readable fd data loc) s = _ := handleEvent_request hst hd
  rw [checkUserInfo_run] at hrun
  generalize hmsg : requestOf data loc = msg at ho hrun ⊢
  have husrs : (s.touch fd).usrs = s.usrs := rfl
  rw [husrs] at hrun
  cases hq : queryUserInfo sql s.usrs msg.name with
  | error e =>
    -- the query throws
    rw [hq] at hrun
    exact iff_of_false (not_contained_of_error hrun) (by simp)
  | ok answer =>
    obtain ⟨-, -, rfl⟩ := queryUserInfo_eq_ok.mp hq
    simp only [hq] at hrun
    cases hstmt : statementOf msg fd (answerOf sql s.usrs msg) with
    | none =>
      simp only [hstmt] at hrun
      refine iff_of_true ⟨⟨_, hrun⟩, ?_⟩ (by simp)
      rintro s' - ⟨st, hst', -⟩
      rw [hmsg, hstmt] at hst'
      cases hst'
    | some st =>
      simp only [hstmt] at hrun
      cases hex : execute sql s.usrs st with
      | error e =>
        -- the constructor of the second statement throws
        simp only [hex] at hrun
        refine iff_of_false (not_contained_of_error hrun) ?_
        rintro ⟨-, h⟩
        have hprep := (h st rfl).1
        rw [execute_eq_error hex] at hprep
        cases hprep
      | ok result =>
        obtain ⟨done, t⟩ := result
        simp only [hex] at hrun
        rw [contained_of_executed hst hmsg ho hstmt hex hrun]
        constructor
        · intro h
          refine ⟨rfl, ?_⟩
          rintro st' ⟨⟩
          exact ⟨(execute_eq_ok hex).1, h⟩
        · exact fun h => (h.2 st rfl).2

end

/-- A database that can be read but not written. -/
def readOnly : Sqlite := { Sqlite.reference with exec := fun _ _ => none }

/-- A server with one registered user, who is offline. -/
def oneUser : Server := { emptyServer with usrs := [⟨bytes "al", bytes "pw", 0, -1⟩] }

/-- The sends of a handling that returns. -/
def sentBy (r : EStateM.Result SqlException Server Unit) : Option (List Sent) :=
  match r with
  | .ok _ s => some s.sent
  | .error _ _ => none

/-- A login whose update fails is answered with success; and a request whose name is a quote
throws. -/
theorem failures_not_contained :
    ∃ s, Trace (Step readOnly) oneUser [.incoming 5] s ∧
      WriteFails readOnly s.usrs (requestOf (requestBytes 1 (bytes "al") (bytes "pw")) ⟨0, []⟩) 5 ∧
      ¬ Contained readOnly s 5 (requestBytes 1 (bytes "al") (bytes "pw")) ⟨0, []⟩ ∧
      ¬ Contained .reference s 5 (requestBytes 1 (bytes "'") (bytes "pw")) ⟨0, []⟩ := by
  have hfails : WriteFails readOnly (oneUser.next (.incoming 5)).usrs
      (requestOf (requestBytes 1 (bytes "al") (bytes "pw")) ⟨0, []⟩) 5 :=
    ⟨.update 1 5 (bytes "al"), rfl, .inr rfl⟩
  refine ⟨oneUser.next (.incoming 5), .snoc .nil ⟨trivial, rfl⟩, hfails, fun h => ?_, fun h => ?_⟩
  · obtain ⟨s', hs'⟩ := h.returns
    obtain ⟨-, -, res, hne, hsent⟩ := h.failed s' hs' hfails
    have hanswer : sentBy (.ok () s') = some [⟨5, 5, .requestResponse success⟩] := by
      rw [← hs']
      decide +kernel
    have heq : s'.sent = [⟨5, 5, .requestResponse res⟩] := hsent
    rw [sentBy, heq] at hanswer
    exact hne (by simpa using hanswer)
  · obtain ⟨s', hs'⟩ := h.returns
    have hthrows : sentBy (.ok () s') = none := by
      rw [← hs']
      decide +kernel
    cases hthrows

/-- A registration whose insertion fails is answered with an error. -/
theorem insertion_failure_contained :
    Contained readOnly (oneUser.next (.incoming 5)) 5 (requestBytes 2 (bytes "bo") (bytes "pw"))
      ⟨0, []⟩ := by
  have hmsg : requestOf (requestBytes 2 (bytes "bo") (bytes "pw")) ⟨0, []⟩ =
      ⟨2, bytes "bo", bytes "pw"⟩ := by decide +kernel
  refine (failures_contained_iff (by rfl) (by decide) (.inr (by rw [hmsg]))).mpr ?_
  rw [hmsg]
  exact ⟨by decide +kernel, fun _ => by decide +kernel, fun _ _ => by decide +kernel, by simp⟩

end SelfTraining.Chat
