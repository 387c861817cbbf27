import SelfTraining.Chat.Statement

/-!
`MyDatabase`: the four operations of the program on top of SQLite.

SQLite and its wrapper are not part of the repository. They stand here as a parameter,
`Sqlite`, that receives the text of a statement. `Sqlite.Faithful` is what the program relies
on: a text that splits into the tokens of one of its statements is that statement. Every call
may fail, by an exception; `Sqlite.NeverFails` says that none does.
-/

namespace SelfTraining.Chat

open SelfTraining.Text SelfTraining.Sql

/-- SQLite behind its wrapper: whether a statement text prepares, the rows that stepping
through a query gives with a mark whether it came to the end, and the table after an
execution. Whatever fails throws; an execution that throws has changed nothing. -/
structure Sqlite where
  prepares : Bytes → Bool
  query : Bytes → Table → List Row × Bool
  exec : Bytes → Table → Option Table

/-- A text with the tokens of a statement is that statement: a query gives its rows from the
first on, all of them when it comes to the end, and an execution that succeeds runs it. -/
structure Sqlite.Faithful (sql : Sqlite) : Prop where
  query_grow : ∀ {text st}, lex text = some (Stmt.tokens st) →
    ∀ t, (sql.query text t).1 <+: st.rows t
  query_done : ∀ {text st}, lex text = some (Stmt.tokens st) →
    ∀ t, (sql.query text t).2 = true → (sql.query text t).1 = st.rows t
  exec_run : ∀ {text st}, lex text = some (Stmt.tokens st) →
    ∀ t t', sql.exec text t = some t' → t' = st.run t

/-- No statement of the program fails. -/
structure Sqlite.NeverFails (sql : Sqlite) : Prop where
  prepares : ∀ {text st}, lex text = some (Stmt.tokens st) → sql.prepares text = true
  query_ends : ∀ {text st}, lex text = some (Stmt.tokens st) → ∀ t, (sql.query text t).2 = true
  exec_ends : ∀ {text st}, lex text = some (Stmt.tokens st) → ∀ t, (sql.exec text t).isSome

/-- SQLite as the program hopes for it. -/
structure Sqlite.Works (sql : Sqlite) : Prop extends sql.Faithful, sql.NeverFails

/-- An engine that knows the statements of the program and no others. -/
def Sqlite.reference : Sqlite where
  prepares text := ((lex text).bind Stmt.parse).isSome
  query text t := match (lex text).bind Stmt.parse with
    | some st => (st.rows t, true)
    | none => ([], false)
  exec text t := ((lex text).bind Stmt.parse).map fun st => st.run t

lemma Sqlite.reference_faithful : Sqlite.reference.Faithful where
  query_grow h t := by simp [reference, h, Stmt.parse_tokens]
  query_done h t _ := by simp [reference, h, Stmt.parse_tokens]
  exec_run h t t' ht := by simpa [reference, h, Stmt.parse_tokens, eq_comm] using ht

lemma Sqlite.reference_neverFails : Sqlite.reference.NeverFails where
  prepares h := by simp [reference, h, Stmt.parse_tokens]
  query_ends h t := by simp [reference, h, Stmt.parse_tokens]
  exec_ends h t := by simp [reference, h, Stmt.parse_tokens]

lemma Sqlite.reference_works : Sqlite.reference.Works :=
  { reference_faithful, reference_neverFails with }

/-! ### `MyDatabase` -/

/-- `SQLite::Exception`: thrown by the constructor of a statement, or when it is run. -/
inductive SqlException where
  | prepare
  | execute
  deriving DecidableEq

section MyDatabase

variable (sql : Sqlite)

/-- The password, the status and the socket in the first row that the query gives. -/
def queryUserInfo (t : Table) (name : Bytes) :
    Except SqlException (Option (Bytes × Int32 × Int32)) :=
  if sql.prepares (Stmt.selectUser name).text then
    match sql.query (Stmt.selectUser name).text t with
    | (row :: _, _) => .ok (some (row.password, row.status, row.sockfd))
    | ([], true) => .ok none
    | ([], false) => .error .execute
  else .error .prepare

/-- The constructor of the statement stands before the `try`, so only a failing execution is
turned into `false`. -/
def execute (t : Table) (query : Stmt) : Except SqlException (Bool × Table) :=
  if sql.prepares query.text then
    match sql.exec query.text t with
    | some t' => .ok (true, t')
    | none => .ok (false, t)
  else .error .prepare

def updateUserStatus (t : Table) (name : Bytes) (status sockfd : Int32) :
    Except SqlException (Bool × Table) :=
  execute sql t (.update status sockfd name)

def addNewUserToDatabase (t : Table) (name pass : Bytes) (status sockfd : Int32) :
    Except SqlException (Bool × Table) :=
  execute sql t (.insert name pass status sockfd)

def setAllUsersOffline (t : Table) : Except SqlException (Bool × Table) :=
  execute sql t .setOffline

end MyDatabase

/-- The first row with this name. -/
def userOf (t : Table) (name : Bytes) : Option Row := t.find? fun r => r.username = name

lemma head?_rows_selectUser (t : Table) (name : Bytes) :
    ((Stmt.selectUser name).rows t).head? = userOf t name := by
  simp [Stmt.rows, userOf, List.head?_filter]

section Spec

variable {sql : Sqlite}

/-- A query for a plain name that does not throw reads the first row with that name. -/
theorem queryUserInfo_sound (hf : sql.Faithful) {t : Table} {name : Bytes}
    (hname : Stmt.Plain name) {answer : Option (Bytes × Int32 × Int32)}
    (h : queryUserInfo sql t name = .ok answer) :
    answer = (userOf t name).map fun r => (r.password, r.status, r.sockfd) := by
  have hlex : lex (Stmt.selectUser name).text = some (Stmt.selectUser name).tokens :=
    Stmt.lex_text hname
  have hgrow := hf.query_grow hlex t
  have hdone := hf.query_done hlex t
  rw [← head?_rows_selectUser]
  unfold queryUserInfo at h
  split at h
  · generalize hq : sql.query (Stmt.selectUser name).text t = q at h hgrow hdone
    rcases q with ⟨_ | ⟨row, rest⟩, _ | _⟩
    · simp at h
    · simp only at h hdone
      rw [← hdone trivial]
      simpa using h.symm
    all_goals
      obtain ⟨more, hmore⟩ := hgrow
      simp only at h hmore
      rw [← hmore]
      simpa using h.symm
  · simp at h

/-- An execution on plain text changes the table as the statement says, or not at all. -/
theorem execute_sound (hf : sql.Faithful) {t t' : Table} {st : Stmt} (hst : st.Quoteless)
    {done : Bool} (h : execute sql t st = .ok (done, t')) :
    t' = if done then st.run t else t := by
  unfold execute at h
  split at h
  · split at h
    · next hexec =>
      obtain ⟨rfl, rfl⟩ : true = done ∧ _ = t' := by simpa using h
      simpa using hf.exec_run (Stmt.lex_text hst) t _ hexec
    · obtain ⟨rfl, rfl⟩ : false = done ∧ t = t' := by simpa using h
      simp
  · simp at h

lemma queryUserInfo_eq (hw : sql.Works) (t : Table) {name : Bytes} (hname : Stmt.Plain name) :
    queryUserInfo sql t name =
      .ok ((userOf t name).map fun r => (r.password, r.status, r.sockfd)) := by
  have hlex : lex (Stmt.selectUser name).text = some (Stmt.selectUser name).tokens :=
    Stmt.lex_text hname
  have hprep := hw.prepares hlex
  have hdone := hw.query_ends hlex t
  obtain ⟨answer, hok⟩ : ∃ answer, queryUserInfo sql t name = .ok answer := by
    unfold queryUserInfo
    rw [if_pos hprep]
    generalize sql.query (Stmt.selectUser name).text t = q at hdone ⊢
    rcases q with ⟨_ | ⟨row, rest⟩, _ | _⟩
    · simp at hdone
    all_goals exact ⟨_, rfl⟩
  rw [hok, queryUserInfo_sound hw.toFaithful hname hok]

lemma execute_eq (hw : sql.Works) (t : Table) (st : Stmt) (hst : st.Quoteless) :
    execute sql t st = .ok (true, st.run t) := by
  have hlex := Stmt.lex_text hst
  obtain ⟨t', ht'⟩ := Option.isSome_iff_exists.mp (hw.exec_ends hlex t)
  unfold execute
  rw [if_pos (hw.prepares hlex), ht', hw.exec_run hlex t t' ht']

end Spec
end SelfTraining.Chat
