import SelfTraining.Lib.Sql

/-!
The `usrs` table and the statements of the program: the text that each is formatted to, its
tokens, and what it means.

The names and passwords go into the text as they are. `Stmt.lex_text` says that this is
harmless as long as they hold no quote.
-/

namespace SelfTraining.Chat

open SelfTraining.Text SelfTraining.Sql

/-- A row of `usrs`. The table has no unique column. -/
structure Row where
  username : Bytes
  password : Bytes
  status : Int32
  sockfd : Int32
  deriving DecidableEq

/-- The rows in the order in which a query visits them. -/
abbrev Table := List Row

/-! ### Statements -/

/-- The statements of the program. -/
inductive Stmt where
  | selectUser (name : Bytes)
  | selectOnline
  | update (status sockfd : Int32) (name : Bytes)
  | insert (name pass : Bytes) (status sockfd : Int32)
  | setOffline

namespace Stmt

/-- The text that is handed to SQLite. -/
def text : Stmt → Bytes
  | selectUser name => bytes "SELECT * FROM usrs WHERE username = '" ++ name ++ bytes "';"
  | selectOnline => bytes "SELECT sockfd FROM usrs WHERE status = 1;"
  | update status sockfd name =>
    bytes "UPDATE usrs SET status = " ++ decimal status.toInt ++ bytes ", sockfd = " ++
      decimal sockfd.toInt ++ bytes " WHERE username = '" ++ name ++ bytes "';"
  | insert name pass status sockfd =>
    bytes "INSERT INTO usrs (username, password, status, sockfd) VALUES ('" ++ name ++
      bytes "', '" ++ pass ++ bytes "', " ++ decimal status.toInt ++ bytes ", " ++
      decimal sockfd.toInt ++ bytes ");"
  | setOffline => bytes "UPDATE usrs SET status = 0, sockfd = -1 WHERE sockfd != -1;"

/-- A keyword or a name. -/
def word (s : String) : Token := .word (bytes s)

/-- The tokens of the statement, with its numbers and literals in their places. -/
def tokens : Stmt → List Token
  | selectUser name =>
    [word "SELECT", .symbol 42, word "FROM", word "usrs", word "WHERE", word "username",
      .symbol 61, .literal name, .symbol 59]
  | selectOnline =>
    [word "SELECT", word "sockfd", word "FROM", word "usrs", word "WHERE", word "status",
      .symbol 61, word "1", .symbol 59]
  | update status sockfd name =>
    [word "UPDATE", word "usrs", word "SET", word "status", .symbol 61] ++
      (numberTokens status.toInt ++ [.symbol 44, word "sockfd", .symbol 61] ++
        (numberTokens sockfd.toInt ++ [word "WHERE", word "username", .symbol 61, .literal name,
          .symbol 59]))
  | insert name pass status sockfd =>
    [word "INSERT", word "INTO", word "usrs", .symbol 40, word "username", .symbol 44,
      word "password", .symbol 44, word "status", .symbol 44, word "sockfd", .symbol 41,
      word "VALUES", .symbol 40, .literal name, .symbol 44, .literal pass, .symbol 44] ++
      (numberTokens status.toInt ++ [.symbol 44] ++
        (numberTokens sockfd.toInt ++ [.symbol 41, .symbol 59]))
  | setOffline =>
    [word "UPDATE", word "usrs", word "SET", word "status", .symbol 61, word "0", .symbol 44,
      word "sockfd", .symbol 61, .symbol 45, word "1", word "WHERE", word "sockfd", .symbol 33,
      .symbol 61, .symbol 45, word "1", .symbol 59]

/-- The rows a query gives. -/
def rows : Stmt → Table → List Row
  | selectUser name, t => t.filter fun r => r.username = name
  | selectOnline, t => t.filter fun r => r.status = 1
  | _, _ => []

/-- What executing the statement does to the table. -/
def run : Stmt → Table → Table
  | update status sockfd name, t =>
    t.map fun r => if r.username = name then { r with status := status, sockfd := sockfd } else r
  | insert name pass status sockfd, t => t ++ [⟨name, pass, status, sockfd⟩]
  | setOffline, t =>
    t.map fun r => if r.sockfd ≠ -1 then { r with status := 0, sockfd := -1 } else r
  | _, t => t

/-- Text that holds no quote. -/
def Plain (b : Bytes) : Prop := quote ∉ b

instance (b : Bytes) : Decidable (Plain b) := inferInstanceAs (Decidable (_ ∉ _))

/-- A statement whose literals hold no quote. -/
def Quoteless : Stmt → Prop
  | selectUser name => Plain name
  | update _ _ name => Plain name
  | insert name pass _ _ => Plain name ∧ Plain pass
  | _ => True

lemma lex_selectUser {name : Bytes} (h : Plain name) :
    lex (selectUser name).text = some (selectUser name).tokens := by
  have hstart : Lexer.scan ⟨[], .between⟩ (bytes "SELECT * FROM usrs WHERE username = '") =
      ⟨[word "SELECT", .symbol 42, word "FROM", word "usrs", word "WHERE", word "username",
        .symbol 61], .literal []⟩ := by decide +kernel
  unfold lex text
  rw [Lexer.scan_append, Lexer.scan_append, hstart, Lexer.scan_literal _ _ _ h]
  rfl

lemma lex_selectOnline : lex selectOnline.text = some selectOnline.tokens := by decide +kernel

lemma lex_setOffline : lex setOffline.text = some setOffline.tokens := by decide +kernel

lemma lex_update (status sockfd : Int32) {name : Bytes} (h : Plain name) :
    lex (update status sockfd name).text = some (update status sockfd name).tokens := by
  have hstart : Lexer.scan ⟨[], .between⟩ (bytes "UPDATE usrs SET status = ") =
      ⟨[word "UPDATE", word "usrs", word "SET", word "status", .symbol 61], .between⟩ := by
    decide +kernel
  have hcomma : ∀ ts w, Lexer.scan ⟨ts, .word w⟩ (bytes ", sockfd = ") =
      ⟨ts ++ [.word w] ++ [.symbol 44] ++ [word "sockfd"] ++ [.symbol 61], .between⟩ :=
    fun _ _ => rfl
  have hwhere : ∀ ts w, Lexer.scan ⟨ts, .word w⟩ (bytes " WHERE username = '") =
      ⟨ts ++ [.word w] ++ [word "WHERE"] ++ [word "username"] ++ [.symbol 61], .literal []⟩ :=
    fun _ _ => rfl
  have hend : ∀ ts s, (Lexer.scan ⟨ts, .literal s⟩ (bytes "';")).finish =
      some (ts ++ [.literal s] ++ [.symbol 59]) := fun _ _ => rfl
  unfold lex text
  simp only [Lexer.scan_append, hstart, Lexer.scan_decimal, hcomma, hwhere,
    Lexer.scan_literal _ _ _ h, hend, tokens, numberTokens, List.append_assoc, List.cons_append,
    List.nil_append]

lemma lex_insert {name pass : Bytes} (status sockfd : Int32) (hname : Plain name)
    (hpass : Plain pass) : lex (insert name pass status sockfd).text =
      some (insert name pass status sockfd).tokens := by
  have hstart : Lexer.scan ⟨[], .between⟩
      (bytes "INSERT INTO usrs (username, password, status, sockfd) VALUES ('") =
      ⟨[word "INSERT", word "INTO", word "usrs", .symbol 40, word "username", .symbol 44,
        word "password", .symbol 44, word "status", .symbol 44, word "sockfd", .symbol 41,
        word "VALUES", .symbol 40], .literal []⟩ := by decide +kernel
  have hnext : ∀ ts s, Lexer.scan ⟨ts, .literal s⟩ (bytes "', '") =
      ⟨ts ++ [.literal s] ++ [.symbol 44], .literal []⟩ := fun _ _ => rfl
  have hnumber : ∀ ts s, Lexer.scan ⟨ts, .literal s⟩ (bytes "', ") =
      ⟨ts ++ [.literal s] ++ [.symbol 44], .between⟩ := fun _ _ => rfl
  have hcomma : ∀ ts w, Lexer.scan ⟨ts, .word w⟩ (bytes ", ") =
      ⟨ts ++ [.word w] ++ [.symbol 44], .between⟩ := fun _ _ => rfl
  have hend : ∀ ts w, (Lexer.scan ⟨ts, .word w⟩ (bytes ");")).finish =
      some (ts ++ [.word w] ++ [.symbol 41] ++ [.symbol 59]) := fun _ _ => rfl
  unfold lex text
  simp only [Lexer.scan_append, hstart, Lexer.scan_literal _ _ _ hname, hnext,
    Lexer.scan_literal _ _ _ hpass, hnumber, Lexer.scan_decimal, hcomma, hend, tokens,
    numberTokens, List.append_assoc, List.cons_append, List.nil_append]

/-- **Plain text stays data**: a statement whose literals hold no quote splits into its own
tokens. -/
theorem lex_text {st : Stmt} (h : st.Quoteless) : lex st.text = some st.tokens := by
  cases st with
  | selectUser name => exact lex_selectUser h
  | selectOnline => exact lex_selectOnline
  | update status sockfd name => exact lex_update status sockfd h
  | insert name pass status sockfd => exact lex_insert status sockfd h.1 h.2
  | setOffline => exact lex_setOffline

/-! ### Reading tokens back -/

/-- The statement, if these are its tokens. -/
def check (st : Stmt) (ts : List Token) : Option Stmt := if st.tokens = ts then some st else none

/-- The statement with the literal that stands where the name of a query stands. -/
def parseSelect (ts : List Token) : Option Stmt :=
  match ts.drop 7 with
  | .literal name :: _ => check (selectUser name) ts
  | _ => none

def parseUpdate (ts : List Token) : Option Stmt := do
  let (status, rest) ← readNumber (ts.drop 5)
  let (sockfd, rest) ← readNumber (rest.drop 3)
  match rest.drop 3 with
  | .literal name :: _ => check (update (.ofInt status) (.ofInt sockfd) name) ts
  | _ => none

def parseInsert (ts : List Token) : Option Stmt := do
  match ts.drop 14 with
  | .literal name :: _ :: .literal pass :: _ :: rest =>
    let (status, rest) ← readNumber rest
    let (sockfd, _) ← readNumber (rest.drop 1)
    check (insert name pass (.ofInt status) (.ofInt sockfd)) ts
  | _ => none

/-- The statement that has these tokens. -/
def parse (ts : List Token) : Option Stmt :=
  if ts.head? = some (word "INSERT") then parseInsert ts
  else if ts.head? = some (word "SELECT") then
    if ts = selectOnline.tokens then some selectOnline else parseSelect ts
  else if ts = setOffline.tokens then some setOffline else parseUpdate ts

lemma update_ne_setOffline (status sockfd : Int32) (name : Bytes) :
    (update status sockfd name).tokens ≠ setOffline.tokens := by
  intro h
  have hmem : Token.literal name ∈ setOffline.tokens := h ▸ by simp [tokens]
  simp [tokens, word] at hmem

lemma selectUser_ne_selectOnline (name : Bytes) :
    (selectUser name).tokens ≠ selectOnline.tokens := by
  simp [tokens, word]

/-- Reading the tokens of a statement gives the statement. -/
theorem parse_tokens (st : Stmt) : parse st.tokens = some st := by
  have h1 : word "SELECT" ≠ word "INSERT" := by decide
  have h2 : word "UPDATE" ≠ word "INSERT" := by decide
  have h3 : word "UPDATE" ≠ word "SELECT" := by decide
  cases st with
  | selectUser name =>
    have hcheck : parseSelect (selectUser name).tokens = some (selectUser name) := by
      simp [parseSelect, tokens, check]
    have hhead : (selectUser name).tokens.head? = some (word "SELECT") := rfl
    simp only [parse, hhead, Option.some.injEq, h1, if_false, if_true,
      selectUser_ne_selectOnline, hcheck]
  | selectOnline => rfl
  | update status sockfd name =>
    have hcheck : parseUpdate (update status sockfd name).tokens =
        some (update status sockfd name) := by
      simp [parseUpdate, tokens, check, readNumber_numberTokens]
    have hhead : (update status sockfd name).tokens.head? = some (word "UPDATE") := rfl
    simp only [parse, hhead, Option.some.injEq, h2, h3, if_false, update_ne_setOffline, hcheck]
  | insert name pass status sockfd =>
    have hcheck : parseInsert (insert name pass status sockfd).tokens =
        some (insert name pass status sockfd) := by
      simp [parseInsert, tokens, check, readNumber_numberTokens]
    have hhead : (insert name pass status sockfd).tokens.head? = some (word "INSERT") := rfl
    simp only [parse, hhead, if_true, hcheck]
  | setOffline => rfl

end Stmt

end SelfTraining.Chat
