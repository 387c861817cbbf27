import SelfTraining.Chat.Database

/-!
Which names and passwords stay data in the three statements that they are put into.

Every quote of a text belongs to a literal, which takes twice the quotes it denotes and two
more. The program puts a name between two quotes as it is, so that its literal can denote the
name only where the name has none.
-/

namespace SelfTraining.Chat

open SelfTraining.Text SelfTraining.Sql

/-- A letter of the alphabet. -/
def isLetter (c : UInt8) : Bool := (65 ≤ c && c ≤ 90) || (97 ≤ c && c ≤ 122)

def Alphabetic (b : Bytes) : Prop := ∀ c ∈ b, isLetter c

lemma Alphabetic.plain {b : Bytes} (h : Alphabetic b) : Stmt.Plain b :=
  fun hq => absurd (h _ hq) (by decide)

namespace Stmt

/-- The texts that the program puts between quotes. -/
def quotedTexts : Stmt → List Bytes
  | selectUser name | update _ _ name => [name]
  | insert name pass _ _ => [name, pass]
  | selectOnline | setOffline => []

/-- The statement with other texts in their places. -/
def withTexts (name pass : Bytes) : Stmt → Stmt
  | selectUser _ => selectUser name
  | update status sockfd _ => update status sockfd name
  | insert _ _ status sockfd => insert name pass status sockfd
  | selectOnline => selectOnline
  | setOffline => setOffline

/-- The text splits into the tokens it has with alphabetic texts in it, but for the literals,
and these denote the texts that were put in. -/
def StaysData (st : Stmt) : Prop :=
  ∀ name pass, Alphabetic name → Alphabetic pass →
    ∃ ts ts', lex st.text = some ts ∧ lex (st.withTexts name pass).text = some ts' ∧
      ts.map Token.shape = ts'.map Token.shape ∧ literals ts = st.quotedTexts

lemma quoteless_iff (st : Stmt) : st.Quoteless ↔ ∀ b ∈ st.quotedTexts, Plain b := by
  cases st <;> simp [Quoteless, quotedTexts]

lemma quoteless_withTexts (st : Stmt) {name pass : Bytes} (hname : Plain name)
    (hpass : Plain pass) : (st.withTexts name pass).Quoteless := by
  cases st
  case insert => exact ⟨hname, hpass⟩
  case selectOnline | setOffline => trivial
  all_goals exact hname

lemma shape_tokens (st : Stmt) (name pass : Bytes) :
    st.tokens.map Token.shape = (st.withTexts name pass).tokens.map Token.shape := by
  cases st <;> simp [tokens, withTexts, Token.shape]

lemma literals_append (ts ts' : List Token) :
    literals (ts ++ ts') = literals ts ++ literals ts' :=
  List.filterMap_append

lemma literals_numberTokens (i : ℤ) : literals (numberTokens i) = [] := by
  unfold numberTokens signTokens
  split <;> rfl

lemma literals_tokens (st : Stmt) : literals st.tokens = st.quotedTexts := by
  cases st with
  | selectUser name => rfl
  | selectOnline => rfl
  | update status sockfd name =>
    simp only [tokens, literals_append, literals_numberTokens]
    rfl
  | insert name pass status sockfd =>
    simp only [tokens, literals_append, literals_numberTokens]
    rfl
  | setOffline => rfl

lemma count_quote_text (st : Stmt) :
    st.text.count quote = (st.quotedTexts.map fun b => 2 + b.count quote).sum := by
  cases st with
  | selectUser name =>
    have hstart : (bytes "SELECT * FROM usrs WHERE username = '").count quote = 1 := by decide
    have hend : (bytes "';").count quote = 1 := by decide
    simp only [text, quotedTexts, List.count_append, hstart, hend, List.map_cons, List.map_nil,
      List.sum_cons, List.sum_nil]
    omega
  | selectOnline => decide
  | update status sockfd name =>
    have hstart : (bytes "UPDATE usrs SET status = ").count quote = 0 := by decide
    have hcomma : (bytes ", sockfd = ").count quote = 0 := by decide
    have hwhere : (bytes " WHERE username = '").count quote = 1 := by decide
    have hend : (bytes "';").count quote = 1 := by decide
    simp only [text, quotedTexts, List.count_append, count_quote_decimal, hstart, hcomma, hwhere,
      hend, List.map_cons, List.map_nil, List.sum_cons, List.sum_nil]
    omega
  | insert name pass status sockfd =>
    have hstart : (bytes
      "INSERT INTO usrs (username, password, status, sockfd) VALUES ('").count quote = 1 := by
      decide
    have hnext : (bytes "', '").count quote = 2 := by decide
    have hnumber : (bytes "', ").count quote = 1 := by decide
    have hcomma : (bytes ", ").count quote = 0 := by decide
    have hend : (bytes ");").count quote = 0 := by decide
    simp only [text, quotedTexts, List.count_append, count_quote_decimal, hstart, hnext, hnumber,
      hcomma, hend, List.map_cons, List.map_nil, List.sum_cons, List.sum_nil]
    omega
  | setOffline => decide

/-- Texts that take as many quotes as they denote, doubled, have none. -/
lemma plain_of_sum {bs : List Bytes}
    (h : (bs.map fun b => 2 + b.count quote).sum = (bs.map fun b => 2 + 2 * b.count quote).sum) :
    ∀ b ∈ bs, Plain b := by
  induction bs with
  | nil => simp
  | cons b bs ih =>
    have hle : (bs.map fun b => 2 + b.count quote).sum ≤
        (bs.map fun b => 2 + 2 * b.count quote).sum :=
      List.sum_le_sum fun b _ => by omega
    simp only [List.map_cons, List.sum_cons] at h
    have hb : b.count quote = 0 := by omega
    simp only [List.mem_cons, forall_eq_or_imp]
    exact ⟨List.count_eq_zero.mp hb, ih (by omega)⟩

/-- A statement stays as it was meant if and only if no quote was put into it. -/
theorem staysData_iff (st : Stmt) : st.StaysData ↔ st.Quoteless := by
  constructor
  · intro h
    obtain ⟨ts, -, hlex, -, -, hlit⟩ := h [] [] (by simp [Alphabetic]) (by simp [Alphabetic])
    rw [quoteless_iff]
    apply plain_of_sum
    rw [← count_quote_text, count_quote_of_lex hlex, quotesOf, hlit]
  · intro h name pass hname hpass
    exact ⟨st.tokens, (st.withTexts name pass).tokens, lex_text h,
      lex_text (st.quoteless_withTexts hname.plain hpass.plain), st.shape_tokens name pass,
      st.literals_tokens⟩

end Stmt

/-! ### What a name reaches -/

/-- A query for a name gives the row of a user of that name. -/
def QueriesOnly (sql : Sqlite) (name : Bytes) : Prop :=
  ∀ t pass status sockfd, queryUserInfo sql t name = .ok (some (pass, status, sockfd)) →
    ∃ r ∈ t, r.username = name ∧ (r.password, r.status, r.sockfd) = (pass, status, sockfd)

/-- An update for a name leaves the rows of all other users as they are. -/
def UpdatesOnly (sql : Sqlite) (name : Bytes) : Prop :=
  ∀ t status sockfd done t', updateUserStatus sql t name status sockfd = .ok (done, t') →
    List.Forall₂ (fun r r' => r' = r ∨ r.username = name ∧ r'.username = name) t t'

section

variable {sql : Sqlite} {name : Bytes}

lemma queriesOnly_of_plain (hf : sql.Faithful) (h : Stmt.Plain name) : QueriesOnly sql name := by
  intro t pass status sockfd hq
  have hrow := queryUserInfo_sound hf h hq
  obtain ⟨r, hr, heq⟩ := Option.map_eq_some_iff.mp hrow.symm
  exact ⟨r, List.mem_of_find?_eq_some hr, by simpa using List.find?_some hr, heq⟩

lemma updatesOnly_of_plain (hf : sql.Faithful) (h : Stmt.Plain name) : UpdatesOnly sql name := by
  intro t status sockfd done t' hu
  have hquoteless : (Stmt.update status sockfd name).Quoteless := h
  have hrun := execute_sound hf hquoteless hu
  subst hrun
  cases done with
  | false => exact List.forall₂_same.mpr fun r _ => .inl rfl
  | true =>
    simp only [if_true, Stmt.run, List.forall₂_map_right_iff]
    refine List.forall₂_same.mpr fun r _ => ?_
    split_ifs with hr
    · exact .inr ⟨hr, hr⟩
    · exact .inl rfl

end

/-- The user's text stays data in the three statements, and reaches the user's row only. -/
structure TextStaysData (sql : Sqlite) (name pass : Bytes) : Prop where
  selectUser : (Stmt.selectUser name).StaysData
  update : ∀ status sockfd, (Stmt.update status sockfd name).StaysData
  insert : ∀ status sockfd, (Stmt.insert name pass status sockfd).StaysData
  queriesOnly : QueriesOnly sql name
  updatesOnly : UpdatesOnly sql name

/-- **User text stays data** if and only if neither the name nor the password holds a single
quote. -/
theorem text_stays_data_iff {sql : Sqlite} (hf : sql.Faithful) (name pass : Bytes) :
    TextStaysData sql name pass ↔ quote ∉ name ∧ quote ∉ pass := by
  constructor
  · intro h
    exact (Stmt.staysData_iff _).mp (h.insert 0 0)
  · rintro ⟨hname, hpass⟩
    exact ⟨(Stmt.staysData_iff _).mpr hname, fun _ _ => (Stmt.staysData_iff _).mpr hname,
      fun _ _ => (Stmt.staysData_iff _).mpr ⟨hname, hpass⟩, queriesOnly_of_plain hf hname,
      updatesOnly_of_plain hf hname⟩

/-- The name ends its literal, and what follows it becomes part of the statement. -/
theorem injected_condition : ¬ TextStaysData .reference (bytes "x' OR '1'='1") (bytes "pw") ∧
    lex (Stmt.selectUser (bytes "x' OR '1'='1")).text =
      some [Stmt.word "SELECT", .symbol 42, Stmt.word "FROM", Stmt.word "usrs",
        Stmt.word "WHERE", Stmt.word "username", .symbol 61, .literal (bytes "x"),
        Stmt.word "OR", .literal (bytes "1"), .symbol 61, .literal (bytes "1"),
        .symbol 59] := by
  refine ⟨fun h => ?_, by decide +kernel⟩
  have hplain := (Stmt.staysData_iff _).mp h.selectUser
  exact hplain (by decide)

/-- A name and a password without quotes. -/
theorem text_stays_data_plain : TextStaysData .reference (bytes "al") (bytes "pw") :=
  (text_stays_data_iff Sqlite.reference_faithful _ _).mpr ⟨by decide, by decide⟩

end SelfTraining.Chat
