import SelfTraining.Lib.Text

/-!
How SQL text is split into tokens, with the rule for string literals: a literal ends at the
first single quote that is not doubled.

`Lexer.step` reads one byte; `lex` folds it over a text. The lemmas say how the state moves
over a stretch that stays inside one token, so that the tokens of a statement put together
from fixed text, numbers and literals are found stretch by stretch.
-/

namespace SelfTraining.Sql

open SelfTraining.Text

/-- The single quote. -/
def quote : UInt8 := 39

/-- A token: a word or number, a string literal, or any other single sign. -/
inductive Token where
  | word (text : Bytes)
  | literal (text : Bytes)
  | symbol (sign : UInt8)
  deriving DecidableEq

def isSpace (c : UInt8) : Bool := c == 32 || c == 9 || c == 10 || c == 13

/-- Letters, digits, the underscore, and every byte above ASCII. -/
def isWord (c : UInt8) : Bool :=
  (48 ≤ c && c ≤ 57) || (65 ≤ c && c ≤ 90) || (97 ≤ c && c ≤ 122) || c == 95 || 128 ≤ c

/-- Where the lexer stands. After a quote inside a literal it is `quoted`: the quote ends the
literal unless another one follows. -/
inductive Mode where
  | between
  | word (text : Bytes)
  | literal (text : Bytes)
  | quoted (text : Bytes)
  deriving DecidableEq

structure Lexer where
  tokens : List Token
  mode : Mode
  deriving DecidableEq

/-- The first byte after a finished token. -/
def Lexer.begin (tokens : List Token) (c : UInt8) : Lexer :=
  if c = quote then ⟨tokens, .literal []⟩
  else if isSpace c then ⟨tokens, .between⟩
  else if isWord c then ⟨tokens, .word [c]⟩
  else ⟨tokens ++ [.symbol c], .between⟩

def Lexer.step (l : Lexer) (c : UInt8) : Lexer :=
  match l.mode with
  | .between => begin l.tokens c
  | .word s => if isWord c then ⟨l.tokens, .word (s ++ [c])⟩ else begin (l.tokens ++ [.word s]) c
  | .literal s => if c = quote then ⟨l.tokens, .quoted s⟩ else ⟨l.tokens, .literal (s ++ [c])⟩
  | .quoted s =>
    if c = quote then ⟨l.tokens, .literal (s ++ [quote])⟩
    else begin (l.tokens ++ [.literal s]) c

/-- The tokens at the end of the text; none when it ends inside a literal. -/
def Lexer.finish (l : Lexer) : Option (List Token) :=
  match l.mode with
  | .between => some l.tokens
  | .word s => some (l.tokens ++ [.word s])
  | .literal _ => none
  | .quoted s => some (l.tokens ++ [.literal s])

/-- The state after a stretch of text. -/
def Lexer.scan (l : Lexer) (text : Bytes) : Lexer := text.foldl step l

/-- The tokens of a text. -/
def lex (text : Bytes) : Option (List Token) := (Lexer.scan ⟨[], .between⟩ text).finish

lemma Lexer.scan_append (l : Lexer) (a b : Bytes) : l.scan (a ++ b) = (l.scan a).scan b :=
  List.foldl_append

lemma Lexer.scan_cons (l : Lexer) (c : UInt8) (b : Bytes) :
    l.scan (c :: b) = (l.step c).scan b := rfl

lemma Lexer.scan_literal (tokens : List Token) (s text : Bytes) (h : quote ∉ text) :
    Lexer.scan ⟨tokens, .literal s⟩ text = ⟨tokens, .literal (s ++ text)⟩ := by
  induction text generalizing s with
  | nil => simp [scan]
  | cons c text ih =>
    have hc : c ≠ quote := fun h0 => h (by simp [h0])
    rw [scan_cons]
    simp only [step, if_neg hc]
    rw [ih _ fun h0 => h (by simp [h0])]
    simp

lemma Lexer.scan_word (tokens : List Token) (s text : Bytes) (h : ∀ c ∈ text, isWord c) :
    Lexer.scan ⟨tokens, .word s⟩ text = ⟨tokens, .word (s ++ text)⟩ := by
  induction text generalizing s with
  | nil => simp [scan]
  | cons c text ih =>
    rw [scan_cons]
    simp only [step, if_pos (h c (by simp))]
    rw [ih _ fun x hx => h x (by simp [hx])]
    simp

/-! ### Numbers -/

/-- The tokens of a number before its digits: the sign. -/
def signTokens (i : ℤ) : List Token := if i < 0 then [.symbol 45] else []

/-- The tokens of a number. -/
def numberTokens (i : ℤ) : List Token := signTokens i ++ [.word (digits i.natAbs)]

/-- The number at the head of a list of tokens, and the tokens after it. -/
def readNumber : List Token → Option (ℤ × List Token)
  | .symbol 45 :: .word w :: rest => some (-(ofDigits w : ℤ), rest)
  | .word w :: rest => some ((ofDigits w : ℤ), rest)
  | _ => none

lemma readNumber_numberTokens (i : ℤ) (rest : List Token) :
    readNumber (numberTokens i ++ rest) = some (i, rest) := by
  by_cases h : i < 0
  · simp only [numberTokens, signTokens, if_pos h, List.cons_append, List.nil_append, readNumber,
      ofDigits_digits]
    congr 2
    omega
  · simp only [numberTokens, signTokens, if_neg h, List.cons_append, List.nil_append, readNumber,
      ofDigits_digits]
    congr 2
    omega

lemma isWord_digit {n : ℕ} {c : UInt8} (h : c ∈ digits n) : isWord c = true := by
  obtain ⟨h1, h2⟩ := mem_digits h
  have h1' : (48 : UInt8) ≤ c := by rwa [UInt8.le_iff_toNat_le]
  have h2' : c ≤ (57 : UInt8) := by rwa [UInt8.le_iff_toNat_le]
  simp [isWord, h1', h2']

lemma Lexer.scan_digits (tokens : List Token) (n : ℕ) :
    Lexer.scan ⟨tokens, .between⟩ (digits n) = ⟨tokens, .word (digits n)⟩ := by
  obtain ⟨c, rest, hd⟩ := List.exists_cons_of_ne_nil (digits_ne_nil n)
  have hword : ∀ x ∈ c :: rest, isWord x := fun x hx => isWord_digit (hd ▸ hx)
  obtain ⟨h1, h2⟩ := mem_digits (n := n) (c := c) (by simp [hd])
  have hq : c ≠ quote := by
    rintro rfl
    exact absurd h1 (by decide)
  have hs : isSpace c = false := by
    have hne : ∀ k : UInt8, k.toNat < 48 → c ≠ k := by
      rintro k hk rfl
      omega
    simp [isSpace, hne 32 (by decide), hne 9 (by decide), hne 10 (by decide), hne 13 (by decide)]
  rw [hd, scan_cons]
  simp only [step, begin, if_neg hq, hs, hword c (by simp), if_true, Bool.false_eq_true, if_false]
  rw [scan_word _ _ _ fun x hx => hword x (by simp [hx])]
  rfl

lemma Lexer.scan_decimal (tokens : List Token) (i : ℤ) :
    Lexer.scan ⟨tokens, .between⟩ (decimal i) =
      ⟨tokens ++ signTokens i, .word (digits i.natAbs)⟩ := by
  unfold decimal signTokens
  split
  · rw [scan_cons]
    exact scan_digits _ _
  · rw [scan_digits, List.append_nil]

/-! ### Quotes -/

/-- What the literals of a list of tokens denote. -/
def literals (ts : List Token) : List Bytes :=
  ts.filterMap fun | .literal s => some s | _ => none

/-- A token without what its literal denotes. -/
def Token.shape : Token → Token
  | .literal _ => .literal []
  | t => t

/-- A literal opens and ends with a quote, and doubles those it denotes. -/
def quotesOf (ts : List Token) : ℕ := ((literals ts).map fun s => 2 + 2 * s.count quote).sum

/-- The quotes of the text read so far. -/
def Lexer.quotes (l : Lexer) : ℕ :=
  quotesOf l.tokens + match l.mode with
  | .between | .word _ => 0
  | .literal s => 1 + 2 * s.count quote
  | .quoted s => 2 + 2 * s.count quote

lemma quotesOf_snoc (ts : List Token) (t : Token) :
    quotesOf (ts ++ [t]) = quotesOf ts + quotesOf [t] := by
  simp [quotesOf, literals, List.filterMap_append]

lemma Lexer.begin_quotes (ts : List Token) (c : UInt8) :
    (begin ts c).quotes = quotesOf ts + if c = quote then 1 else 0 := by
  unfold begin
  split_ifs
  · rfl
  · rfl
  · rfl
  · change quotesOf (ts ++ [.symbol c]) + 0 = _
    rw [quotesOf_snoc]
    rfl

lemma Lexer.step_quotes (l : Lexer) (c : UInt8) :
    (l.step c).quotes = l.quotes + if c = quote then 1 else 0 := by
  obtain ⟨ts, mode⟩ := l
  cases mode with
  | between => exact begin_quotes ts c
  | word s =>
    simp only [step]
    split_ifs with hword hc hc
    · subst hc
      exact absurd hword (by decide)
    · rfl
    · rw [begin_quotes, quotesOf_snoc, if_pos hc]
      rfl
    · rw [begin_quotes, quotesOf_snoc, if_neg hc]
      rfl
  | literal s =>
    simp only [step]
    split_ifs with hc
    · simp only [quotes]
      omega
    · simp [quotes, hc]
  | quoted s =>
    simp only [step]
    split_ifs with hc
    · simp only [quotes, List.count_append, List.count_singleton_self]
      omega
    · rw [begin_quotes, quotesOf_snoc, if_neg hc]
      rfl

lemma Lexer.scan_quotes (l : Lexer) (text : Bytes) :
    (l.scan text).quotes = l.quotes + text.count quote := by
  induction text generalizing l with
  | nil => rfl
  | cons c text ih =>
    rw [scan_cons, ih, step_quotes, List.count_cons]
    simp only [beq_iff_eq]
    omega

/-- **Every quote of a text belongs to a literal**, which it opens, ends or stands in. -/
theorem count_quote_of_lex {text : Bytes} {ts : List Token} (h : lex text = some ts) :
    text.count quote = quotesOf ts := by
  have hscan := Lexer.scan_quotes ⟨[], .between⟩ text
  rw [show Lexer.quotes ⟨[], .between⟩ = 0 from rfl, zero_add] at hscan
  rw [← hscan]
  unfold lex at h
  generalize Lexer.scan ⟨[], .between⟩ text = l at h
  obtain ⟨ts', mode⟩ := l
  cases mode with
  | between =>
    obtain rfl : ts' = ts := by simpa [Lexer.finish] using h
    rfl
  | word s =>
    obtain rfl : ts' ++ [.word s] = ts := by simpa [Lexer.finish] using h
    rw [quotesOf_snoc]
    rfl
  | literal s => simp [Lexer.finish] at h
  | quoted s =>
    obtain rfl : ts' ++ [.literal s] = ts := by simpa [Lexer.finish] using h
    rw [quotesOf_snoc]
    rfl

lemma count_quote_decimal (i : ℤ) : (decimal i).count quote = 0 := by
  rw [List.count_eq_zero]
  exact fun h => absurd (mem_decimal h) (by decide)

end SelfTraining.Sql
