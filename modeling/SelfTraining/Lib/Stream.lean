import SelfTraining.Lib.Text

/-!
Reading a text as a stream: its words, and the number that one begins with.

Words that are printed with spaces between them are read back, and so are printed numbers.
-/

namespace SelfTraining.Stream

open SelfTraining.Text

/-- A byte that stands between words. -/
def isSpace (c : UInt8) : Bool := decide (c.toNat = 32) || decide (9 ≤ c.toNat ∧ c.toNat ≤ 13)

def isDigit (c : UInt8) : Bool := decide (48 ≤ c.toNat ∧ c.toNat ≤ 57)

/-- The numbers that a `long` holds. -/
def IsLong (v : ℤ) : Prop := -2 ^ 63 ≤ v ∧ v < 2 ^ 63

instance (v : ℤ) : Decidable (IsLong v) := inferInstanceAs (Decidable (_ ∧ _))

/-- What `>>` reads from a text, word by word. -/
def words (b : Bytes) : List Bytes := (b.splitOnP isSpace).filter fun w => decide (w ≠ [])

/-- What `getline` reads from a text, line by line. -/
def getlines (b : Bytes) : List Bytes :=
  if (b.splitOn 10).getLast? = some [] then (b.splitOn 10).dropLast else b.splitOn 10

/-- The digits that a text begins with, as a number. -/
def leadingNat (b : Bytes) : Option ℕ :=
  if b.takeWhile isDigit = [] then none else some (ofDigits (b.takeWhile isDigit))

/-- The number that a text begins with, which may have a sign. -/
def leadingInt (b : Bytes) : Option ℤ :=
  if b.head? = some 45 then (leadingNat b.tail).map fun n => -(n : ℤ)
  else if b.head? = some 43 then (leadingNat b.tail).map fun n => (n : ℤ)
  else (leadingNat b).map fun n => (n : ℤ)

/-- `stol`, and nothing where it throws. -/
def stol (b : Bytes) : Option ℤ :=
  (leadingInt (b.dropWhile isSpace)).filter fun v => decide (-2 ^ 63 ≤ v ∧ v < 2 ^ 63)

/-! ### Texts cut at separators -/

/-- A text has no separator, or it is a piece without one, a separator and another text. -/
@[elab_as_elim]
theorem pieces_induction {α : Type*} (p : α → Bool) {P : List α → Prop}
    (piece : ∀ w, (∀ c ∈ w, p c = false) → P w)
    (split : ∀ w sep rest, (∀ c ∈ w, p c = false) → p sep = true → P rest → P (w ++ sep :: rest))
    (b : List α) : P b := by
  induction hn : b.length using Nat.strong_induction_on generalizing b with
  | _ n ih =>
    have hpiece : ∀ c ∈ b.takeWhile (fun c => !p c), p c = false := by
      intro c hc
      simpa using List.mem_takeWhile_imp hc
    have happ : b.takeWhile (fun c => !p c) ++ b.dropWhile (fun c => !p c) = b :=
      List.takeWhile_append_dropWhile
    cases hdrop : b.dropWhile (fun c => !p c) with
    | nil =>
      rw [hdrop, List.append_nil] at happ
      rw [← happ]
      exact piece _ hpiece
    | cons sep rest =>
      have hsep : p sep = true := by
        have hne : b.dropWhile (fun c => !p c) ≠ [] := by simp [hdrop]
        have hhead := List.head_dropWhile_not (fun c => !p c) hne
        simpa [hdrop] using hhead
      rw [hdrop] at happ
      rw [← happ]
      refine split _ sep rest hpiece hsep (ih rest.length ?_ rest rfl)
      rw [← hn, ← happ, List.length_append, List.length_cons]
      omega

section Fields

variable {α : Type*} [BEq α] [LawfulBEq α] {x : α} {a b : List α}

lemma splitOn_append_last (s : List α) (ha : x ∉ a) :
    ∃ pre u, (s ++ a).splitOn x = pre ++ [u] ∧ a <:+ u := by
  induction s using pieces_induction (· == x) with
  | piece w hw =>
    have hx : x ∉ w ++ a := by
      rw [List.mem_append, not_or]
      exact ⟨fun hmem => by simpa using hw x hmem, ha⟩
    exact ⟨[], w ++ a, List.splitOn_eq_singleton hx, List.suffix_append w a⟩
  | split w sep rest hw hsep ih =>
    obtain rfl := eq_of_beq hsep
    obtain ⟨pre, u, hsplit, hu⟩ := ih
    have hw : sep ∉ w := fun hmem => by simpa using hw sep hmem
    refine ⟨w :: pre, u, ?_, hu⟩
    rw [List.append_assoc, List.cons_append, List.splitOn_append_cons_self_of_not_mem hw, hsplit]
    rfl

lemma splitOn_append_first (t : List α) (hb : x ∉ b) :
    ∃ v post, (b ++ t).splitOn x = v :: post ∧ b <+: v := by
  induction t using pieces_induction (· == x) with
  | piece w hw =>
    have hx : x ∉ b ++ w := by
      rw [List.mem_append, not_or]
      exact ⟨hb, fun hmem => by simpa using hw x hmem⟩
    exact ⟨b ++ w, [], List.splitOn_eq_singleton hx, List.prefix_append b w⟩
  | split w sep rest hw hsep _ =>
    obtain rfl := eq_of_beq hsep
    have hx : sep ∉ b ++ w := by
      rw [List.mem_append, not_or]
      exact ⟨hb, fun hmem => by simpa using hw sep hmem⟩
    refine ⟨b ++ w, rest.splitOn sep, ?_, List.prefix_append b w⟩
    rw [← List.append_assoc, List.splitOn_append_cons_self_of_not_mem hx]

omit [BEq α] [LawfulBEq α] in
lemma intercalate_cons {w : List α} {l : List (List α)} (hl : l ≠ []) :
    [x].intercalate (w :: l) = w ++ x :: [x].intercalate l := by
  rw [List.intercalate_cons_of_ne_nil hl]
  simp

omit [BEq α] [LawfulBEq α] in
lemma intercalate_prefix (mids : List (List α)) {v : List α} (h : b <+: v)
    (post : List (List α)) :
    [x].intercalate (mids ++ [b]) <+: [x].intercalate (mids ++ v :: post) := by
  induction mids with
  | nil =>
    rw [List.nil_append, List.nil_append, List.intercalate_singleton]
    refine h.trans ?_
    cases post with
    | nil => rw [List.intercalate_singleton]
    | cons w post =>
      rw [intercalate_cons (by simp)]
      exact List.prefix_append v _
  | cons w mids ih =>
    rw [List.cons_append, List.cons_append, intercalate_cons (by simp), intercalate_cons (by simp)]
    exact (List.prefix_append_right_inj w).mpr ((List.prefix_cons_inj x).mpr ih)

omit [BEq α] [LawfulBEq α] in
lemma intercalate_suffix (pre : List (List α)) {l : List (List α)} (hl : l ≠ []) :
    [x].intercalate l <:+ [x].intercalate (pre ++ l) := by
  induction pre with
  | nil => exact List.suffix_rfl
  | cons w pre ih =>
    rw [List.cons_append, intercalate_cons (by simp [hl])]
    exact ih.trans ((List.suffix_cons x _).trans (List.suffix_append w _))

lemma splitOn_intercalate_append (mids : List (List α)) (hmids : ∀ w ∈ mids, x ∉ w)
    (t : List α) :
    ([x].intercalate (mids ++ [b]) ++ t).splitOn x = mids ++ (b ++ t).splitOn x := by
  induction mids with
  | nil => simp
  | cons w mids ih =>
    rw [List.cons_append, intercalate_cons (by simp), List.append_assoc, List.cons_append,
      List.splitOn_append_cons_self_of_not_mem (hmids w (by simp)),
      ih fun w hw => hmids w (by simp [hw])]
    rfl

lemma notMem_of_mem_splitOn {t w : List α} (h : w ∈ t.splitOn x) : x ∉ w := by
  induction t using pieces_induction (· == x) with
  | piece t ht =>
    have hx : x ∉ t := fun hmem => by simpa using ht x hmem
    rw [List.splitOn_eq_singleton hx, List.mem_singleton] at h
    exact h ▸ hx
  | split u sep rest hu hsep ih =>
    obtain rfl := eq_of_beq hsep
    have hx : sep ∉ u := fun hmem => by simpa using hu sep hmem
    rw [List.splitOn_append_cons_self_of_not_mem hx, List.mem_cons] at h
    rcases h with rfl | h
    · exact hx
    · exact ih h

/-- **A text with separators** is found in another one if and only if a field of this ends in its
first field, the next fields are those between, and the field behind them begins with its last. -/
theorem infix_fields_iff {text : List α} {mids : List (List α)}
    (htext : text.splitOn x = a :: (mids ++ [b])) {line : List α} :
    text <:+: line ↔
      ∃ pre u v post, line.splitOn x = pre ++ u :: (mids ++ v :: post) ∧ a <:+ u ∧ b <+: v := by
  have hfree : ∀ w ∈ a :: (mids ++ [b]), x ∉ w :=
    fun w hw => notMem_of_mem_splitOn (htext ▸ hw)
  have ha : x ∉ a := hfree a (by simp)
  have hb : x ∉ b := hfree b (by simp)
  have hmids : ∀ w ∈ mids, x ∉ w := fun w hw => hfree w (by simp [hw])
  have hjoin : text = a ++ x :: [x].intercalate (mids ++ [b]) := by
    rw [← intercalate_cons (by simp), ← htext, List.intercalate_splitOn]
  rw [hjoin]
  constructor
  · rintro ⟨s, t, rfl⟩
    obtain ⟨pre, u, hleft, hu⟩ := splitOn_append_last s ha
    obtain ⟨v, post, hright, hv⟩ := splitOn_append_first t hb
    refine ⟨pre, u, v, post, ?_, hu, hv⟩
    have hline : s ++ (a ++ x :: [x].intercalate (mids ++ [b])) ++ t =
        (s ++ a) ++ x :: ([x].intercalate (mids ++ [b]) ++ t) := by simp
    rw [hline, List.splitOn_append_cons_self, hleft, splitOn_intercalate_append mids hmids, hright]
    simp
  · rintro ⟨pre, u, v, post, hsplit, ⟨u', rfl⟩, hv⟩
    have hline : [x].intercalate (line.splitOn x) = line := List.intercalate_splitOn x
    rw [← hline, hsplit]
    refine List.IsInfix.trans ?_ (intercalate_suffix pre (by simp)).isInfix
    rw [intercalate_cons (by simp), List.append_assoc]
    obtain ⟨rest, hrest⟩ := intercalate_prefix (x := x) mids hv post
    exact ⟨u', rest, by simp [← hrest]⟩

end Fields

/-! ### Words -/

lemma words_append_cons (a rest : Bytes) {sep : UInt8} (hsep : isSpace sep = true) :
    words (a ++ sep :: rest) = words a ++ words rest := by
  unfold words
  rw [List.splitOnP_append_cons a rest hsep, List.filter_append]

/-- A word: there is something, and no space in it. -/
structure IsWord (w : Bytes) : Prop where
  ne_nil : w ≠ []
  noSpace : ∀ c ∈ w, isSpace c = false

instance (w : Bytes) : Decidable (IsWord w) :=
  decidable_of_iff ((!w.isEmpty && w.all fun c => !isSpace c) = true) (by
    rw [Bool.and_eq_true, List.all_eq_true]
    exact ⟨fun ⟨h, hs⟩ => ⟨by simpa using h, by simpa using hs⟩,
      fun ⟨h, hs⟩ => ⟨by simpa using h, by simpa using hs⟩⟩)

lemma IsWord.words {w : Bytes} (h : IsWord w) : words w = [w] := by
  unfold Stream.words
  rw [List.splitOnP_eq_singleton h.noSpace]
  simp [h.ne_nil]

lemma IsWord.words_append {w : Bytes} (h : IsWord w) {sep : UInt8} (hsep : isSpace sep = true)
    (rest : Bytes) : Stream.words (w ++ sep :: rest) = w :: Stream.words rest := by
  unfold Stream.words
  rw [List.splitOnP_append_cons_of_forall_mem h.noSpace sep hsep]
  simp [h.ne_nil]

lemma words_of_noSpace {w : Bytes} (h : ∀ c ∈ w, isSpace c = false) :
    words w = if w = [] then [] else [w] := by
  split
  · next hw => subst hw; rfl
  · next hw => exact IsWord.words ⟨hw, h⟩

/-- A word that is read is one, and stands in the text. -/
theorem mem_words {w b : Bytes} (h : w ∈ words b) : IsWord w ∧ w <:+: b := by
  induction b using pieces_induction isSpace with
  | piece v hv =>
    rw [words_of_noSpace hv] at h
    split at h
    · simp at h
    · next hne =>
      obtain rfl := List.mem_singleton.mp h
      exact ⟨⟨hne, hv⟩, List.infix_refl _⟩
  | split v sep rest hv hsep ih =>
    rw [words_append_cons v rest hsep, words_of_noSpace hv] at h
    rcases List.mem_append.mp h with h | h
    · split at h
      · simp at h
      · next hne =>
        obtain rfl := List.mem_singleton.mp h
        exact ⟨⟨hne, hv⟩, (List.prefix_append _ _).isInfix⟩
    · obtain ⟨hw, hin⟩ := ih h
      exact ⟨hw, (hin.trans (List.suffix_cons sep rest).isInfix).trans
        (List.suffix_append v _).isInfix⟩

lemma words_eq_nil {b : Bytes} (h : words b = []) : ∀ c ∈ b, isSpace c = true := by
  induction b using pieces_induction isSpace with
  | piece v hv =>
    rw [words_of_noSpace hv] at h
    split at h
    · next hw => simp [hw]
    · simp at h
  | split v sep rest hv hsep ih =>
    rw [words_append_cons v rest hsep, words_of_noSpace hv, List.append_eq_nil_iff] at h
    have hv : v = [] := by simpa using h.1
    subst hv
    intro c hc
    rcases List.mem_cons.mp hc with rfl | hc
    · exact hsep
    · exact ih h.2 c hc

lemma words_joined (a : Bytes) (l : List Bytes) :
    words (a ++ l.flatMap fun v => 32 :: v) = words a ++ l.flatMap words := by
  induction l generalizing a with
  | nil => simp
  | cons v l ih =>
    rw [List.flatMap_cons, List.flatMap_cons, List.cons_append, words_append_cons a _ rfl, ih]

/-- Words with a space before each, after a first one. -/
theorem words_line {w : Bytes} {ws : List Bytes} (h : IsWord w) (hs : ∀ v ∈ ws, IsWord v) :
    words (w ++ ws.flatMap fun v => 32 :: v) = w :: ws := by
  have hwords : ws.flatMap words = ws.flatMap fun v => [v] :=
    List.flatMap_congr fun v hv => (hs v hv).words
  rw [words_joined, h.words, hwords, List.flatMap_singleton']
  rfl

/-! ### Lines -/

lemma getlines_append_cons {l : Bytes} (hl : 10 ∉ l) (rest : Bytes) :
    getlines (l ++ 10 :: rest) = l :: getlines rest := by
  have hlast : ((l :: rest.splitOn 10).getLast? = some []) ↔
      (rest.splitOn 10).getLast? = some [] := by
    rw [List.getLast?_cons_of_ne_nil (List.splitOn_ne_nil 10 rest)]
  unfold getlines
  rw [List.splitOn_append_cons_self_of_not_mem hl]
  by_cases h : (rest.splitOn 10).getLast? = some []
  · rw [if_pos (hlast.mpr h), if_pos h, List.dropLast_cons_of_ne_nil (List.splitOn_ne_nil 10 rest)]
  · rw [if_neg fun h' => h (hlast.mp h'), if_neg h]

/-- Lines that are ended one by one are read back. -/
theorem getlines_stream {ls : List Bytes} (h : ∀ l ∈ ls, 10 ∉ l) :
    getlines (Framing.stream 10 ls) = ls := by
  induction ls with
  | nil => rfl
  | cons l ls ih =>
    obtain ⟨hl, hls⟩ := List.forall_mem_cons.mp h
    have hcons : Framing.stream 10 (l :: ls) = l ++ 10 :: Framing.stream 10 ls := by
      simp [Framing.stream]
    rw [hcons, getlines_append_cons hl, ih hls]

/-! ### Numbers -/

lemma isDigit_of_mem {n : ℕ} {c : UInt8} (h : c ∈ digits n) : isDigit c = true := by
  simpa [isDigit] using mem_digits h

lemma isSpace_of_isDigit {c : UInt8} (h : isDigit c = true) : isSpace c = false := by
  simp only [isDigit, decide_eq_true_eq] at h
  simp only [isSpace, Bool.or_eq_false_iff, decide_eq_false_iff_not]
  omega

lemma isWord_digits (n : ℕ) : IsWord (digits n) where
  ne_nil := digits_ne_nil n
  noSpace _ hc := isSpace_of_isDigit (isDigit_of_mem hc)

lemma leadingNat_digits (n : ℕ) : leadingNat (digits n) = some n := by
  have htake : (digits n).takeWhile isDigit = digits n :=
    List.takeWhile_eq_self_iff.mpr fun c hc => isDigit_of_mem hc
  rw [leadingNat, htake, if_neg (digits_ne_nil n), ofDigits_digits]

lemma leadingInt_of_leadingNat {b : Bytes} {n : ℕ} (h : leadingNat b = some n) :
    leadingInt b = some (n : ℤ) := by
  have hsign : ∀ s : UInt8, isDigit s = false → b.head? ≠ some s := by
    intro s hs hhead
    obtain ⟨rest, rfl⟩ := List.head?_eq_some_iff.mp hhead
    simp [leadingNat, hs] at h
  rw [leadingInt, if_neg (hsign 45 rfl), if_neg (hsign 43 rfl), h]
  rfl

lemma isWord_decimal (i : ℤ) : IsWord (decimal i) where
  ne_nil := decimal_ne_nil i
  noSpace c hc := by
    rcases mem_decimal hc with rfl | hdigit
    · rfl
    · exact isSpace_of_isDigit (decide_eq_true hdigit)

lemma leadingInt_decimal (i : ℤ) : leadingInt (decimal i) = some i := by
  unfold decimal
  split
  · rw [leadingInt, List.head?_cons, if_pos rfl, List.tail_cons, leadingNat_digits]
    have hval : -(i.natAbs : ℤ) = i := by omega
    exact congrArg some hval
  · rw [leadingInt_of_leadingNat (leadingNat_digits i.natAbs)]
    have hval : (i.natAbs : ℤ) = i := by omega
    exact congrArg some hval

/-- **A printed number is read back** if and only if it fits into a `long`. -/
theorem stol_decimal (i : ℤ) : stol (decimal i) = if IsLong i then some i else none := by
  have hdrop : (decimal i).dropWhile isSpace = decimal i := by
    rw [List.dropWhile_eq_self_iff]
    intro hpos
    simp [(isWord_decimal i).noSpace _ (List.getElem_mem hpos)]
  rw [stol, hdrop, leadingInt_decimal, Option.filter_some]
  simp only [decide_eq_true_eq]
  rfl

lemma stol_digits {n : ℕ} (h : n < 2 ^ 63) : stol (digits n) = some (n : ℤ) := by
  have hdecimal : decimal (n : ℤ) = digits n := by simp [decimal]
  have hlong : IsLong n := ⟨by omega, by omega⟩
  rw [← hdecimal, stol_decimal, if_pos hlong]

end SelfTraining.Stream
