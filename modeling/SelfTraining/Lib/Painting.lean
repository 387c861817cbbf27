import SelfTraining.Lib.Terminal
import Mathlib.Tactic.Common

/-!
Strokes on a surface, painted one over the other.

A stroke says what it puts on some of the places of a surface and leaves the others alone. After
any number of strokes a place shows what the last stroke over it has put there. Texts that are
printed into a window are strokes on its cells.
-/

namespace SelfTraining.Painting

open SelfTraining.Text SelfTraining.Terminal

variable {ι α : Type*}

/-- What a stroke puts on the places that it covers. -/
abbrev Stroke (ι α : Type*) := ι → Option α

/-- The surface with a stroke painted over it. -/
def paint (s : ι → α) (p : Stroke ι α) : ι → α := fun i => (p i).getD (s i)

/-- The strokes painted one after the other. -/
def paints (s : ι → α) (ps : List (Stroke ι α)) : ι → α := ps.foldl paint s

/-- The strokes as one: where several cover a place, the last one counts. -/
def joined (ps : List (Stroke ι α)) : Stroke ι α := fun i => ps.reverse.findSome? fun p => p i

lemma paints_append (s : ι → α) (ps qs : List (Stroke ι α)) :
    paints s (ps ++ qs) = paints (paints s ps) qs := List.foldl_append

lemma joined_append (ps qs : List (Stroke ι α)) (i : ι) :
    joined (ps ++ qs) i = (joined qs i).or (joined ps i) := by
  unfold joined
  rw [List.reverse_append, List.findSome?_append]

/-- **The last stroke over a place is what it shows.** -/
theorem paints_eq (s : ι → α) (ps : List (Stroke ι α)) : paints s ps = paint s (joined ps) := by
  induction ps using List.reverseRecOn with
  | nil => rfl
  | append_singleton ps p ih =>
    funext i
    rw [paints_append, ih]
    change (p i).getD (((joined ps) i).getD (s i)) = ((joined (ps ++ [p])) i).getD (s i)
    have hlast : joined [p] i = p i := by
      unfold joined
      rw [List.reverse_singleton, List.findSome?_singleton]
    rw [joined_append, hlast]
    cases p i <;> rfl

lemma joined_eq_none {ps : List (Stroke ι α)} {i : ι} :
    joined ps i = none ↔ ∀ p ∈ ps, p i = none := by
  unfold joined
  rw [List.findSome?_eq_none_iff]
  simp

lemma exists_of_joined {ps : List (Stroke ι α)} {i : ι} {c : α} (h : joined ps i = some c) :
    ∃ p ∈ ps, p i = some c := by
  obtain ⟨p, hp, hc⟩ := List.exists_of_findSome?_eq_some h
  exact ⟨p, List.mem_reverse.mp hp, hc⟩

/-- Earlier strokes do not show just where the last ones cover them, or where they show what
was there before. -/
lemma paints_append_eq_iff {s : ι → α} {ps qs : List (Stroke ι α)} {i : ι} :
    paints s (ps ++ qs) i = paints s qs i ↔
      joined qs i = none → ∀ c, joined ps i = some c → c = s i := by
  rw [paints_eq, paints_eq]
  change (joined (ps ++ qs) i).getD (s i) = (joined qs i).getD (s i) ↔ _
  rw [joined_append]
  cases joined qs i with
  | some c => simp
  | none => cases joined ps i <;> simp

/-! ### Texts -/

lemma getElem?_put {l s : List α} {x : ℕ} (hx : x ≤ l.length) (j : ℕ) :
    (l.take x ++ s ++ l.drop (x + s.length))[j]? =
      if x ≤ j ∧ j < x + s.length then s[j - x]? else l[j]? := by
  have hlen : (l.take x).length = x := List.length_take_of_le hx
  rw [List.append_assoc]
  by_cases hbefore : j < x
  · rw [List.getElem?_append_left (by omega), List.getElem?_take_of_lt hbefore,
      if_neg (by omega)]
  · rw [List.getElem?_append_right (by omega), hlen]
    by_cases hin : j < x + s.length
    · rw [List.getElem?_append_left (by omega), if_pos (by omega)]
    · rw [List.getElem?_append_right (by omega), List.getElem?_drop, if_neg (by omega)]
      congr 1
      omega

/-- A text that is printed into a row, from a cell on. -/
structure Print where
  row : ℕ
  col : ℕ
  text : Bytes

/-- The cells that the text is put on. -/
def Print.stroke (p : Print) : Stroke (ℕ × ℕ) UInt8 := fun cell =>
  if cell.1 = p.row ∧ p.col ≤ cell.2 then p.text[cell.2 - p.col]? else none

lemma Print.stroke_eq_none {p : Print} {y x : ℕ} :
    p.stroke (y, x) = none ↔ y = p.row → p.col ≤ x → p.col + p.text.length ≤ x := by
  unfold Print.stroke
  split
  · next h =>
    obtain ⟨hrow, hcol⟩ := h
    simp only at hrow hcol
    rw [List.getElem?_eq_none_iff]
    simp only [hrow, hcol, true_imp_iff]
    omega
  · next h =>
    simp only [true_iff]
    exact fun hrow hcol => absurd ⟨hrow, hcol⟩ h

/-- What the texts make a cell show, if they cover it. -/
def texts (ps : List Print) : Stroke (ℕ × ℕ) UInt8 := joined (ps.map Print.stroke)

lemma texts_append (ps qs : List Print) (i : ℕ × ℕ) :
    texts (ps ++ qs) i = (texts qs i).or (texts ps i) := by
  unfold texts
  rw [List.map_append, joined_append]

lemma texts_eq_none {ps : List Print} {i : ℕ × ℕ} :
    texts ps i = none ↔ ∀ p ∈ ps, p.stroke i = none := by
  unfold texts
  rw [joined_eq_none, List.forall_mem_map]

lemma exists_of_texts {ps : List Print} {i : ℕ × ℕ} {c : UInt8} (h : texts ps i = some c) :
    ∃ p ∈ ps, p.stroke i = some c := by
  obtain ⟨stroke, hstroke, hc⟩ := exists_of_joined h
  obtain ⟨p, hp, rfl⟩ := List.mem_map.mp hstroke
  exact ⟨p, hp, hc⟩

lemma texts_flatMap_congr {α : Type*} {f g : α → List Print} {l : List α} {i : ℕ × ℕ}
    (h : ∀ a ∈ l, texts (f a) i = texts (g a) i) :
    texts (l.flatMap f) i = texts (l.flatMap g) i := by
  induction l with
  | nil => rfl
  | cons a l ih =>
    rw [List.flatMap_cons, List.flatMap_cons, texts_append, texts_append, h a (by simp),
      ih fun a ha => h a (by simp [ha])]

/-- The text of one stands where that of the other does, and is no shorter. -/
structure Print.Covers (p q : Print) : Prop where
  row_eq : q.row = p.row
  col_eq : q.col = p.col
  length_le : q.text.length ≤ p.text.length

lemma exists_covers {ps qs : List Print} (h : List.Forall₂ Print.Covers ps qs) :
    ∀ q ∈ qs, ∃ p ∈ ps, p.Covers q := by
  induction h with
  | nil => simp
  | cons hcovers _ ih =>
    rintro q hq
    rcases List.mem_cons.mp hq with rfl | hq
    · exact ⟨_, List.mem_cons_self, hcovers⟩
    · obtain ⟨p, hp, hpq⟩ := ih q hq
      exact ⟨p, List.mem_cons_of_mem _ hp, hpq⟩

lemma texts_eq_none_of_covers {ps qs : List Print} (h : ∀ q ∈ qs, ∃ p ∈ ps, p.Covers q)
    {i : ℕ × ℕ} (hi : texts ps i = none) : texts qs i = none := by
  obtain ⟨y, x⟩ := i
  simp only [texts_eq_none, Print.stroke_eq_none] at hi ⊢
  intro q hq hrow hcol
  obtain ⟨p, hp, hcovers⟩ := h q hq
  have hend := hi p hp (hrow.trans hcovers.row_eq) (hcovers.col_eq ▸ hcol)
  have hlen := hcovers.length_le
  have hcol_eq := hcovers.col_eq
  omega

lemma Print.mem_of_stroke {p : Print} {cell : ℕ × ℕ} {c : UInt8} (h : p.stroke cell = some c) :
    c ∈ p.text := by
  unfold Print.stroke at h
  split at h
  · exact List.mem_of_getElem? h
  · cases h

/-- A terminal whose windows can be given a border and printed into at the cursor: an empty text
that is printed moves the cursor. -/
structure Drawing (lines cols : ℕ) extends Curses lines cols where
  box : Window → Window
  wprintw : Window → Bytes → Window
  row_box : ∀ w, ∀ y < lines, 0 < y → y + 1 < lines → ∀ x, 0 < x → x + 1 < cols →
    (row (box w) y)[x]? = (row w y)[x]?
  wprintw_mvwprintw : ∀ w, ∀ y < lines, ∀ x < cols, ∀ s,
    wprintw (mvwprintw w (y : ℤ) (x : ℤ) []) s = mvwprintw w y x s
  isPrint_ascii : ∀ c, 32 ≤ c → c < 127 → isPrint c = true

namespace Drawing

variable {lines cols : ℕ} (D : Drawing lines cols)

/-- The character in a cell of a window. -/
def cell (w : D.Window) (i : ℕ × ℕ) : UInt8 := (D.row w i.1).getD i.2 32

/-- The cells inside the border. -/
def Inside (lines cols : ℕ) (i : ℕ × ℕ) : Prop :=
  0 < i.1 ∧ i.1 + 1 < lines ∧ 0 < i.2 ∧ i.2 + 1 < cols

/-- A text that goes into the window and can be printed. -/
structure Fits (p : Print) : Prop where
  row_lt : p.row < lines
  col_lt : p.col < cols
  col_le : p.col + p.text.length ≤ cols
  isPrint : ∀ c ∈ p.text, D.isPrint c = true

variable {D}

lemma cell_newwin {i : ℕ × ℕ} (h : Inside lines cols i) : D.cell D.newwin i = 32 := by
  obtain ⟨-, hy, -, hx⟩ := h
  unfold cell
  rw [D.row_newwin _ (by omega), List.getD_eq_getElem?_getD,
    List.getElem?_replicate_of_lt (by omega)]
  rfl

lemma cell_box (w : D.Window) {i : ℕ × ℕ} (h : Inside lines cols i) :
    D.cell (D.box w) i = D.cell w i := by
  obtain ⟨hy, hy', hx, hx'⟩ := h
  unfold cell
  rw [List.getD_eq_getElem?_getD, List.getD_eq_getElem?_getD,
    D.row_box w _ (by omega) hy hy' _ hx hx']

lemma cell_wattron (w : D.Window) (pair : ℕ) : D.cell (D.wattron w pair) = D.cell w := by
  unfold cell
  rw [D.row_wattron]

lemma cell_wattroff (w : D.Window) (pair : ℕ) : D.cell (D.wattroff w pair) = D.cell w := by
  unfold cell
  rw [D.row_wattroff]

/-- **Printing is painting.** -/
lemma cell_mvwprintw (w : D.Window) {p : Print} (h : D.Fits p) {i : ℕ × ℕ}
    (hi : Inside lines cols i) :
    D.cell (D.mvwprintw w p.row p.col p.text) i = paint (D.cell w) p.stroke i := by
  obtain ⟨y, x⟩ := i
  obtain ⟨-, hy, -, hx⟩ := hi
  have hcols := h.col_le
  have hrow := D.row_mvwprintw w p.row h.row_lt p.col h.col_lt p.text 0 y hcols h.isPrint
  rw [List.replicate_zero, List.append_nil] at hrow
  unfold cell paint Print.stroke
  rw [hrow]
  simp only at hx ⊢
  by_cases hyp : y = p.row
  · subst hyp
    have hlen := D.row_length w p.row h.row_lt
    rw [if_pos rfl, List.getD_eq_getElem?_getD, getElem?_put (by omega)]
    by_cases hin : p.col ≤ x ∧ x < p.col + p.text.length
    · have hget : x - p.col < p.text.length := by omega
      rw [if_pos hin, if_pos ⟨rfl, hin.1⟩, List.getElem?_eq_getElem hget]
      rfl
    · rw [if_neg hin, ← List.getD_eq_getElem?_getD]
      by_cases hle : p.col ≤ x
      · rw [if_pos ⟨rfl, hle⟩, List.getElem?_eq_none (by omega)]
        rfl
      · rw [if_neg fun h => hle h.2]
        rfl
  · rw [if_neg hyp, if_neg fun h => hyp h.1]
    rfl

/-- Inside the border the second window shows the first one with the texts painted over it. -/
def Painted (D : Drawing lines cols) (w w' : D.Window) (ps : List Print) : Prop :=
  ∀ i, Inside lines cols i → D.cell w' i = paints (D.cell w) (ps.map Print.stroke) i

lemma Painted.cell_eq {w w' : D.Window} {ps : List Print} (h : D.Painted w w' ps) {i : ℕ × ℕ}
    (hi : Inside lines cols i) : D.cell w' i = (texts ps i).getD (D.cell w i) := by
  rw [h i hi, paints_eq]
  rfl

lemma Painted.trans {w₁ w₂ w₃ : D.Window} {ps qs : List Print} (h₁ : D.Painted w₁ w₂ ps)
    (h₂ : D.Painted w₂ w₃ qs) : D.Painted w₁ w₃ (ps ++ qs) := by
  intro i hi
  rw [h₂ i hi, List.map_append, paints_append, paints_eq, paints_eq _ (qs.map Print.stroke)]
  unfold paint
  rw [h₁ i hi]

lemma painted_box (w : D.Window) : D.Painted w (D.box w) [] := fun _ hi => cell_box w hi

lemma painted_wattron (w : D.Window) (pair : ℕ) : D.Painted w (D.wattron w pair) [] :=
  fun i _ => congrFun (cell_wattron w pair) i

lemma painted_wattroff (w : D.Window) (pair : ℕ) : D.Painted w (D.wattroff w pair) [] :=
  fun i _ => congrFun (cell_wattroff w pair) i

lemma painted_mvwprintw (w : D.Window) {p : Print} (h : D.Fits p) :
    D.Painted w (D.mvwprintw w p.row p.col p.text) [p] := fun _ hi => cell_mvwprintw w h hi

lemma painted_wprintw (w : D.Window) {p : Print} (h : D.Fits p) :
    D.Painted w (D.wprintw (D.mvwprintw w p.row p.col []) p.text) [p] := by
  rw [D.wprintw_mvwprintw w p.row h.row_lt p.col h.col_lt]
  exact painted_mvwprintw w h

/-- Two windows show the same inside their borders. -/
def Same (D : Drawing lines cols) (w w' : D.Window) : Prop :=
  ∀ i, Inside lines cols i → D.cell w i = D.cell w' i

/-- Of a window that is never cleared, the earlier texts do not show just where the last ones cover
them, or where they have put blanks. -/
lemma same_iff {w w' : D.Window} {ps qs : List Print} (hw : D.Painted D.newwin w (ps ++ qs))
    (hw' : D.Painted D.newwin w' qs) :
    D.Same w w' ↔ ∀ i, Inside lines cols i → texts qs i = none →
      ∀ c, texts ps i = some c → c = 32 := by
  have hcell : ∀ i, Inside lines cols i → (D.cell w i = D.cell w' i ↔
      (texts qs i = none → ∀ c, texts ps i = some c → c = 32)) := by
    intro i hi
    unfold texts
    rw [hw i hi, hw' i hi, List.map_append, paints_append_eq_iff, cell_newwin hi]
  exact ⟨fun h i hi => (hcell i hi).mp (h i hi), fun h i hi => (hcell i hi).mpr (h i hi)⟩

/-- Printable ASCII characters. -/
def Ascii (s : Bytes) : Prop := ∀ c ∈ s, 32 ≤ c ∧ c < 127

instance (s : Bytes) : Decidable (Ascii s) := List.decidableBAll (fun c => 32 ≤ c ∧ c < 127) s

lemma Ascii.append {s t : Bytes} (hs : Ascii s) (ht : Ascii t) : Ascii (s ++ t) := fun c hc =>
  (List.mem_append.mp hc).elim (hs c) (ht c)

lemma Ascii.cstr_eq {s : Bytes} (h : Ascii s) : cstr s = s :=
  Framing.upTo_of_notMem fun hmem => absurd (h 0 hmem).1 (by decide)

lemma Ascii.fits {s : Bytes} (h : Ascii s) {row col : ℕ} (hrow : row < lines) (hcol : col < cols)
    (hlen : col + s.length ≤ cols) : D.Fits ⟨row, col, cstr s⟩ := by
  rw [h.cstr_eq]
  exact ⟨hrow, hcol, hlen, fun c hc => D.isPrint_ascii c (h c hc).1 (h c hc).2⟩

lemma Ascii.fits_append {s t : Bytes} (hs : Ascii s) (ht : Ascii t) {row col : ℕ}
    (hrow : row < lines) (hcol : col < cols) (hlen : col + s.length + t.length ≤ cols) :
    D.Fits ⟨row, col, cstr (s ++ t)⟩ :=
  (hs.append ht).fits hrow hcol (by rw [List.length_append]; omega)

end Drawing

/-! ### Windows that draw what fits -/

section Plain

variable {lines cols : ℕ}

/-- The border of a window. -/
def bordered (lines : ℕ) (w : PlainWindow cols) : PlainWindow cols :=
  { w with
    rows := fun y =>
      if y = 0 ∨ y + 1 = lines then (w.rows y).put 0 (List.replicate cols 45)
      else ((w.rows y).put 0 [124]).put (cols - 1) [124] }

lemma getElem?_bordered (w : PlainWindow cols) {y x : ℕ} (hpos : 0 < y) (hlast : y + 1 < lines)
    (hx : 0 < x) (hx' : x + 1 < cols) :
    ((bordered lines w).rows y).text[x]? = (w.rows y).text[x]? := by
  have hside : ∀ (l : PlainRow cols) (z : ℕ), z ≠ x → z < cols →
      (l.put z [124]).text[x]? = l.text[x]? := by
    intro l z hz hlt
    have hl := l.length_eq
    have hbar : ∀ c ∈ [(124 : UInt8)], decide (32 ≤ c ∧ c < 127) = true := by
      intro c hc
      obtain rfl := List.mem_singleton.mp hc
      rfl
    rw [PlainRow.put_text (by simpa using hlt) hbar, getElem?_put (by omega), if_neg]
    rw [List.length_singleton]
    omega
  have hrow : ¬ (y = 0 ∨ y + 1 = lines) := by omega
  unfold bordered
  dsimp only
  rw [if_neg hrow, hside _ _ (by omega) (by omega), hside _ _ (by omega) (by omega)]

/-- A text that is printed moves the cursor to its end. -/
def printed (w : PlainWindow cols) (y x : ℕ) (s : Bytes) : PlainWindow cols :=
  { w.put y x (visible s) with cursor := (y, x + (visible s).length) }

lemma printed_nil (w : PlainWindow cols) (y x : ℕ) :
    (printed w y x []).rows = w.rows ∧ (printed w y x []).cursor = (y, x) := by
  refine ⟨?_, rfl⟩
  have hnone : visible [] = [] := rfl
  have hput : (w.rows y).put x [] = w.rows y := by
    obtain ⟨text, hlen, hascii⟩ := w.rows y
    unfold PlainRow.put
    split
    · simp
    · rfl
  unfold printed PlainWindow.put
  rw [hnone, hput]
  exact Function.update_eq_self y w.rows

/-- Windows that have a border and print what fits. -/
def plainDrawing (lines cols : ℕ) (hcols : 1 < cols) : Drawing lines cols where
  toCurses :=
    { plain lines cols hcols with
      mvwprintw := fun w y x s => printed w y.toNat x.toNat s
      row_mvwprintw := (plain lines cols hcols).row_mvwprintw }
  box := bordered lines
  wprintw w s := printed w w.cursor.1 w.cursor.2 s
  row_box w y _ hpos hlast _ hx hx' := getElem?_bordered w hpos hlast hx hx'
  wprintw_mvwprintw w y _ x _ s := by
    obtain ⟨hrows, hcursor⟩ := printed_nil w y x
    change printed (printed w y x []) (printed w y x []).cursor.1 (printed w y x []).cursor.2 s =
      printed w y x s
    rw [hcursor]
    unfold printed PlainWindow.put at hrows ⊢
    rw [hrows]
  isPrint_ascii c hc hc' := decide_eq_true ⟨hc, hc'⟩

end Plain

end SelfTraining.Painting
