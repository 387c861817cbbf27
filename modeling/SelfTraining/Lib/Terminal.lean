import SelfTraining.Lib.Text
import Mathlib.Data.List.DropRight

/-!
Windows of a text terminal, by what is promised of them.

A window shows a character in each cell of its rows and has a cursor. A text that fits into
its row is promised to stand there, and a carriage return behind it to move the cursor alone.
Nothing is said of longer texts, or of characters that cannot be printed.
-/

namespace SelfTraining.Terminal

open SelfTraining.Text

/-- A library for windows with `lines` rows of `cols` cells. -/
structure Curses (lines cols : ℕ) where
  Window : Type
  isPrint : UInt8 → Bool
  row : Window → ℕ → Bytes
  cursor : Window → ℕ × ℕ
  newwin : Window
  wmove : Window → ℤ → ℤ → Window
  wclrtoeol : Window → Window
  wattron : Window → ℕ → Window
  wattroff : Window → ℕ → Window
  mvwprintw : Window → ℤ → ℤ → Bytes → Window
  one_lt_cols : 1 < cols
  isPrint_nul : isPrint 0 = false
  row_length : ∀ w, ∀ y < lines, (row w y).length = cols
  row_isPrint : ∀ w, ∀ y < lines, ∀ c ∈ row w y, isPrint c = true
  row_newwin : ∀ y < lines, row newwin y = List.replicate cols 32
  row_wmove : ∀ w y x, row (wmove w y x) = row w
  cursor_wmove : ∀ w, ∀ y < lines, ∀ x < cols, cursor (wmove w y x) = (y, x)
  row_wclrtoeol : ∀ w y, row (wclrtoeol w) y =
    if y = (cursor w).1 then
      (row w y).take (cursor w).2 ++ List.replicate (cols - (cursor w).2) 32
    else row w y
  row_wattron : ∀ w pair, row (wattron w pair) = row w
  row_wattroff : ∀ w pair, row (wattroff w pair) = row w
  row_mvwprintw : ∀ w, ∀ y < lines, ∀ x < cols, ∀ (s : Bytes) (k y' : ℕ),
    x + s.length ≤ cols → (∀ c ∈ s, isPrint c = true) →
      row (mvwprintw w y x (s ++ List.replicate k 13)) y' =
        if y' = y then (row w y).take x ++ s ++ (row w y).drop (x + s.length) else row w y'

attribute [simp] Curses.row_wmove Curses.row_wattron Curses.row_wattroff

/-- What is to be seen of a text: a carriage return at the end is not. -/
def visible (s : Bytes) : Bytes := s.rdropWhile fun c => c == 13

lemma visible_append (s : Bytes) : ∃ k, s = visible s ++ List.replicate k 13 := by
  refine ⟨(s.rtakeWhile fun c => c == 13).length, ?_⟩
  have hcr : s.rtakeWhile (fun c => c == 13) =
      List.replicate (s.rtakeWhile fun c => c == 13).length 13 := by
    refine List.eq_replicate_iff.mpr ⟨rfl, fun c hc => ?_⟩
    simpa using List.mem_rtakeWhile_imp hc
  rw [← hcr]
  exact (List.rdropWhile_append_rtakeWhile).symm

lemma mem_visible {s : Bytes} {c : UInt8} (hc : c ≠ 13) : c ∈ visible s ↔ c ∈ s := by
  obtain ⟨k, hk⟩ := visible_append s
  conv_rhs => rw [hk, List.mem_append, List.mem_replicate]
  simp [hc]

lemma visible_of_notMem {s : Bytes} (h : 13 ∉ s) (k : ℕ) :
    visible (s ++ List.replicate k 13) = s := by
  have hdrop : s.reverse.dropWhile (fun c => c == 13) = s.reverse := by
    cases hs : s.reverse with
    | nil => rfl
    | cons c rest =>
      have hc : c ≠ 13 := by
        rintro rfl
        exact h (List.mem_reverse.mp (hs ▸ List.mem_cons_self))
      simp [hc]
  unfold visible List.rdropWhile
  rw [List.reverse_append, List.reverse_replicate,
    List.dropWhile_append_of_pos fun c hc => by simpa using (List.mem_replicate.mp hc).2, hdrop,
    List.reverse_reverse]

namespace Curses

variable {lines cols : ℕ} (C : Curses lines cols)

/-- The text goes into a row from its second cell on. -/
def Fits (s : Bytes) : Prop :=
  1 + (visible s).length ≤ cols ∧ ∀ c ∈ visible s, C.isPrint c = true

instance (s : Bytes) : Decidable (C.Fits s) := inferInstanceAs (Decidable (_ ∧ _))

variable {C}

lemma Fits.cstr_eq {s : Bytes} (h : C.Fits s) : cstr s = s := by
  refine Framing.upTo_of_notMem fun hmem => ?_
  have hprint := h.2 0 ((mem_visible (by decide)).mpr hmem)
  rw [C.isPrint_nul] at hprint
  cases hprint

end Curses

/-! ### A window that prints what fits -/

/-- A row of printable ASCII characters. -/
structure PlainRow (cols : ℕ) where
  text : Bytes
  length_eq : text.length = cols
  ascii : ∀ c ∈ text, decide (32 ≤ c ∧ c < 127) = true

namespace PlainRow

variable {cols : ℕ}

def blank (cols : ℕ) : PlainRow cols where
  text := List.replicate cols 32
  length_eq := List.length_replicate
  ascii c hc := by
    obtain ⟨-, rfl⟩ := List.mem_replicate.mp hc
    rfl

/-- The row with a text in it from cell `x` on, if the text can stand there. -/
def put (l : PlainRow cols) (x : ℕ) (s : Bytes) : PlainRow cols :=
  if h : x + s.length ≤ cols ∧ s.all (fun c => decide (32 ≤ c ∧ c < 127)) = true then
    { text := l.text.take x ++ s ++ l.text.drop (x + s.length)
      length_eq := by
        have hl := l.length_eq
        simp only [List.length_append, List.length_take, List.length_drop]
        omega
      ascii := fun c hc => by
        rw [List.append_assoc, List.mem_append, List.mem_append] at hc
        rcases hc with hc | hc | hc
        · exact l.ascii c (List.mem_of_mem_take hc)
        · exact List.all_eq_true.mp h.2 c hc
        · exact l.ascii c (List.mem_of_mem_drop hc) }
  else l

lemma put_text {l : PlainRow cols} {x : ℕ} {s : Bytes} (hlen : x + s.length ≤ cols)
    (hs : ∀ c ∈ s, decide (32 ≤ c ∧ c < 127) = true) :
    (l.put x s).text = l.text.take x ++ s ++ l.text.drop (x + s.length) := by
  rw [put, dif_pos ⟨hlen, List.all_eq_true.mpr hs⟩]

lemma put_blanks (l : PlainRow cols) (x : ℕ) :
    (l.put x (List.replicate (cols - x) 32)).text =
      l.text.take x ++ List.replicate (cols - x) 32 := by
  have hl := l.length_eq
  by_cases hx : x ≤ cols
  · have hblank : ∀ c ∈ List.replicate (cols - x) (32 : UInt8),
        decide (32 ≤ c ∧ c < 127) = true := by
      intro c hc
      obtain ⟨-, rfl⟩ := List.mem_replicate.mp hc
      rfl
    have hlen : x + (List.replicate (cols - x) (32 : UInt8)).length = cols := by
      rw [List.length_replicate]
      omega
    rw [put_text hlen.le hblank, hlen, List.drop_eq_nil_of_le hl.le, List.append_nil]
  · have hzero : cols - x = 0 := by omega
    rw [hzero, put, dif_neg fun h => hx h.1, List.take_of_length_le (by omega)]
    simp

end PlainRow

/-- Rows of printable ASCII characters, and the cursor. -/
structure PlainWindow (cols : ℕ) where
  rows : ℕ → PlainRow cols
  cursor : ℕ × ℕ

namespace PlainWindow

variable {cols : ℕ}

def put (w : PlainWindow cols) (y x : ℕ) (s : Bytes) : PlainWindow cols :=
  { w with rows := Function.update w.rows y ((w.rows y).put x s) }

end PlainWindow

/-- Windows that print what fits and know no colours. -/
def plain (lines cols : ℕ) (hcols : 1 < cols) : Curses lines cols where
  Window := PlainWindow cols
  isPrint c := decide (32 ≤ c ∧ c < 127)
  row w y := (w.rows y).text
  cursor w := w.cursor
  newwin := ⟨fun _ => .blank cols, (0, 0)⟩
  wmove w y x := { w with cursor := (y.toNat, x.toNat) }
  wclrtoeol w := w.put w.cursor.1 w.cursor.2 (List.replicate (cols - w.cursor.2) 32)
  wattron w _ := w
  wattroff w _ := w
  mvwprintw w y x s := w.put y.toNat x.toNat (visible s)
  one_lt_cols := hcols
  isPrint_nul := rfl
  row_length w y _ := (w.rows y).length_eq
  row_isPrint w y _ := (w.rows y).ascii
  row_newwin _ _ := rfl
  row_wmove _ _ _ := rfl
  cursor_wmove _ _ _ _ _ := rfl
  row_wclrtoeol w y := by
    by_cases hy : y = w.cursor.1
    · subst hy
      simp [PlainWindow.put, PlainRow.put_blanks]
    · simp [PlainWindow.put, hy]
  row_wattron _ _ := rfl
  row_wattroff _ _ := rfl
  row_mvwprintw w y _ x _ s k y' hlen hs := by
    have hcr : (13 : UInt8) ∉ s := fun h => absurd (hs 13 h) (by decide)
    by_cases hy : y' = y
    · subst hy
      simp [PlainWindow.put, visible_of_notMem hcr, PlainRow.put_text hlen hs]
    · simp [PlainWindow.put, hy]

end SelfTraining.Terminal
