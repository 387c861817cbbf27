import Mathlib.Data.List.Induction
import Mathlib.Data.List.Sort
import Mathlib.Order.Defs.LinearOrder

/-!
Loops over a vector: the search for the first best element, for the least by a comparison that
need not be total, and sorting with a comparison.

`firstMin` keeps the first element that passes a test and whose key no later one beats.
`Sorts` is all that a sorting routine promises: a rearrangement in which no element stands
before one that the comparison puts ahead of it. What it does with ties is left open.
-/

namespace SelfTraining.Order

variable {α β : Type*} [LinearOrder β]

/-- One turn of the loop: `x` replaces the best so far when it passes and is strictly
better. -/
def minStep (ok : α → Bool) (key : α → β) (best : Option α) (x : α) : Option α :=
  if ok x then
    match best with
    | none => some x
    | some b => if key x < key b then some x else some b
  else best

/-- The first element that passes `ok` and has the least key among those that do. -/
def firstMin (ok : α → Bool) (key : α → β) (l : List α) : Option α :=
  l.foldl (minStep ok key) none

lemma minStep_some (ok : α → Bool) (key : α → β) (b a : α) : minStep ok key (some b) a =
    if ok a ∧ key a < key b then some a else some b := by
  unfold minStep
  by_cases hok : ok a
  · simp only [hok, true_and, if_true]
  · simp [hok]

lemma foldl_minStep_some (ok : α → Bool) (key : α → β) (l : List α) {b : α} (hb : ok b) :
    ∃ m, l.foldl (minStep ok key) (some b) = some m ∧ ok m ∧ (m = b ∨ m ∈ l) ∧
      key m ≤ key b ∧ ∀ x ∈ l, ok x → key m ≤ key x := by
  induction l generalizing b with
  | nil => exact ⟨b, rfl, hb, .inl rfl, le_rfl, by simp⟩
  | cons a l ih =>
    by_cases ha : ok a ∧ key a < key b
    · obtain ⟨m, hm, hok, hmem, hle, hall⟩ := ih ha.1
      refine ⟨m, by rw [List.foldl_cons, minStep_some, if_pos ha, hm], hok, .inr ?_,
        hle.trans ha.2.le, ?_⟩
      · rcases hmem with rfl | h <;> simp [*]
      · intro x hx hxok
        rcases List.mem_cons.mp hx with rfl | hx
        · exact hle
        · exact hall x hx hxok
    · obtain ⟨m, hm, hok, hmem, hle, hall⟩ := ih hb
      refine ⟨m, by rw [List.foldl_cons, minStep_some, if_neg ha, hm], hok, ?_, hle, ?_⟩
      · rcases hmem with h | h <;> simp [h]
      · intro x hx hxok
        rcases List.mem_cons.mp hx with rfl | hx
        · have : ¬ key x < key b := fun h => ha ⟨hxok, h⟩
          exact hle.trans (not_lt.mp this)
        · exact hall x hx hxok

variable {ok : α → Bool} {key : α → β}

/-- **The best element**: it is in the list, passes, and none that passes is better. -/
theorem firstMin_some {l : List α} {m : α} (h : firstMin ok key l = some m) :
    m ∈ l ∧ ok m ∧ ∀ x ∈ l, ok x → key m ≤ key x := by
  unfold firstMin at h
  induction l with
  | nil => simp at h
  | cons a l ih =>
    by_cases ha : ok a
    · obtain ⟨m', hm', hok, hmem, hle, hall⟩ := foldl_minStep_some ok key l ha
      have hstep : minStep ok key none a = some a := by simp [minStep, ha]
      rw [List.foldl_cons, hstep, hm'] at h
      obtain rfl : m' = m := by simpa using h
      refine ⟨by simpa using hmem, hok, ?_⟩
      intro x hx hxok
      rcases List.mem_cons.mp hx with rfl | hx
      · exact hle
      · exact hall x hx hxok
    · have hstep : minStep ok key none a = none := by simp [minStep, ha]
      rw [List.foldl_cons, hstep] at h
      obtain ⟨hmem, hok, hall⟩ := ih h
      refine ⟨by simp [hmem], hok, ?_⟩
      intro x hx hxok
      rcases List.mem_cons.mp hx with rfl | hx
      · exact absurd hxok ha
      · exact hall x hx hxok

/-- There is a best element as soon as one element passes. -/
theorem exists_firstMin {l : List α} {x : α} (hx : x ∈ l) (hok : ok x) :
    ∃ m, firstMin ok key l = some m := by
  unfold firstMin
  induction l with
  | nil => simp at hx
  | cons a l ih =>
    by_cases ha : ok a
    · obtain ⟨m, hm, -⟩ := foldl_minStep_some ok key l ha
      exact ⟨m, by simpa [minStep, ha] using hm⟩
    · have hxl : x ∈ l := by
        rcases List.mem_cons.mp hx with rfl | h
        · exact absurd hok ha
        · exact h
      obtain ⟨m, hm⟩ := ih hxl
      exact ⟨m, by simpa [minStep, ha] using hm⟩

lemma foldl_minStep_keep {l : List α} {b : α} (h : ∀ x ∈ l, ok x → key b ≤ key x) :
    l.foldl (minStep ok key) (some b) = some b := by
  induction l with
  | nil => rfl
  | cons a l ih =>
    have hno : ¬ (ok a ∧ key a < key b) := fun ha => (h a (by simp) ha.1).not_gt ha.2
    rw [List.foldl_cons, minStep_some, if_neg hno]
    exact ih fun x hx => h x (by simp [hx])

lemma not_ok_of_firstMin {l : List α} (h : firstMin ok key l = none) : ∀ x ∈ l, ¬ ok x := by
  intro x hx hok
  obtain ⟨y, hy⟩ : ∃ y, firstMin ok key l = some y := exists_firstMin hx hok
  rw [h] at hy
  cases hy

lemma firstMin_concat (l : List α) (a : α) :
    firstMin ok key (l ++ [a]) = minStep ok key (firstMin ok key l) a := by
  unfold firstMin
  rw [List.foldl_append]
  rfl

/-- None before the best element that passes is as good, and none after it is better. -/
lemma firstMin_split {l : List α} {m : α} (h : firstMin ok key l = some m) :
    ∃ l₁ l₂, l = l₁ ++ m :: l₂ ∧ ok m ∧
      (∀ x ∈ l₁, ok x → key m < key x) ∧ ∀ x ∈ l₂, ok x → key m ≤ key x := by
  induction l using List.reverseRecOn generalizing m with
  | nil => cases h
  | append_singleton l a ih =>
    rw [firstMin_concat] at h
    cases hb : firstMin ok key l with
    | none =>
      rw [hb] at h
      by_cases ha : ok a
      · obtain rfl : a = m := by simpa [minStep, ha] using h
        exact ⟨l, [], rfl, ha, fun x hx hok => absurd hok (not_ok_of_firstMin hb x hx), by simp⟩
      · simp [minStep, ha] at h
    | some b =>
      rw [hb, minStep_some] at h
      by_cases ha : ok a ∧ key a < key b
      · rw [if_pos ha] at h
        cases h
        refine ⟨l, [], rfl, ha.1, fun x hx hok => ?_, by simp⟩
        exact ha.2.trans_le ((firstMin_some hb).2.2 x hx hok)
      · rw [if_neg ha] at h
        cases h
        obtain ⟨l₁, l₂, rfl, hok, h₁, h₂⟩ := ih hb
        refine ⟨l₁, l₂ ++ [a], by simp, hok, h₁, fun x hx hokx => ?_⟩
        rcases List.mem_append.mp hx with hx | hx
        · exact h₂ x hx hokx
        · obtain rfl := List.mem_singleton.mp hx
          exact not_lt.mp fun hlt => ha ⟨hokx, hlt⟩

/-- **The first best element.** None before it that passes is as good, and none after it
that passes is better. -/
theorem firstMin_eq_some_iff {l : List α} {m : α} :
    firstMin ok key l = some m ↔ ∃ l₁ l₂, l = l₁ ++ m :: l₂ ∧ ok m ∧
      (∀ x ∈ l₁, ok x → key m < key x) ∧ ∀ x ∈ l₂, ok x → key m ≤ key x := by
  refine ⟨firstMin_split, ?_⟩
  rintro ⟨l₁, l₂, rfl, hok, h₁, h₂⟩
  have hstep : minStep ok key (firstMin ok key l₁) m = some m := by
    cases hb : firstMin ok key l₁ with
    | none => simp [minStep, hok]
    | some b =>
      obtain ⟨hmem, hokb, -⟩ := firstMin_some hb
      rw [minStep_some, if_pos ⟨hok, h₁ b hmem hokb⟩]
  unfold firstMin
  rw [List.foldl_append, List.foldl_cons]
  change l₂.foldl (minStep ok key) (minStep ok key (firstMin ok key l₁) m) = some m
  rw [hstep]
  exact foldl_minStep_keep h₂

/-- The best element stays when a test lets fewer elements pass, but still that one. -/
theorem firstMin_of_fewer {ok' : α → Bool} {l : List α} (hok : ∀ x, ok' x → ok x)
    (hbest : ∀ m, firstMin ok key l = some m → ok' m) :
    firstMin ok' key l = firstMin ok key l := by
  cases hm : firstMin ok key l with
  | none =>
    cases hm' : firstMin ok' key l with
    | none => rfl
    | some m =>
      obtain ⟨hmem, hokm, -⟩ := firstMin_some hm'
      obtain ⟨y, hy⟩ : ∃ y, firstMin ok key l = some y := exists_firstMin hmem (hok m hokm)
      rw [hm] at hy
      cases hy
  | some m =>
    obtain ⟨l₁, l₂, hl, -, h₁, h₂⟩ := firstMin_eq_some_iff.mp hm
    exact firstMin_eq_some_iff.mpr ⟨l₁, l₂, hl, hbest m hm,
      fun x hx hx' => h₁ x hx (hok x hx'), fun x hx hx' => h₂ x hx (hok x hx')⟩

/-! ### The least by a comparison -/

section Less

variable {γ κ : Type*}

/-- A strict comparison, which need not compare any two keys. -/
structure Strict (less : κ → κ → Bool) : Prop where
  irrefl : ∀ x, less x x = false
  trans : ∀ x y z, less x y = true → less y z = true → less x z = true

/-- One turn of a loop that keeps a label and the least key so far. -/
def lessStep (less : κ → κ → Bool) (key : α → κ) (label : α → γ) (st : γ × κ) (x : α) : γ × κ :=
  if less (key x) st.2 then (label x, key x) else st

variable {less : κ → κ → Bool} {key : α → κ} {label : α → γ}

/-- The loop comes to an element of the list if one is below the bound, and else stays as it
was. -/
theorem foldl_lessStep_cases (l : List α) (st : γ × κ) :
    ((∃ y ∈ l, less (key y) st.2 = true) ∧
      ∃ x ∈ l, l.foldl (lessStep less key label) st = (label x, key x)) ∨
    (l.foldl (lessStep less key label) st = st ∧ ∀ y ∈ l, less (key y) st.2 = false) := by
  induction l using List.reverseRecOn with
  | nil => exact .inr ⟨rfl, by simp⟩
  | append_singleton l a ih =>
    rw [List.foldl_concat, lessStep]
    rcases ih with ⟨⟨y, hy, hbelow⟩, x, hx, hrun⟩ | ⟨hrun, hnone⟩
    · refine .inl ⟨⟨y, by simp [hy], hbelow⟩, ?_⟩
      split_ifs
      · exact ⟨a, by simp, rfl⟩
      · exact ⟨x, by simp [hx], hrun⟩
    · rw [hrun]
      by_cases ha : less (key a) st.2 = true
      · rw [if_pos ha]
        exact .inl ⟨⟨a, by simp, ha⟩, a, by simp, rfl⟩
      · rw [if_neg ha]
        refine .inr ⟨rfl, fun y hy => ?_⟩
        rcases List.mem_append.mp hy with hy | hy
        · exact hnone y hy
        · simpa [List.mem_singleton.mp hy] using ha

/-- The label that the loop starts with is lost as soon as one element is below the bound. -/
lemma foldl_lessStep_start {l : List α} {k : κ} (h : ∃ y ∈ l, less (key y) k = true) (c c' : γ) :
    l.foldl (lessStep less key label) (c, k) = l.foldl (lessStep less key label) (c', k) := by
  induction l with
  | nil => simp at h
  | cons a l ih =>
    rw [List.foldl_cons, List.foldl_cons, lessStep, lessStep]
    by_cases ha : less (key a) k = true
    · rw [if_pos ha, if_pos ha]
    · rw [if_neg ha, if_neg ha]
      obtain ⟨y, hy, hbelow⟩ := h
      rcases List.mem_cons.mp hy with rfl | hy
      · exact absurd hbelow ha
      · exact ih ⟨y, hy, hbelow⟩

/-- **The least of a list.** Nothing in the list is below what the loop has kept. -/
theorem foldl_lessStep_least (h : Strict less) (l : List α) (st : γ × κ) :
    ∀ y ∈ l, less (key y) (l.foldl (lessStep less key label) st).2 = false := by
  induction l using List.reverseRecOn with
  | nil => simp
  | append_singleton l a ih =>
    intro y hy
    rw [List.foldl_concat, lessStep]
    by_cases ha : less (key a) (l.foldl (lessStep less key label) st).2 = true
    · rw [if_pos ha]
      rcases List.mem_append.mp hy with hy | hy
      · by_contra hless
        have hbelow := h.trans _ _ _ (by simpa using hless) ha
        rw [ih y hy] at hbelow
        cases hbelow
      · rw [List.mem_singleton.mp hy]
        exact h.irrefl (key a)
    · rw [if_neg ha]
      rcases List.mem_append.mp hy with hy | hy
      · exact ih y hy
      · simpa [List.mem_singleton.mp hy] using ha

end Less

/-! ### Sorting -/

omit [LinearOrder β] in
/-- `l'` is an outcome of sorting `l` with the comparison `before`. -/
def Sorts (before : α → α → Bool) (l l' : List α) : Prop :=
  l'.Perm l ∧ l'.Pairwise fun a b => before b a = false

omit [LinearOrder β] in
lemma Sorts.congr {before before' : α → α → Bool} {l l' : List α} (h : Sorts before l l')
    (heq : ∀ a ∈ l, ∀ b ∈ l, before a b = before' a b) : Sorts before' l l' := by
  refine ⟨h.1, h.2.imp_of_mem fun {a b} ha hb hab => ?_⟩
  rw [← heq b (h.1.mem_iff.mp hb) a (h.1.mem_iff.mp ha)]
  exact hab

lemma insertionSort_sorts (val : α → β) (l : List α) :
    Sorts (fun a b => decide (val b < val a)) l
      (l.insertionSort fun a b => val b ≤ val a) := by
  have : Std.Total fun a b : α => val b ≤ val a := ⟨fun a b => le_total (val b) (val a)⟩
  have : IsTrans α fun a b : α => val b ≤ val a := ⟨fun _ _ _ h1 h2 => h2.trans h1⟩
  refine ⟨List.perm_insertionSort _ _, ?_⟩
  refine (List.pairwise_insertionSort (fun a b : α => val b ≤ val a) l).imp ?_
  intro a b h
  simpa using h

lemma Sorts.drop_le (val : α → β) {l l' : List α}
    (h : Sorts (fun a b => decide (val b < val a)) l l') (n : ℕ) :
    ∀ a ∈ l'.take n, ∀ b ∈ l'.drop n, val b ≤ val a := by
  intro a ha b hb
  have hsorted := h.2
  rw [← List.take_append_drop n l', List.pairwise_append] at hsorted
  simpa using hsorted.2.2 a ha b hb

lemma Sorts.last_le (val : α → β) {l l' : List α} {m : α}
    (h : Sorts (fun a b => decide (val b < val a)) l (l' ++ [m])) :
    ∀ x ∈ l, val m ≤ val x := by
  intro x hx
  have hx' : x ∈ l' ++ [m] := h.1.mem_iff.mpr hx
  rcases List.mem_append.mp hx' with hx' | hx'
  · have := (List.pairwise_append.mp h.2).2.2 x hx' m (by simp)
    simpa using this
  · rw [List.mem_singleton.mp hx']

end SelfTraining.Order
