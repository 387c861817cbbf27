import SelfTraining.Monitor.LinuxParser
import Mathlib.Tactic.NormNum
import Mathlib.Tactic.Linarith
import Mathlib.Algebra.Order.Field.Basic
import Mathlib.Algebra.Order.Field.Rat

/-!
The load of the processor.

A call of `Utilization` reads `/proc/stat` four times while the kernel goes on counting: the
sum of all counters, the idle jiffies that are subtracted from it, those that are added
again, and those that are remembered. Which of the two operands of the sum in `Jiffies` is
read first is left to the compiler.
-/

namespace SelfTraining.Monitor

open SelfTraining.Text SelfTraining.Stream

/-- What a call of `Utilization` reads. -/
structure Reads where
  sum : Bytes
  sub : Bytes
  add : Bytes
  idle : Bytes

/-- The quotient that a call returns. -/
structure Load where
  num : ℤ
  den : ℤ
  deriving DecidableEq

namespace Load

def value (l : Load) : ℚ := l.num / l.den

/-- Divided by a positive number, and between 0 and 1. -/
structure Proper (l : Load) : Prop where
  den_pos : 0 < l.den
  nonneg : 0 ≤ l.value
  le_one : l.value ≤ 1

lemma proper_iff (l : Load) : l.Proper ↔ 0 < l.den ∧ 0 ≤ l.num ∧ l.num ≤ l.den := by
  have hvalue : 0 < l.den → (0 ≤ l.value ↔ 0 ≤ l.num) ∧ (l.value ≤ 1 ↔ l.num ≤ l.den) := by
    intro hden
    have hpos : (0 : ℚ) < l.den := by exact_mod_cast hden
    unfold value
    rw [le_div_iff₀ hpos, zero_mul, div_le_one hpos]
    exact ⟨Int.cast_nonneg_iff, Int.cast_le⟩
  constructor
  · intro h
    obtain ⟨hnonneg, hle⟩ := hvalue h.den_pos
    exact ⟨h.den_pos, hnonneg.mp h.nonneg, hle.mp h.le_one⟩
  · rintro ⟨hden, hnum, hle⟩
    obtain ⟨hnonneg, hle_one⟩ := hvalue hden
    exact ⟨hden, hnonneg.mpr hnum, hle_one.mpr hle⟩

end Load

structure Processor where
  prevtotal : ℤ
  previdle : ℤ

namespace Processor

/-- A processor of which no load has been asked. -/
def init : Processor := ⟨0, 0⟩

/-- `Utilization`: the quotient, and what is remembered for the next call. -/
def utilization (p : Processor) (r : Reads) : Option (Load × Processor) := do
  let total ← LinuxParser.jiffies r.sum r.sub r.add
  let idle ← LinuxParser.idleJiffies r.idle
  let totald ← LinuxParser.subLong total p.prevtotal
  let idled ← LinuxParser.subLong idle p.previdle
  let busy ← LinuxParser.subLong totald idled
  return (⟨busy, totald⟩, ⟨total, idle⟩)

/-- Calls one after the other. -/
def utilizations : Processor → List Reads → Option (List Load)
  | _, [] => some []
  | p, r :: rs => do
    let (load, p') ← utilization p r
    let loads ← utilizations p' rs
    return load :: loads

end Processor

/-! ### Calls while the kernel counts -/

/-- Which operand of the sum in `Jiffies` is read first. -/
inductive Operand
  | active | idle
  deriving DecidableEq

/-- A call and the moments at which it reads. -/
structure Call where
  first : Operand
  sum : ℕ
  sub : ℕ
  add : ℕ
  idle : ℕ
  sum_le_sub : sum ≤ sub
  sub_le_idle : sub ≤ idle
  add_le_idle : add ≤ idle
  inTurn : match first with
    | .active => sub ≤ add
    | .idle => add ≤ sum

/-- The moment of the first read. -/
def Call.start (c : Call) : ℕ :=
  match c.first with
  | .active => c.sum
  | .idle => c.add

lemma Call.start_le (c : Call) : c.start ≤ c.sum ∧ c.start ≤ c.add := by
  obtain ⟨first, sum, sub, add, idle, hsum, -, -, hturn⟩ := c
  cases first with
  | active => exact ⟨le_rfl, hsum.trans hturn⟩
  | idle => exact ⟨hturn, le_rfl⟩

/-- The contents of `/proc/stat` from moment to moment, no counter of which ever goes back,
and calls one after the other; the sum of the counters grows between two of them. -/
structure Watch where
  file : ℕ → StatFile
  counts : ∀ m n, m ≤ n → (file m).toCpuLine.Le (file n).toCpuLine
  calls : List Call
  apart : calls.IsChain fun t u => t.idle ≤ u.start ∧
    (file t.idle).counters.sum < (file u.start).counters.sum

namespace Watch

def reads (w : Watch) (c : Call) : Reads :=
  ⟨(w.file c.sum).text, (w.file c.sub).text, (w.file c.add).text, (w.file c.idle).text⟩

/-- The idle jiffies that pass while a call reads, and that it takes off the others. -/
def missed (w : Watch) (c : Call) : ℤ :=
  ((w.file c.sub).idled - (w.file c.sum).idled) + ((w.file c.idle).idled - (w.file c.add).idled)

/-- From one call to the next, the jiffies that are missed grow no more than those in which
something was run. -/
def Covered (w : Watch) (t u : Call) : Prop :=
  w.missed u - w.missed t ≤ (w.file u.sum).busy - (w.file t.sum).busy

/-- What `Jiffies` comes to. -/
def total (w : Watch) (c : Call) : ℤ :=
  (w.file c.sum).busy + (w.file c.sum).idled - (w.file c.sub).idled + (w.file c.add).idled

/-- What a processor remembers of a call. -/
def after (w : Watch) (c : Call) : Processor := ⟨w.total c, (w.file c.idle).idled⟩

/-- What a call returns after what is remembered. -/
def load (w : Watch) (p : Processor) (c : Call) : Load :=
  ⟨w.total c - p.prevtotal - ((w.file c.idle).idled - p.previdle), w.total c - p.prevtotal⟩

/-- The sums and the differences that a call forms, after what is remembered, stay in a `long`. -/
structure Fits (w : Watch) (p : Processor) (c : Call) : Prop where
  counters : SumsFit (w.file c.sum).counters
  sub : IsLong (w.file c.sub).idled
  active : IsLong ((w.file c.sum).busy + (w.file c.sum).idled - (w.file c.sub).idled)
  add : IsLong (w.file c.add).idled
  total : IsLong (w.total c)
  idle : IsLong (w.file c.idle).idled
  totald : IsLong (w.total c - p.prevtotal)
  idled : IsLong ((w.file c.idle).idled - p.previdle)
  busy : IsLong (w.total c - p.prevtotal - ((w.file c.idle).idled - p.previdle))

/-- So it is for calls one after the other. -/
def AllFit (w : Watch) : Processor → List Call → Prop
  | _, [] => True
  | p, c :: cs => w.Fits p c ∧ AllFit w (w.after c) cs

variable (w : Watch)

lemma utilization_eq_some {p p' : Processor} {c : Call} {l : Load} :
    p.utilization (w.reads c) = some (l, p') ↔ w.Fits p c ∧ w.load p c = l ∧ w.after c = p' := by
  unfold Processor.utilization reads
  simp only [Option.bind_eq_bind, Option.bind_eq_some_iff, StatFile.jiffies_eq_some,
    StatFile.idleJiffies_eq_some, LinuxParser.subLong_eq_some, Option.pure_def,
    Option.some.injEq, Prod.mk.injEq]
  constructor
  · rintro ⟨_, ⟨⟨hsum, hsub, hactive, hadd, htotal⟩, rfl⟩, _, ⟨hidle, rfl⟩, _, ⟨htotald, rfl⟩, _,
      ⟨hidled, rfl⟩, _, ⟨hbusy, rfl⟩, hload, hafter⟩
    exact ⟨⟨hsum, hsub, hactive, hadd, htotal, hidle, htotald, hidled, hbusy⟩, hload, hafter⟩
  · rintro ⟨h, hload, hafter⟩
    exact ⟨_, ⟨⟨h.counters, h.sub, h.active, h.add, h.total⟩, rfl⟩, _, ⟨h.idle, rfl⟩, _,
      ⟨h.totald, rfl⟩, _, ⟨h.idled, rfl⟩, _, ⟨h.busy, rfl⟩, hload, hafter⟩

lemma idled_mono {m n : ℕ} (h : m ≤ n) : (w.file m).idled ≤ (w.file n).idled :=
  (w.counts m n h).idled

lemma busy_mono {m n : ℕ} (h : m ≤ n) : (w.file m).busy ≤ (w.file n).busy :=
  (w.counts m n h).busy

/-- `Jiffies` never comes to more than what the counters add up to in the end. -/
lemma total_le (c : Call) : w.total c ≤ (w.file c.idle).busy + (w.file c.idle).idled := by
  have hbusy := w.busy_mono (c.sum_le_sub.trans c.sub_le_idle)
  have hsub := w.idled_mono c.sum_le_sub
  have hadd := w.idled_mono c.add_le_idle
  unfold total
  omega

/-- **One call after another.** It returns a proper load exactly when what it misses is
covered. -/
lemma proper_iff_covered {t u : Call} (hturn : t.idle ≤ u.start)
    (hgrow : (w.file t.idle).counters.sum < (w.file u.start).counters.sum) :
    (w.load (w.after t) u).Proper ↔ w.Covered t u := by
  rw [CpuLine.sum_counters, CpuLine.sum_counters] at hgrow
  have hle := w.total_le t
  have hidle : (w.file t.idle).idled ≤ (w.file u.start).idled := w.idled_mono hturn
  have hsum := w.idled_mono u.start_le.1
  have hsub := w.idled_mono u.sub_le_idle
  have hsumsub := w.idled_mono u.sum_le_sub
  have hstart := w.idled_mono u.start_le.2
  have hadd := w.idled_mono u.add_le_idle
  have hbusy := w.busy_mono u.start_le.1
  rw [Load.proper_iff]
  unfold load after Covered missed
  dsimp only
  unfold total at hle ⊢
  constructor
  · rintro ⟨-, hnum, -⟩
    omega
  · intro hcovered
    -- where no jiffy was idle since the call before, the sum has grown by the busy ones
    exact ⟨by omega, by omega, by omega⟩

/-- What calls return, one after the other. -/
def loads (w : Watch) : Processor → List Call → List Load
  | _, [] => []
  | p, c :: cs => w.load p c :: w.loads (w.after c) cs

lemma length_loads (p : Processor) (cs : List Call) : (w.loads p cs).length = cs.length := by
  induction cs generalizing p with
  | nil => rfl
  | cons c cs ih => simp [loads, ih]

lemma utilizations_eq_some {p : Processor} {cs : List Call} {ls : List Load} :
    p.utilizations (cs.map w.reads) = some ls ↔ w.AllFit p cs ∧ w.loads p cs = ls := by
  induction cs generalizing p ls with
  | nil => simp [Processor.utilizations, AllFit, loads]
  | cons c cs ih =>
    rw [List.map_cons, Processor.utilizations, AllFit, loads]
    simp only [Option.bind_eq_bind, Option.bind_eq_some_iff, Option.pure_def, Prod.exists,
      utilization_eq_some, ih, Option.some.injEq]
    constructor
    · rintro ⟨_, _, ⟨hfits, rfl, rfl⟩, _, ⟨hall, rfl⟩, rfl⟩
      exact ⟨⟨hfits, hall⟩, rfl⟩
    · rintro ⟨⟨hfits, hall⟩, rfl⟩
      exact ⟨_, _, ⟨hfits, rfl, rfl⟩, _, ⟨hall, rfl⟩, rfl⟩

/-- **A run of calls** after a call `t`. -/
lemma loads_proper_iff (t : Call) (cs : List Call)
    (hapart : (t :: cs).IsChain fun t u => t.idle ≤ u.start ∧
      (w.file t.idle).counters.sum < (w.file u.start).counters.sum) :
    (∀ l ∈ w.loads (w.after t) cs, l.Proper) ↔ (t :: cs).IsChain w.Covered := by
  induction cs generalizing t with
  | nil => simp [loads]
  | cons u cs ih =>
    obtain ⟨⟨hturn, hgrow⟩, hapart⟩ := List.isChain_cons_cons.mp hapart
    rw [loads, List.forall_mem_cons, w.proper_iff_covered hturn hgrow, ih u hapart,
      List.isChain_cons_cons]

/-- **The load is a proper fraction.** However the counters grow and wherever the reads of
the calls fall: every call returns, and all but the first return a proper load, exactly when the
sums of all calls fit into a `long` and the idle jiffies that each call misses are covered. -/
theorem loads_proper_iff_covered (p : Processor) :
    (∃ loads, p.utilizations (w.calls.map w.reads) = some loads ∧
      loads.length = w.calls.length ∧ ∀ l ∈ loads.tail, l.Proper) ↔
    w.AllFit p w.calls ∧ w.calls.IsChain w.Covered := by
  have hproper : (∀ l ∈ (w.loads p w.calls).tail, l.Proper) ↔ w.calls.IsChain w.Covered := by
    have hapart := w.apart
    cases hcalls : w.calls with
    | nil => simp [loads]
    | cons t cs =>
      rw [hcalls] at hapart
      exact w.loads_proper_iff t cs hapart
  simp only [utilizations_eq_some]
  constructor
  · rintro ⟨_, ⟨hfit, rfl⟩, -, hloads⟩
    exact ⟨hfit, hproper.mp hloads⟩
  · rintro ⟨hfit, hcovered⟩
    exact ⟨_, ⟨hfit, rfl⟩, w.length_loads p w.calls, hproper.mpr hcovered⟩

/-- Nothing is missed by calls during which the file stays as it is. -/
theorem covered_of_still {t u : Call} (hturn : t.idle ≤ u.start)
    (ht : ∀ n, t.start ≤ n → n ≤ t.idle → w.file n = w.file t.start)
    (hu : ∀ n, u.start ≤ n → n ≤ u.idle → w.file n = w.file u.start) : w.Covered t u := by
  have hmissed : ∀ c : Call, (∀ n, c.start ≤ n → n ≤ c.idle → w.file n = w.file c.start) →
      w.missed c = 0 := by
    intro c hc
    obtain ⟨hsum, hadd⟩ := c.start_le
    have hsub := c.sum_le_sub
    unfold missed
    rw [hc c.sum hsum (hsub.trans c.sub_le_idle), hc c.sub (hsum.trans hsub) c.sub_le_idle,
      hc c.add hadd c.add_le_idle, hc c.idle (hadd.trans c.add_le_idle) le_rfl]
    omega
  have hbusy := w.busy_mono ((t.sum_le_sub.trans t.sub_le_idle).trans
    (hturn.trans u.start_le.1))
  unfold Covered
  rw [hmissed t ht, hmissed u hu]
  omega

/-- Counters that are not negative and add up to little never leave a `long`. -/
theorem allFit_of_small (h : ∀ n, (∀ v ∈ (w.file n).counters, 0 ≤ v) ∧
    (w.file n).counters.sum < 2 ^ 61) (cs : List Call) : w.AllFit Processor.init cs := by
  have hidled : ∀ n, 0 ≤ (w.file n).idled ∧ 0 ≤ (w.file n).busy ∧
      (w.file n).busy + (w.file n).idled < 2 ^ 61 := by
    intro n
    obtain ⟨hnonneg, hsum⟩ := h n
    rw [CpuLine.sum_counters] at hsum
    simp only [CpuLine.counters, List.forall_mem_cons] at hnonneg
    obtain ⟨huser, hnice, hsystem, hidle, hiowait, hmore⟩ := hnonneg
    have hrest := List.sum_nonneg hmore
    unfold CpuLine.idled CpuLine.busy at *
    omega
  have hfit : ∀ n, SumsFit (w.file n).counters := by
    intro n q hq
    obtain ⟨hnonneg, hsum⟩ := h n
    obtain ⟨rest, hrest⟩ := (List.mem_inits _ _).mp hq
    rw [← hrest, List.sum_append] at hsum
    have hq0 : 0 ≤ q.sum := List.sum_nonneg fun v hv => hnonneg v (by simp [← hrest, hv])
    have hrest0 : 0 ≤ rest.sum := List.sum_nonneg fun v hv => hnonneg v (by simp [← hrest, hv])
    unfold IsLong
    omega
  -- what is remembered stays as small
  have hrun : ∀ p : Processor, (-2 ^ 61 ≤ p.prevtotal ∧ p.prevtotal < 2 ^ 62) →
      (0 ≤ p.previdle ∧ p.previdle < 2 ^ 61) → w.AllFit p cs := by
    induction cs with
    | nil => exact fun _ _ _ => trivial
    | cons c cs ih =>
      intro p htotal hidle
      have hsum := hidled c.sum
      have hsub := hidled c.sub
      have hadd := hidled c.add
      have hlast := hidled c.idle
      have hc : -2 ^ 61 ≤ w.total c ∧ w.total c < 2 ^ 62 := by
        unfold total
        omega
      have hidlec : (w.file c.idle).idled < 2 ^ 61 := by omega
      refine ⟨⟨hfit c.sum, ?_, ?_, ?_, ?_, ?_, ?_, ?_, ?_⟩, ih _ hc ⟨hlast.1, hidlec⟩⟩
      all_goals
        unfold IsLong
        omega
  exact hrun _ (by decide) (by decide)

end Watch

/-- Only idle jiffies pass, one before the second call begins to read and one while it
reads. -/
def lull : Watch where
  file n := .ofCounters 10 0 0 (10 + min n 2) 0 [] (by
    intro m hm
    simp only [List.mem_cons, List.not_mem_nil, or_false] at hm
    omega)
  counts m n h := by
    have hidle : ((10 + min m 2 : ℕ) : ℤ) ≤ ((10 + min n 2 : ℕ) : ℤ) := by omega
    exact .cons le_rfl (.cons le_rfl (.cons le_rfl (.cons hidle (.cons le_rfl .nil))))
  calls := [⟨.active, 0, 0, 0, 0, le_rfl, le_rfl, le_rfl, le_rfl⟩,
    ⟨.active, 1, 2, 2, 2, by decide, le_rfl, le_rfl, le_rfl⟩]
  apart := by decide

/-- The second call returns -1. -/
theorem lull_negative_load : ¬ ∃ loads,
    Processor.init.utilizations (lull.calls.map lull.reads) = some loads ∧
      loads.length = lull.calls.length ∧ ∀ l ∈ loads.tail, l.Proper := by
  rintro ⟨loads, hrun, -, hproper⟩
  obtain ⟨-, rfl⟩ := lull.utilizations_eq_some.mp hrun
  have hload : lull.loads Processor.init lull.calls = [⟨10, 20⟩, ⟨-1, 1⟩] := by decide
  rw [hload] at hproper
  have hnum := ((Load.proper_iff _).mp (hproper ⟨-1, 1⟩ (by simp))).2.1
  exact absurd hnum (by decide)

end SelfTraining.Monitor
