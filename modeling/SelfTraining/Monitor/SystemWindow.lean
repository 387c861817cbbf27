import SelfTraining.Monitor.Display

/-!
What the window of the system's figures shows after any number of turns.

Each text is printed over that of the turn before, and what is longer stands out behind it. The
bars are always of the same width, and totals and times only grow. The number of running
processes does not.
-/

namespace SelfTraining.Monitor.NCursesDisplay

open SelfTraining.Text SelfTraining.Stream SelfTraining.Steps SelfTraining.Painting
open SelfTraining.Painting.Drawing

/-! ### Texts of printable characters -/

lemma ascii_of_mem {s : Bytes}
    (h : ∀ c ∈ s, c = 45 ∨ c = 46 ∨ c = 58 ∨ (48 ≤ c.toNat ∧ c.toNat ≤ 57)) : Ascii s := by
  intro c hc
  rcases h c hc with rfl | rfl | rfl | ⟨hle, hle'⟩
  · decide
  · decide
  · decide
  · refine ⟨UInt8.le_iff_toNat_le.mpr ?_, UInt8.lt_iff_toNat_lt.mpr ?_⟩
    · exact le_trans (by decide) hle
    · exact lt_of_le_of_lt hle' (by decide)

lemma ascii_decimal (v : ℤ) : Ascii (decimal v) := ascii_of_mem fun c hc => by
  rcases mem_decimal hc with h | h
  · exact .inl h
  · exact .inr (.inr (.inr h))

lemma ascii_percent {l : Load} (h : l.den ≠ 0) : Ascii l.percent := ascii_of_mem fun c hc => by
  unfold Load.percent at hc
  rw [if_neg h] at hc
  rcases Single.mem_fixed hc with h | h | h
  · exact .inl h
  · exact .inr (.inl h)
  · exact .inr (.inr (.inr h))

lemma elapsedTime_eq (seconds : Int64) : Format.elapsedTime seconds =
    Format.clock (Format.hrs seconds).toInt (Format.mins seconds).toInt
      (seconds % 60).toInt32.toInt := Format.cstr_clock _ _ _

lemma ascii_elapsedTime (seconds : Int64) : Ascii (Format.elapsedTime seconds) := by
  have hnum : ∀ v, Ascii (Format.twoDigits v) := fun v => ascii_of_mem fun c hc => by
    rcases Format.mem_twoDigits hc with h | h
    · exact .inl h
    · exact .inr (.inr (.inr h))
  have hcolon : Ascii [58] := by decide
  rw [elapsedTime_eq]
  exact (hnum _).append (hcolon.append ((hnum _).append (hcolon.append (hnum _))))

lemma progressBar_eq (l : Load) : ∃ bars display, progressBar l =
    bytes "0%" ++ bars ++ bytes " " ++ display ++ bytes "/100%" ∧
      bars.length = 50 ∧ Ascii bars ∧
      display = if l.short then bytes " " ++ l.percent.take 3 else l.percent.take 4 := by
  have hfold : ∀ (is : List ℕ) (start : Bytes),
      is.foldl (fun result i => result ++ [if l.reaches i then 124 else 32]) start =
        start ++ is.map fun i => if l.reaches i then (124 : UInt8) else 32 := by
    intro is
    induction is with
    | nil => simp
    | cons i is ih =>
      intro start
      rw [List.foldl_cons, ih, List.map_cons, List.append_assoc, List.singleton_append]
  refine ⟨(List.range 50).map fun i => if l.reaches i then (124 : UInt8) else 32, _, ?_, ?_, ?_,
    rfl⟩
  · unfold progressBar
    rw [hfold]
  · rw [List.length_map, List.length_range]
  · intro c hc
    obtain ⟨i, -, rfl⟩ := List.mem_map.mp hc
    split
    · decide
    · decide

lemma ascii_progressBar {l : Load} (h : l.den ≠ 0) : Ascii (progressBar l) := by
  obtain ⟨bars, display, heq, -, hbars, hdisplay⟩ := progressBar_eq l
  have hconst : Ascii (bytes "0%") ∧ Ascii (bytes " ") ∧ Ascii (bytes "/100%") := by decide
  have htake : ∀ k, Ascii (l.percent.take k) := fun k c hc =>
    ascii_percent h c (List.mem_of_mem_take hc)
  have hshown : Ascii display := by
    rw [hdisplay]
    split
    · exact hconst.2.1.append (htake 3)
    · exact htake 4
  rw [heq]
  exact (((hconst.1.append hbars).append hconst.2.1).append hshown).append hconst.2.2

/-! ### Widths -/

lemma length_progressBar {l : Load} (h : l.den ≠ 0) : (progressBar l).length = 62 := by
  obtain ⟨bars, display, heq, hbars, -, hdisplay⟩ := progressBar_eq l
  have hconst : (bytes "0%").length = 2 ∧ (bytes " ").length = 1 ∧ (bytes "/100%").length = 5 :=
    ⟨rfl, rfl, rfl⟩
  have hpercent : 8 ≤ l.percent.length := by
    unfold Load.percent
    rw [if_neg h]
    exact Single.eight_le_length_fixed _ _
  have hfour : display.length = 4 := by
    rw [hdisplay]
    split
    · rw [List.length_append, hconst.2.1, List.length_take]
      omega
    · rw [List.length_take]
      omega
  rw [heq]
  simp only [List.length_append, hconst, hbars, hfour]

lemma length_decimal_le {v : ℤ} (h : -2 ^ 31 ≤ v ∧ v < 2 ^ 31) : (decimal v).length ≤ 11 := by
  have hv : (Int32.ofInt v).toInt = v := Int32.toInt_ofInt_of_le h.1 h.2
  exact hv ▸ Format.length_decimal_le (Int32.ofInt v)

lemma length_elapsedTime_le (seconds : Int64) : (Format.elapsedTime seconds).length ≤ 38 := by
  have h := Format.length_twoDigits_le (Format.hrs seconds)
  have m := Format.length_twoDigits_le (Format.mins seconds)
  have s := Format.length_twoDigits_le (seconds % 60).toInt32
  rw [elapsedTime_eq, Format.clock, List.length_append, List.length_cons, List.length_append,
    List.length_cons]
  omega

lemma length_decimal_mono {v w : ℤ} (h0 : 0 ≤ v) (h : v ≤ w) :
    (decimal v).length ≤ (decimal w).length := by
  have hdigits : ∀ {m n : ℕ}, m ≤ n → (digits m).length ≤ (digits n).length := by
    intro m n hmn
    by_cases hm : m = 0
    · subst hm
      exact List.length_pos_of_ne_nil (digits_ne_nil n)
    · unfold digits
      rw [if_neg hm, if_neg (by omega), List.length_map, List.length_map, List.length_reverse,
        List.length_reverse]
      exact Nat.le_length_digits_le 10 m n hmn
  unfold decimal
  rw [if_neg (by omega), if_neg (by omega)]
  exact hdigits (by omega)

lemma length_twoDigits {v : ℤ} (h0 : 0 ≤ v) (h : v < 60) : (Format.twoDigits v).length = 2 := by
  interval_cases v <;> rfl

lemma length_twoDigits_mono {v w : ℤ} (h0 : 0 ≤ v) (h : v ≤ w) :
    (Format.twoDigits v).length ≤ (Format.twoDigits w).length := by
  by_cases hw : w < 60
  · rw [length_twoDigits h0 (by omega), length_twoDigits (by omega) hw]
  · have hten : (decimal 10).length = 2 := rfl
    have hlong : Format.twoDigits w = decimal w := if_neg (by omega)
    by_cases hv : v < 60
    · rw [length_twoDigits h0 hv, hlong, ← hten]
      exact length_decimal_mono (by omega) (by omega)
    · have hlong' : Format.twoDigits v = decimal v := if_neg (by omega)
      rw [hlong, hlong']
      exact length_decimal_mono h0 h

lemma length_elapsedTime_mono {t u : ℤ} (h0 : 0 ≤ t) (h : t ≤ u) (hu : u < 2 ^ 31) :
    (Format.elapsedTime (.ofInt t)).length ≤ (Format.elapsedTime (.ofInt u)).length := by
  have hlength : ∀ v : ℤ, 0 ≤ v → v < 2 ^ 31 → (Format.elapsedTime (.ofInt v)).length =
      (Format.twoDigits (v / 3600)).length + 6 := by
    intro v hv hv'
    have hint : (Int64.ofInt v).toInt = v := Int64.toInt_ofInt_of_le (by omega) (by omega)
    have hnonneg : 0 ≤ (Int64.ofInt v).toInt := by omega
    have hfit : (Int64.ofInt v).toInt / 3600 < 2 ^ 31 := by omega
    have hmins : (Format.mins (.ofInt v)).toInt = v % 3600 / 60 := by
      have hwraps : Format.wraps (3600 * (v / 3600)) = 0 := by
        unfold Format.wraps
        omega
      rw [Format.mins_eq hnonneg hfit, hint]
      exact (Format.bmod_minutes_iff (by omega) (by omega)).mpr (by rw [hwraps, Int.zero_emod])
    rw [elapsedTime_eq, Format.hrs_eq hnonneg hfit, Format.secs_eq hnonneg, hmins, hint,
      Format.clock, List.length_append, List.length_cons, List.length_append, List.length_cons,
      length_twoDigits (v := v % 3600 / 60) (by omega) (by omega),
      length_twoDigits (v := v % 60) (by omega) (by omega)]
  rw [hlength t h0 (by omega), hlength u (by omega) hu]
  exact Nat.add_le_add_right (length_twoDigits_mono (by omega) (by omega)) 6

/-! ### Turns -/

section Turns

variable {cols n : ℕ} {D : Drawing 9 cols} {E : Drawing (3 + n) cols} {hertz : ℤ}
  {stof : Bytes → Option ℚ} {es : List Shown} {e : Shown} {s : Screen D E}

/-- On a wide window, the turns show one system with a name that goes into it, whose total and
uptime have not been greater than they are now; no load has been divided by zero. -/
structure Steady (cols : ℕ) (es : List Shown) (e : Shown) : Prop where
  wide : 73 ≤ cols
  system : ∀ e' ∈ es, e'.facts.operatingSystem = e.facts.operatingSystem ∧
    e'.facts.kernel = e.facts.kernel
  ascii : Ascii e.facts.operatingSystem ∧ Ascii e.facts.kernel
  operatingSystem_le : e.facts.operatingSystem.length + 6 ≤ cols
  kernel_le : e.facts.kernel.length + 10 ≤ cols
  total : ∀ e' ∈ es, 0 ≤ e'.facts.total ∧ e'.facts.total ≤ e.facts.total
  upTime : ∀ e' ∈ es, 0 ≤ e'.facts.upTime ∧ e'.facts.upTime ≤ e.facts.upTime
  upTime_lt : e.facts.upTime < 2 ^ 31
  divided : ∀ e' ∈ es ++ [e], e'.facts.cpu.den ≠ 0 ∧ e'.facts.memory.den ≠ 0

lemma facts_int {snap : Snapshot} {t t' : System} {f : Facts}
    (h : t.facts stof snap = some (f, t')) :
    (-2 ^ 31 ≤ f.total ∧ f.total < 2 ^ 31) ∧ -2 ^ 31 ≤ f.running ∧ f.running < 2 ^ 31 := by
  unfold System.facts at h
  simp only [Option.bind_eq_bind, Option.bind_eq_some_iff, Option.pure_def] at h
  obtain ⟨load, -, total, htotal, running, hrunning, upTime, -, h⟩ := h
  cases h
  exact ⟨LinuxParser.procCount_int htotal, LinuxParser.procCount_int hrunning⟩

lemma length_counts_le (hrun : Trace (Turn D E hertz stof) (Screen.init D E) es s) :
    ∀ e ∈ es, (decimal e.facts.total).length ≤ 11 ∧ (decimal e.facts.running).length ≤ 11 := by
  intro e he
  obtain ⟨before, after, rfl⟩ := List.append_of_mem he
  obtain ⟨t, t', -, hturn⟩ := hrun.step_at
  obtain ⟨system, hfacts, -⟩ := hturn.reads
  obtain ⟨htotal, hrunning⟩ := facts_int hfacts
  exact ⟨length_decimal_le htotal, length_decimal_le hrunning⟩

lemma Steady.fits (h : Steady cols es e)
    (hrun : Trace (Turn D E hertz stof) (Screen.init D E) (es ++ [e]) s) :
    ∀ e' ∈ es ++ [e], ∀ p ∈ systemPrints e'.facts, D.Fits p := by
  intro e' he'
  obtain ⟨htotal_le, hrunning_le⟩ := length_counts_le hrun e' he'
  have hsystem : e'.facts.operatingSystem = e.facts.operatingSystem ∧
      e'.facts.kernel = e.facts.kernel := by
    rcases List.mem_append.mp he' with he' | he'
    · exact h.system e' he'
    · obtain rfl := List.mem_singleton.mp he'
      exact ⟨rfl, rfl⟩
  obtain ⟨hcpu, hmemory⟩ := h.divided e' he'
  have hwide := h.wide
  have hos := h.operatingSystem_le
  have hkernel := h.kernel_le
  have hup_le := length_elapsedTime_le (.ofInt e'.facts.upTime)
  have hcpu_len := length_progressBar hcpu
  have hmemory_len := length_progressBar hmemory
  have hlengths : (bytes "OS: ").length = 4 ∧ (bytes "Kernel: ").length = 8 ∧
      (bytes "CPU: ").length = 5 ∧ (bytes "Memory: ").length = 8 ∧
      (bytes "Total Processes: ").length = 17 ∧ (bytes "Running Processes: ").length = 19 ∧
      (bytes "Up Time: ").length = 9 := ⟨rfl, rfl, rfl, rfl, rfl, rfl, rfl⟩
  obtain ⟨h₁, h₂, h₃, h₄, h₅, h₆, h₇⟩ := hlengths
  have hconst : Ascii (bytes "OS: ") ∧ Ascii (bytes "Kernel: ") ∧ Ascii (bytes "CPU: ") ∧
      Ascii (bytes "Memory: ") ∧ Ascii (bytes "Total Processes: ") ∧
      Ascii (bytes "Running Processes: ") ∧ Ascii (bytes "Up Time: ") := by decide
  obtain ⟨a₁, a₂, a₃, a₄, a₅, a₆, a₇⟩ := hconst
  unfold systemPrints
  rw [hsystem.1, hsystem.2]
  simp only [List.forall_mem_cons, List.not_mem_nil, false_imp_iff, implies_true, and_true]
  refine ⟨a₁.fits_append h.ascii.1 ?_ ?_ ?_, a₂.fits_append h.ascii.2 ?_ ?_ ?_, a₃.fits ?_ ?_ ?_,
    (ascii_progressBar hcpu).fits ?_ ?_ ?_, a₄.fits ?_ ?_ ?_,
    (ascii_progressBar hmemory).fits ?_ ?_ ?_, a₅.fits_append (ascii_decimal _) ?_ ?_ ?_,
    a₆.fits_append (ascii_decimal _) ?_ ?_ ?_, a₇.fits_append (ascii_elapsedTime _) ?_ ?_ ?_⟩ <;>
  omega

/-- The last turn covers a turn before it, if its number of running processes is no shorter. -/
lemma Steady.covers (h : Steady cols es e) {e' : Shown} (he' : e' ∈ es)
    (hrunning : (decimal e'.facts.running).length ≤ (decimal e.facts.running).length) :
    List.Forall₂ Print.Covers (systemPrints e.facts) (systemPrints e'.facts) := by
  obtain ⟨hos, hkernel⟩ := h.system e' he'
  obtain ⟨hcpu, hmemory⟩ := h.divided e (by simp)
  obtain ⟨hcpu', hmemory'⟩ := h.divided e' (by simp [he'])
  obtain ⟨htotal, htotal_le⟩ := h.total e' he'
  obtain ⟨hup, hup_le⟩ := h.upTime e' he'
  have hbar : ∀ {l l' : Load}, l.den ≠ 0 → l'.den ≠ 0 →
      (cstr (progressBar l')).length ≤ (cstr (progressBar l)).length := by
    intro l l' hl hl'
    rw [(ascii_progressBar hl).cstr_eq, (ascii_progressBar hl').cstr_eq, length_progressBar hl,
      length_progressBar hl']
  have hbehind : ∀ {a t t' : Bytes}, Ascii a → Ascii t → Ascii t' → t'.length ≤ t.length →
      (cstr (a ++ t')).length ≤ (cstr (a ++ t)).length := by
    intro a t t' ha ht ht' hle
    rw [(ha.append ht).cstr_eq, (ha.append ht').cstr_eq, List.length_append, List.length_append]
    omega
  have hcovers : ∀ {row col : ℕ} {t t' : Bytes}, (cstr t').length ≤ (cstr t).length →
      Print.Covers ⟨row, col, cstr t⟩ ⟨row, col, cstr t'⟩ := fun h => ⟨rfl, rfl, h⟩
  have htotal_cstr := hbehind (a := bytes "Total Processes: ") (by decide) (ascii_decimal _)
    (ascii_decimal _) (length_decimal_mono htotal htotal_le)
  have hrunning_cstr := hbehind (a := bytes "Running Processes: ") (by decide) (ascii_decimal _)
    (ascii_decimal _) hrunning
  have hup_cstr := hbehind (a := bytes "Up Time: ") (by decide) (ascii_elapsedTime _)
    (ascii_elapsedTime _) (length_elapsedTime_mono hup hup_le h.upTime_lt)
  unfold systemPrints
  rw [hos, hkernel]
  exact .cons (hcovers le_rfl) (.cons (hcovers le_rfl) (.cons (hcovers le_rfl)
    (.cons (hcovers (hbar hcpu hcpu')) (.cons (hcovers le_rfl)
    (.cons (hcovers (hbar hmemory hmemory')) (.cons (hcovers htotal_cstr)
    (.cons (hcovers hrunning_cstr) (.cons (hcovers hup_cstr) .nil))))))))

lemma mem_systemPrints {f : Facts} {p : Print} (hp : p ∈ systemPrints f) (hrow : p.row = 6) :
    p = ⟨6, 2, bytes "Running Processes: " ++ decimal f.running⟩ := by
  have hascii : Ascii (bytes "Running Processes: ") := by decide
  have hcstr := (hascii.append (ascii_decimal f.running)).cstr_eq
  simp only [systemPrints, List.mem_cons, List.not_mem_nil, or_false] at hp
  rw [← hcstr]
  rcases hp with rfl | rfl | rfl | rfl | rfl | rfl | rfl | rfl | rfl
  all_goals first
    | rfl
    | exact absurd hrow (by simp)

lemma running_mem (f : Facts) :
    ⟨6, 2, bytes "Running Processes: " ++ decimal f.running⟩ ∈ systemPrints f := by
  have hascii : Ascii (bytes "Running Processes: ") := by decide
  have hcstr := (hascii.append (ascii_decimal f.running)).cstr_eq
  simp [systemPrints, hcstr]

lemma ne_blank_of_stroke {f : Facts} {p : Print} (hp : p ∈ systemPrints f) {x : ℕ} {c : UInt8}
    (hx : 21 ≤ x) (hc : p.stroke (6, x) = some c) : c ≠ 32 := by
  have hrow : p.row = 6 := by
    by_contra hne
    rw [Print.stroke_eq_none.mpr fun h => absurd h.symm hne] at hc
    cases hc
  have hlen : (bytes "Running Processes: ").length = 19 := rfl
  rw [mem_systemPrints hp hrow] at hc
  unfold Print.stroke at hc
  rw [if_pos ⟨rfl, by dsimp only; omega⟩] at hc
  rw [List.getElem?_append_right (by dsimp only; omega)] at hc
  rintro rfl
  rcases mem_decimal (List.mem_of_getElem? hc) with h | ⟨h, -⟩
  · exact absurd h (by decide)
  · exact absurd h (by decide)

/-- **What the window of the system's figures shows.** After any number of turns in which the
system keeps its name and total and uptime do not go back, it shows the figures of the last turn
and nothing else if and only if no turn before has shown a number of running processes with more
digits. -/
theorem system_window_current_iff (h : Steady cols es e)
    (hrun : Trace (Turn D E hertz stof) (Screen.init D E) (es ++ [e]) s) :
    D.Same s.systemWindow (displaySystem D e.facts (D.box D.newwin)) ↔
      ∀ e' ∈ es, (decimal e'.facts.running).length ≤ (decimal e.facts.running).length := by
  have hfits := h.fits hrun
  have hpainted := painted_systemWindow hfits hrun
  rw [List.flatMap_append, List.flatMap_singleton] at hpainted
  have hfresh : D.Painted D.newwin (displaySystem D e.facts (D.box D.newwin))
      (systemPrints e.facts) :=
    (painted_box D.newwin).trans (painted_displaySystem _ _ (hfits e (by simp)))
  rw [same_iff hpainted hfresh]
  constructor
  · intro hcells e' he'
    by_contra hlonger
    -- the first cell behind the number of the last turn
    have hlen : (bytes "Running Processes: ").length = 19 := rfl
    have hle := (length_counts_le hrun e (by simp)).2
    have hwide := h.wide
    have hinside : Inside 9 cols (6, 21 + (decimal e.facts.running).length) := by
      refine ⟨?_, ?_, ?_, ?_⟩ <;> dsimp only <;> omega
    have hnone :
        texts (systemPrints e.facts) (6, 21 + (decimal e.facts.running).length) = none := by
      refine texts_eq_none.mpr fun p hp => Print.stroke_eq_none.mpr fun hrow hcol => ?_
      obtain rfl := mem_systemPrints hp hrow.symm
      dsimp only
      rw [List.length_append, hlen]
      omega
    have hsome : texts (es.flatMap fun e => systemPrints e.facts)
        (6, 21 + (decimal e.facts.running).length) ≠ none := by
      intro hnone'
      have hmem : ⟨6, 2, bytes "Running Processes: " ++ decimal e'.facts.running⟩ ∈
          es.flatMap fun e => systemPrints e.facts :=
        List.mem_flatMap.mpr ⟨e', he', running_mem e'.facts⟩
      have hend :=
        Print.stroke_eq_none.mp (texts_eq_none.mp hnone' _ hmem) rfl (by dsimp only; omega)
      dsimp only at hend
      rw [List.length_append, hlen] at hend
      omega
    obtain ⟨c, hc⟩ := Option.ne_none_iff_exists'.mp hsome
    obtain ⟨p, hp, hshown⟩ := exists_of_texts hc
    obtain ⟨e'', -, hp⟩ := List.mem_flatMap.mp hp
    exact ne_blank_of_stroke hp (by omega) hshown (hcells _ hinside hnone c hc)
  · intro hrunning i hi hnone c hc
    have hcovers : ∀ q ∈ es.flatMap fun e => systemPrints e.facts,
        ∃ p ∈ systemPrints e.facts, p.Covers q := by
      intro q hq
      obtain ⟨e', he', hq⟩ := List.mem_flatMap.mp hq
      exact exists_covers (h.covers he' (hrunning e' he')) q hq
    rw [texts_eq_none_of_covers hcovers hnone] at hc
    cases hc

end Turns

/-- A turn that finds nothing but these counters. -/
def counted (stat : Bytes) : Snapshot where
  osRelease := none
  version := none
  cpu := ⟨stat, stat, stat, stat⟩
  unset := 0
  meminfo := none
  statTotal := some stat
  statRunning := some stat
  uptime := none
  directory := []
  files _ := ⟨none, none, none, none, none⟩

/-- Twelve processes run. -/
def twelve : Shown where
  snap := counted (bytes "cpu 1 1 1 1 1\nprocesses 40\nprocs_running 12\n")
  facts := ⟨[], [], ⟨3, 5⟩, ⟨0, 1⟩, 40, 12, 0⟩
  processes := []

/-- Then three do. -/
def three : Shown where
  snap := counted (bytes "cpu 6 1 1 1 1\nprocesses 40\nprocs_running 3\n")
  facts := ⟨[], [], ⟨5, 5⟩, ⟨0, 1⟩, 40, 3, 0⟩
  processes := []

lemma turn_of_facts {cols n : ℕ} {D : Drawing 9 cols} {E : Drawing (3 + n) cols} {e : Shown}
    {s : Screen D E} {system : System} (hdir : e.snap.directory = []) (hnone : e.processes = [])
    (hfacts : s.system.facts shell.stof e.snap = some (e.facts, system)) :
    Turn D E 100 shell.stof e s ⟨{ system with processes := [] },
      displaySystem D e.facts (D.box s.systemWindow),
      displayProcesses E e.processes n (E.box s.processWindow)⟩ where
  reads := by
    refine ⟨system, hfacts, rfl, [], ?_, by simp, List.Perm.nil, .nil⟩
    unfold System.construct
    rw [hdir]
    rfl
  processes_eq := hnone
  systemWindow_eq := rfl
  processWindow_eq := rfl

lemma steady_three : Steady 80 [twelve] three where
  wide := by omega
  system e' he' := by
    obtain rfl := List.mem_singleton.mp he'
    exact ⟨rfl, rfl⟩
  ascii := by decide
  operatingSystem_le := by decide
  kernel_le := by decide
  total e' he' := by
    obtain rfl := List.mem_singleton.mp he'
    decide
  upTime e' he' := by
    obtain rfl := List.mem_singleton.mp he'
    decide
  upTime_lt := by decide
  divided e' he' := by
    rcases List.mem_cons.mp he' with rfl | he'
    · decide
    · obtain rfl := List.mem_singleton.mp he'
      decide

/-- Windows of 80 columns. -/
def wide (lines : ℕ) : Drawing lines 80 := plainDrawing lines 80 (by omega)

/-- What is left of the twelve makes thirty-two out of the three. -/
theorem system_window_not_current : ∃ s : Screen (wide 9) (wide (3 + 10)),
    Trace (Turn (wide 9) (wide (3 + 10)) 100 shell.stof) (Screen.init _ _) [twelve, three] s ∧
    ¬ (wide 9).Same s.systemWindow
      (displaySystem _ three.facts ((wide 9).box (wide 9).newwin)) := by
  have htwelve : System.init.facts shell.stof twelve.snap =
      some (twelve.facts, ⟨⟨5, 2⟩, []⟩) := by decide +kernel
  have hthree : (⟨⟨5, 2⟩, []⟩ : System).facts shell.stof three.snap =
      some (three.facts, ⟨⟨10, 2⟩, []⟩) := by decide +kernel
  have hrun := Trace.snoc (Trace.snoc Trace.nil
    (turn_of_facts (D := wide 9) (E := wide (3 + 10)) (e := twelve) (s := Screen.init _ _)
      rfl rfl htwelve)) (turn_of_facts (e := three) rfl rfl hthree)
  refine ⟨_, hrun, fun hsame => ?_⟩
  have hcurrent := (system_window_current_iff steady_three hrun).mp hsame twelve (by simp)
  exact absurd hcurrent (by decide)

end SelfTraining.Monitor.NCursesDisplay
