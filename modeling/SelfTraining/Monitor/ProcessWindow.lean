import SelfTraining.Monitor.SystemWindow

/-!
What the window of the processes shows after any number of turns.

A row is printed by the turns that have a process for it, and by no others: where the processes
become fewer, the rows of those that were shown before stay. In a row that is printed again, what
is longer stands out behind what is shorter.
-/

namespace SelfTraining.Monitor.NCursesDisplay

open SelfTraining.Text SelfTraining.Stream SelfTraining.Steps SelfTraining.Painting
open SelfTraining.Painting.Drawing

/-- The texts that turns have printed into the row of the process with number `i`. -/
def rowsOf (cols i : ℕ) (es : List Shown) : List Print :=
  es.flatMap fun e => e.processes[i]?.toList.flatMap (rowPrints cols i)

/-! ### Rows -/

section Rows

variable {cols i y x : ℕ}

lemma row_of_rowPrints {p : Process} : ∀ q ∈ rowPrints cols i p, q.row = i + 2 := by
  simp [rowPrints]

lemma rowPrints_eq_none (p : Process) (h : y ≠ i + 2) : texts (rowPrints cols i p) (y, x) = none :=
  texts_eq_none.mpr fun q hq =>
    Print.stroke_eq_none.mpr fun hrow => absurd (hrow.trans (row_of_rowPrints q hq)) h

lemma headPrints_eq_none (h : y ≠ 1) : texts headPrints (y, x) = none := by
  refine texts_eq_none.mpr fun q hq => Print.stroke_eq_none.mpr fun hrow => absurd hrow ?_
  have hone : ∀ q ∈ headPrints, q.row = 1 := by simp [headPrints]
  rw [hone q hq]
  exact h

lemma texts_zipIdx (l : List Process) :
    texts (l.zipIdx.flatMap fun e => rowPrints cols e.2 e.1) (i + 2, x) =
      texts (l[i]?.toList.flatMap (rowPrints cols i)) (i + 2, x) := by
  induction l using List.reverseRecOn with
  | nil => rfl
  | append_singleton l p ih =>
    rw [List.zipIdx_append, Nat.zero_add, List.flatMap_append, texts_append, ih]
    by_cases hi : i = l.length
    · subst hi
      simp [texts, joined]
    · have hrow : texts (([p].zipIdx l.length).flatMap fun e => rowPrints cols e.2 e.1)
          (i + 2, x) = none := by
        simpa using rowPrints_eq_none p (by omega)
      have hget : (l ++ [p])[i]? = l[i]? := by
        rcases Nat.lt_or_ge i l.length with h | h
        · exact List.getElem?_append_left h
        · rw [List.getElem?_append_right h, List.getElem?_eq_none h,
            List.getElem?_eq_none (by simp; omega)]
      rw [hrow, hget, Option.none_or]

lemma texts_turn {n : ℕ} (processes : List Process) (hi : i < n) :
    texts (headPrints ++ tablePrints cols n processes) (i + 2, x) =
      texts (processes[i]?.toList.flatMap (rowPrints cols i)) (i + 2, x) := by
  unfold tablePrints
  rw [texts_append, headPrints_eq_none (by omega), Option.or_none, texts_zipIdx,
    List.getElem?_take_of_lt hi]

lemma stroke_pid {p : Process} {q : Print} (hq : q ∈ rowPrints cols i p) {c : UInt8}
    (hc : q.stroke (i + 2, 2) = some c) : c ≠ 32 := by
  have hpid : q = ⟨i + 2, 2, cstr (decimal p.pid)⟩ := by
    simp only [rowPrints, List.mem_cons, List.not_mem_nil, or_false] at hq
    rcases hq with rfl | rfl | rfl | rfl | rfl | rfl
    · rfl
    all_goals
      rw [Print.stroke_eq_none.mpr fun _ h => absurd h (by simp)] at hc
      cases hc
  subst hpid
  have hmem := Print.mem_of_stroke hc
  rw [(ascii_decimal p.pid).cstr_eq] at hmem
  rintro rfl
  rcases mem_decimal hmem with h | ⟨h, -⟩
  · exact absurd h (by decide)
  · exact absurd h (by decide)

lemma texts_pid (p : Process) : texts (rowPrints cols i p) (i + 2, 2) ≠ none := by
  intro hnone
  have hmem : ⟨i + 2, 2, cstr (decimal p.pid)⟩ ∈ rowPrints cols i p := by simp [rowPrints]
  have hend := Print.stroke_eq_none.mp (texts_eq_none.mp hnone _ hmem) rfl le_rfl
  have hpos := List.length_pos_of_ne_nil (decimal_ne_nil p.pid)
  dsimp only at hend
  rw [(ascii_decimal p.pid).cstr_eq] at hend
  omega

variable {es : List Shown} {e : Shown}

lemma texts_rowsOf_pid (he : e ∈ es) (hi : i < e.processes.length) :
    texts (rowsOf cols i es) (i + 2, 2) ≠ none := by
  intro hnone
  have hrow : texts (rowPrints cols i e.processes[i]) (i + 2, 2) = none := by
    refine texts_eq_none.mpr fun q hq => ?_
    refine texts_eq_none.mp hnone q (List.mem_flatMap.mpr ⟨e, he, ?_⟩)
    rw [List.getElem?_eq_getElem hi]
    simpa using hq
  exact texts_pid _ hrow

lemma ne_blank_of_rowsOf {c : UInt8} (hc : texts (rowsOf cols i es) (i + 2, 2) = some c) :
    c ≠ 32 := by
  obtain ⟨q, hq, hshown⟩ := exists_of_texts hc
  obtain ⟨e, -, hq⟩ := List.mem_flatMap.mp hq
  obtain ⟨p, -, hq⟩ := List.mem_flatMap.mp hq
  exact stroke_pid hq hshown

end Rows

/-! ### Turns -/

section Turns

variable {cols n : ℕ} {D : Drawing 9 cols} {E : Drawing (3 + n) cols} {hertz : ℤ}
  {stof : Bytes → Option ℚ} {es : List Shown} {e : Shown} {s t : Screen D E}

lemma headPrints_fits (hcols : 53 ≤ cols) : ∀ q ∈ headPrints, E.Fits q := by
  have hlengths : (bytes "PID").length = 3 ∧ (bytes "USER").length = 4 ∧
      (bytes "CPU[%]").length = 6 ∧ (bytes "RAM[MB]").length = 7 ∧ (bytes "TIME+").length = 5 ∧
      (bytes "COMMAND").length = 7 := ⟨rfl, rfl, rfl, rfl, rfl, rfl⟩
  obtain ⟨h₁, h₂, h₃, h₄, h₅, h₆⟩ := hlengths
  have hascii : Ascii (bytes "PID") ∧ Ascii (bytes "USER") ∧ Ascii (bytes "CPU[%]") ∧
      Ascii (bytes "RAM[MB]") ∧ Ascii (bytes "TIME+") ∧ Ascii (bytes "COMMAND") := by decide
  obtain ⟨a₁, a₂, a₃, a₄, a₅, a₆⟩ := hascii
  unfold headPrints
  simp only [List.forall_mem_cons, List.not_mem_nil, false_imp_iff, implies_true, and_true]
  refine ⟨a₁.fits ?_ ?_ ?_, a₂.fits ?_ ?_ ?_, a₃.fits ?_ ?_ ?_, a₄.fits ?_ ?_ ?_,
    a₅.fits ?_ ?_ ?_, a₆.fits ?_ ?_ ?_⟩ <;> omega

lemma texts_turns {i x : ℕ} (hi : i < n) :
    texts (es.flatMap fun e => headPrints ++ tablePrints cols n e.processes) (i + 2, x) =
      texts (rowsOf cols i es) (i + 2, x) :=
  texts_flatMap_congr fun e _ => texts_turn e.processes hi

lemma texts_head {x : ℕ} (processes : List Process) (h : texts headPrints (1, x) = none) :
    texts (headPrints ++ tablePrints cols n processes) (1, x) = none := by
  rw [texts_append, h, Option.or_none]
  refine texts_eq_none.mpr fun q hq => Print.stroke_eq_none.mpr fun hrow => ?_
  obtain ⟨p, -, hq⟩ := List.mem_flatMap.mp hq
  have hrow' := row_of_rowPrints q hq
  omega

/-- **What the window of the processes shows**, where the texts of all turns go into it. After a
turn with fewer processes than rows, the other rows show what they have shown before. The window
shows the processes of the last turn and nothing else if and only if no turn before has shown
more, and no text that a row has had before stands out behind the texts that it has now. -/
theorem process_window (hcols : 53 ≤ cols)
    (hfits : ∀ e' ∈ es ++ [e], ∀ p ∈ tablePrints cols n e'.processes, E.Fits p)
    (hrun : Trace (Turn D E hertz stof) (Screen.init D E) es s)
    (hturn : Turn D E hertz stof e s t) :
    (∀ i < n, e.processes.length ≤ i → ∀ x, Inside (3 + n) cols (i + 2, x) →
      E.cell t.processWindow (i + 2, x) = E.cell s.processWindow (i + 2, x)) ∧
    (E.Same t.processWindow (displayProcesses E e.processes n (E.box E.newwin)) ↔
      (∀ e' ∈ es, min n e'.processes.length ≤ min n e.processes.length) ∧
      ∀ i p, i < n → e.processes[i]? = some p → ∀ x, Inside (3 + n) cols (i + 2, x) →
        texts (rowPrints cols i p) (i + 2, x) = none →
          ∀ c, texts (rowsOf cols i es) (i + 2, x) = some c → c = 32) := by
  have hhead := headPrints_fits (E := E) hcols
  have hpainted := painted_processWindow hhead hfits (hrun.snoc hturn)
  rw [List.flatMap_append, List.flatMap_singleton] at hpainted
  have hbefore := painted_processWindow hhead (fun e' he' => hfits e' (by simp [he'])) hrun
  have hlast := painted_displayProcesses e.processes n (E.box E.newwin) hhead (hfits e (by simp))
  have hfresh := (painted_box E.newwin).trans hlast
  constructor
  · intro i hi hlen x hinside
    have hnone : texts (headPrints ++ tablePrints cols n e.processes) (i + 2, x) = none := by
      rw [texts_turn e.processes hi, List.getElem?_eq_none hlen]
      rfl
    rw [hpainted.cell_eq hinside, hbefore.cell_eq hinside, texts_append, hnone, Option.none_or]
  · rw [same_iff hpainted hfresh]
    constructor
    · intro hcells
      refine ⟨fun e' he' => ?_, fun i p hi hp x hinside hnone c hc => ?_⟩
      · by_contra hmore
        -- the first row that has no process any more
        obtain ⟨i, hi, hgone, hhad⟩ : ∃ i < n, e.processes.length ≤ i ∧ i < e'.processes.length :=
          ⟨e.processes.length, by omega, le_rfl, by omega⟩
        have hinside : Inside (3 + n) cols (i + 2, 2) := by
          refine ⟨?_, ?_, ?_, ?_⟩ <;> dsimp only <;> omega
        have hnone : texts (headPrints ++ tablePrints cols n e.processes) (i + 2, 2) = none := by
          rw [texts_turn e.processes hi, List.getElem?_eq_none hgone]
          rfl
        have hshown : texts (rowsOf cols i es) (i + 2, 2) ≠ none := texts_rowsOf_pid he' hhad
        obtain ⟨c, hc⟩ := Option.ne_none_iff_exists'.mp hshown
        exact ne_blank_of_rowsOf hc (hcells _ hinside hnone c (by rw [texts_turns hi, hc]))
      · apply hcells _ hinside _ c
        · rw [texts_turns hi, hc]
        · rw [texts_turn e.processes hi, hp]
          simpa using hnone
    · rintro ⟨hmax, hrows⟩ ⟨y, x⟩ hinside hnone c hc
      obtain ⟨hpos, hlast, -, -⟩ := id hinside
      dsimp only at hpos hlast
      rcases Nat.lt_or_ge y 2 with hy | hy
      · obtain rfl : y = 1 := by omega
        rw [texts_append, Option.or_eq_none_iff] at hnone
        have hearlier : texts (es.flatMap fun e => headPrints ++ tablePrints cols n e.processes)
            (1, x) = texts (es.flatMap fun _ => []) (1, x) :=
          texts_flatMap_congr fun e' _ => texts_head e'.processes hnone.2
        have hnil : (es.flatMap fun _ => ([] : List Print)) = [] :=
          List.flatMap_eq_nil_iff.mpr fun _ _ => rfl
        rw [hearlier, hnil] at hc
        cases hc
      · obtain ⟨i, rfl⟩ : ∃ i, y = i + 2 := ⟨y - 2, by omega⟩
        have hi : i < n := by omega
        rw [texts_turns hi] at hc
        cases hp : e.processes[i]? with
        | some p =>
          rw [texts_turn e.processes hi, hp] at hnone
          exact hrows i p hi hp x hinside (by simpa using hnone) c hc
        | none =>
          have hgone := List.getElem?_eq_none_iff.mp hp
          have hnever : rowsOf cols i es = [] := by
            refine List.flatMap_eq_nil_iff.mpr fun e' he' => ?_
            have hle := hmax e' he'
            rw [List.getElem?_eq_none (by omega)]
            rfl
          rw [hnever] at hc
          cases hc

lemma rowPrints_fits {i : ℕ} {p : Process} (hcols : 73 ≤ cols) (hi : i < n)
    (hpid : (decimal p.pid).length ≤ 11) (huser : Ascii p.user ∧ 9 + p.user.length ≤ cols)
    (hcpu : p.cpuUtilization.den ≠ 0) (hram : Ascii p.ram ∧ 26 + p.ram.length ≤ cols)
    (hcmd : Ascii p.cmd) : ∀ q ∈ rowPrints cols i p, E.Fits q := by
  have htime := length_elapsedTime_le (.ofInt p.upTime)
  have hload : Ascii (p.cpuUtilization.percent.take 4) := fun c hc =>
    ascii_percent hcpu c (List.mem_of_mem_take hc)
  have hload_le : (p.cpuUtilization.percent.take 4).length ≤ 4 := List.length_take_le 4 _
  have hcut : Ascii (p.cmd.take (cols - 46)) := fun c hc => hcmd c (List.mem_of_mem_take hc)
  have hcut_le : (p.cmd.take (cols - 46)).length ≤ cols - 46 := List.length_take_le _ _
  unfold rowPrints
  simp only [List.forall_mem_cons, List.not_mem_nil, false_imp_iff, implies_true, and_true]
  refine ⟨(ascii_decimal _).fits ?_ ?_ ?_, huser.1.fits ?_ ?_ ?_, hload.fits ?_ ?_ ?_,
    hram.1.fits ?_ ?_ ?_, (ascii_elapsedTime _).fits ?_ ?_ ?_, hcut.fits ?_ ?_ ?_⟩ <;> omega

end Turns

/-- A turn that shows one process. -/
def shellShown : Shown where
  snap :=
    { counted (bytes "cpu 1 1 1 1 1\nprocesses 40\nprocs_running 12\n") with
      directory := [⟨digits 7, true⟩]
      files := fun _ => shell.files }
  facts := twelve.facts
  processes := [shell.process]

lemma shellShown_fits : ∀ e ∈ [shellShown] ++ [three],
    ∀ p ∈ tablePrints 80 10 e.processes, (wide (3 + 10)).Fits p := by
  intro e he p hp
  rcases List.mem_cons.mp he with rfl | he
  · have hrow : p ∈ rowPrints 80 0 shell.process := hp
    exact rowPrints_fits (by omega) (by omega) (by decide) (by decide) (by decide) (by decide)
      (by decide) p hrow
  · obtain rfl := List.mem_singleton.mp he
    cases hp

/-- The process is shown still when it is gone. -/
theorem process_window_gone : ∃ s t : Screen (wide 9) (wide (3 + 10)),
    Trace (Turn (wide 9) (wide (3 + 10)) 100 shell.stof) (Screen.init _ _) [shellShown] s ∧
    Turn (wide 9) (wide (3 + 10)) 100 shell.stof three s t ∧
    ¬ (wide (3 + 10)).Same t.processWindow
      (displayProcesses _ [] 10 ((wide (3 + 10)).box (wide (3 + 10)).newwin)) := by
  have hfacts : System.init.facts shell.stof shellShown.snap =
      some (shellShown.facts, ⟨⟨5, 2⟩, []⟩) := by decide +kernel
  have hconstruct : System.construct 100 shell.stof shellShown.snap = some [shell.process] := by
    decide +kernel
  have hthree : (⟨⟨5, 2⟩, [shell.process]⟩ : System).facts shell.stof three.snap =
      some (three.facts, ⟨⟨10, 2⟩, [shell.process]⟩) := by decide +kernel
  obtain ⟨s, hshown, hsystem⟩ : ∃ s : Screen (wide 9) (wide (3 + 10)),
      Turn _ _ 100 shell.stof shellShown (Screen.init _ _) s ∧
        s.system = ⟨⟨5, 2⟩, [shell.process]⟩ :=
    ⟨⟨⟨⟨5, 2⟩, [shell.process]⟩, displaySystem _ shellShown.facts ((wide 9).box (wide 9).newwin),
        displayProcesses _ [shell.process] 10 ((wide (3 + 10)).box (wide (3 + 10)).newwin)⟩,
      ⟨⟨_, hfacts, rfl, _, hconstruct, by decide, List.Perm.refl _, List.pairwise_singleton _ _⟩,
        rfl, rfl, rfl⟩, rfl⟩
  have hrun := Trace.snoc Trace.nil hshown
  have hturn := turn_of_facts (e := three) (s := s) rfl rfl (hsystem ▸ hthree)
  refine ⟨_, _, hrun, hturn, fun hsame => ?_⟩
  have hmore := ((process_window (by omega) shellShown_fits hrun hturn).2.mp hsame).1 shellShown
    (by simp)
  exact absurd hmore (by decide)

end SelfTraining.Monitor.NCursesDisplay
