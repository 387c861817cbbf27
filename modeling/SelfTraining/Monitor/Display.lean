import SelfTraining.Lib.Painting
import SelfTraining.Lib.Steps
import SelfTraining.Monitor.Format
import SelfTraining.Monitor.System

/-!
The two windows of the monitor.

`Display` draws the border of both windows anew in every turn and prints the figures of the system
into one and the processes with the greatest loads into the other. Neither is ever cleared.
-/

namespace SelfTraining.Monitor

open SelfTraining.Text SelfTraining.Stream SelfTraining.Steps SelfTraining.Painting

namespace Load

/-- `0.1`, which is a `double`. -/
def tenth : ℚ := 3602879701896397 / 2 ^ 55

/-- `i <= percent * 50`. -/
def reaches (l : Load) (i : ℕ) : Bool :=
  if l.den = 0 then decide (0 < l.num) else decide ((i : ℚ) ≤ Single.single (l.single * 50))

/-- `percent < 0.1 || percent == 1.0`. -/
def short (l : Load) : Bool :=
  if l.den = 0 then decide (l.num < 0) else decide (l.single < tenth ∨ l.single = 1)

/-- `to_string(percent * 100)`. -/
def percent (l : Load) : Bytes :=
  if l.den = 0 then
    if 0 < l.num then bytes "inf" else if l.num < 0 then bytes "-inf" else bytes "-nan"
  else
    Single.fixed (decide (l.num < 0) != decide (l.den < 0)) |Single.single (l.single * 100)|

end Load

namespace NCursesDisplay

/-- `ProgressBar`. -/
def progressBar (percent : Load) : Bytes :=
  let result := (List.range 50).foldl
    (fun result i => result ++ [if percent.reaches i then 124 else 32]) (bytes "0%")
  let display :=
    if percent.short then bytes " " ++ percent.percent.take 3 else percent.percent.take 4
  result ++ bytes " " ++ display ++ bytes "/100%"

section Windows

variable {lines cols : ℕ} (D : Drawing lines cols)

/-- `mvwprintw` of a string by its characters up to a zero byte. -/
def printAt (window : D.Window) (row col : ℕ) (s : Bytes) : D.Window :=
  D.mvwprintw window row col (cstr s)

/-- A string printed where an empty one has left the cursor, with a colour. -/
def printColoured (window : D.Window) (row col : ℕ) (s : Bytes) : D.Window :=
  D.wattroff (D.wprintw (printAt D (D.wattron window 1) row col []) (cstr s)) 1

def displaySystem (f : Facts) (window : D.Window) : D.Window :=
  let window := printAt D window 1 2 (bytes "OS: " ++ f.operatingSystem)
  let window := printAt D window 2 2 (bytes "Kernel: " ++ f.kernel)
  let window := printAt D window 3 2 (bytes "CPU: ")
  let window := printColoured D window 3 10 (progressBar f.cpu)
  let window := printAt D window 4 2 (bytes "Memory: ")
  let window := printColoured D window 4 10 (progressBar f.memory)
  let window := printAt D window 5 2 (bytes "Total Processes: " ++ decimal f.total)
  let window := printAt D window 6 2 (bytes "Running Processes: " ++ decimal f.running)
  printAt D window 7 2 (bytes "Up Time: " ++ Format.elapsedTime (.ofInt f.upTime))

/-- The loop of `DisplayProcesses` for the process with number `i`. -/
def displayProcess (window : D.Window) (p : Process) (i : ℕ) : D.Window :=
  let row := i + 2
  let window := printAt D window row 2 (decimal p.pid)
  let window := printAt D window row 9 p.user
  let window := printAt D window row 16 (p.cpuUtilization.percent.take 4)
  let window := printAt D window row 26 p.ram
  let window := printAt D window row 35 (Format.elapsedTime (.ofInt p.upTime))
  printAt D window row 46 (p.cmd.take (cols - 46))

def displayProcesses (processes : List Process) (n : ℕ) (window : D.Window) : D.Window :=
  let window := D.wattron window 2
  let window := printAt D window 1 2 (bytes "PID")
  let window := printAt D window 1 9 (bytes "USER")
  let window := printAt D window 1 16 (bytes "CPU[%]")
  let window := printAt D window 1 26 (bytes "RAM[MB]")
  let window := printAt D window 1 35 (bytes "TIME+")
  let window := printAt D window 1 46 (bytes "COMMAND")
  let window := D.wattroff window 2
  (processes.take n).zipIdx.foldl (fun window e => displayProcess D window e.1 e.2) window

end Windows

/-! ### What is printed -/

/-- The texts of `DisplaySystem`. -/
def systemPrints (f : Facts) : List Print :=
  [⟨1, 2, cstr (bytes "OS: " ++ f.operatingSystem)⟩,
    ⟨2, 2, cstr (bytes "Kernel: " ++ f.kernel)⟩,
    ⟨3, 2, cstr (bytes "CPU: ")⟩,
    ⟨3, 10, cstr (progressBar f.cpu)⟩,
    ⟨4, 2, cstr (bytes "Memory: ")⟩,
    ⟨4, 10, cstr (progressBar f.memory)⟩,
    ⟨5, 2, cstr (bytes "Total Processes: " ++ decimal f.total)⟩,
    ⟨6, 2, cstr (bytes "Running Processes: " ++ decimal f.running)⟩,
    ⟨7, 2, cstr (bytes "Up Time: " ++ Format.elapsedTime (.ofInt f.upTime))⟩]

/-- The texts of the first row of `DisplayProcesses`. -/
def headPrints : List Print :=
  [⟨1, 2, cstr (bytes "PID")⟩, ⟨1, 9, cstr (bytes "USER")⟩, ⟨1, 16, cstr (bytes "CPU[%]")⟩,
    ⟨1, 26, cstr (bytes "RAM[MB]")⟩, ⟨1, 35, cstr (bytes "TIME+")⟩, ⟨1, 46, cstr (bytes "COMMAND")⟩]

/-- The texts for the process with number `i`. -/
def rowPrints (cols i : ℕ) (p : Process) : List Print :=
  [⟨i + 2, 2, cstr (decimal p.pid)⟩,
    ⟨i + 2, 9, cstr p.user⟩,
    ⟨i + 2, 16, cstr (p.cpuUtilization.percent.take 4)⟩,
    ⟨i + 2, 26, cstr p.ram⟩,
    ⟨i + 2, 35, cstr (Format.elapsedTime (.ofInt p.upTime))⟩,
    ⟨i + 2, 46, cstr (p.cmd.take (cols - 46))⟩]

/-- The texts of the other rows. -/
def tablePrints (cols n : ℕ) (processes : List Process) : List Print :=
  (processes.take n).zipIdx.flatMap fun e => rowPrints cols e.2 e.1

section Painted

variable {lines cols : ℕ} {D : Drawing lines cols}

lemma painted_printAt (w : D.Window) {row col : ℕ} {s : Bytes} (h : D.Fits ⟨row, col, cstr s⟩) :
    D.Painted w (printAt D w row col s) [⟨row, col, cstr s⟩] := Drawing.painted_mvwprintw w h

lemma painted_printColoured (w : D.Window) {row col : ℕ} {s : Bytes}
    (h : D.Fits ⟨row, col, cstr s⟩) :
    D.Painted w (printColoured D w row col s) [⟨row, col, cstr s⟩] :=
  ((Drawing.painted_wattron w 1).trans (Drawing.painted_wprintw _ h)).trans
    (Drawing.painted_wattroff _ 1)

lemma painted_displaySystem (f : Facts) (w : D.Window) (h : ∀ p ∈ systemPrints f, D.Fits p) :
    D.Painted w (displaySystem D f w) (systemPrints f) := by
  simp only [systemPrints, List.forall_mem_cons] at h
  obtain ⟨hos, hkernel, hcpu, hcpubar, hmemory, hmemorybar, htotal, hrunning, hup, -⟩ := h
  have h₁ := (painted_printAt w hos).trans (painted_printAt _ hkernel)
  have h₂ := (h₁.trans (painted_printAt _ hcpu)).trans (painted_printColoured _ hcpubar)
  have h₃ := (h₂.trans (painted_printAt _ hmemory)).trans (painted_printColoured _ hmemorybar)
  have h₄ := (h₃.trans (painted_printAt _ htotal)).trans (painted_printAt _ hrunning)
  exact h₄.trans (painted_printAt _ hup)

lemma painted_displayProcess (w : D.Window) (p : Process) (i : ℕ)
    (h : ∀ q ∈ rowPrints cols i p, D.Fits q) :
    D.Painted w (displayProcess D w p i) (rowPrints cols i p) := by
  simp only [rowPrints, List.forall_mem_cons] at h
  obtain ⟨hpid, huser, hcpu, hram, htime, hcmd, -⟩ := h
  have h₁ := (painted_printAt w hpid).trans (painted_printAt _ huser)
  have h₂ := (h₁.trans (painted_printAt _ hcpu)).trans (painted_printAt _ hram)
  exact (h₂.trans (painted_printAt _ htime)).trans (painted_printAt _ hcmd)

lemma painted_rows (l : List (Process × ℕ)) (w : D.Window)
    (h : ∀ e ∈ l, ∀ q ∈ rowPrints cols e.2 e.1, D.Fits q) :
    D.Painted w (l.foldl (fun window e => displayProcess D window e.1 e.2) w)
      (l.flatMap fun e => rowPrints cols e.2 e.1) := by
  induction l generalizing w with
  | nil => exact fun _ _ => rfl
  | cons e l ih =>
    obtain ⟨he, hl⟩ := List.forall_mem_cons.mp h
    rw [List.foldl_cons, List.flatMap_cons]
    exact (painted_displayProcess w e.1 e.2 he).trans (ih _ hl)

lemma painted_displayProcesses (processes : List Process) (n : ℕ) (w : D.Window)
    (hhead : ∀ q ∈ headPrints, D.Fits q) (h : ∀ q ∈ tablePrints cols n processes, D.Fits q) :
    D.Painted w (displayProcesses D processes n w)
      (headPrints ++ tablePrints cols n processes) := by
  have hrows : ∀ e ∈ (processes.take n).zipIdx, ∀ q ∈ rowPrints cols e.2 e.1, D.Fits q :=
    fun e he q hq => h q (List.mem_flatMap.mpr ⟨e, he, hq⟩)
  simp only [headPrints, List.forall_mem_cons] at hhead
  obtain ⟨hpid, huser, hcpu, hram, htime, hcmd, -⟩ := hhead
  have h₁ := (Drawing.painted_wattron w 2).trans (painted_printAt _ hpid)
  have h₂ := (h₁.trans (painted_printAt _ huser)).trans (painted_printAt _ hcpu)
  have h₃ := (h₂.trans (painted_printAt _ hram)).trans (painted_printAt _ htime)
  have h₄ := (h₃.trans (painted_printAt _ hcmd)).trans (Drawing.painted_wattroff _ 2)
  exact h₄.trans (painted_rows _ _ hrows)

end Painted

/-! ### Turn after turn -/

/-- What a turn finds, and what it has displayed of it. -/
structure Shown where
  snap : Snapshot
  facts : Facts
  processes : List Process

section Turns

variable {cols n : ℕ}

/-- The system and the two windows. -/
structure Screen (D : Drawing 9 cols) (E : Drawing (3 + n) cols) where
  system : System
  systemWindow : D.Window
  processWindow : E.Window

variable (D : Drawing 9 cols) (E : Drawing (3 + n) cols)

def Screen.init : Screen D E := ⟨System.init, D.newwin, E.newwin⟩

/-- One turn of the loop of `Display`, where nothing throws. -/
structure Turn (hertz : ℤ) (stof : Bytes → Option ℚ) (e : Shown) (s s' : Screen D E) : Prop where
  reads : ∃ system, s.system.facts stof e.snap = some (e.facts, system) ∧
    System.Processes hertz stof e.snap system s'.system
  processes_eq : e.processes = s'.system.processes
  systemWindow_eq : s'.systemWindow = displaySystem D e.facts (D.box s.systemWindow)
  processWindow_eq : s'.processWindow = displayProcesses E e.processes n (E.box s.processWindow)

variable {D E} {hertz : ℤ} {stof : Bytes → Option ℚ} {es : List Shown} {s : Screen D E}

lemma painted_turns {lines : ℕ} {F : Drawing lines cols} (window : Screen D E → F.Window)
    {prints : Shown → List Print}
    (hturn : ∀ e ∈ es, ∀ s s', Turn D E hertz stof e s s' →
      F.Painted (window s) (window s') (prints e))
    (hrun : Trace (Turn D E hertz stof) (Screen.init D E) es s) :
    F.Painted (window (Screen.init D E)) (window s) (es.flatMap prints) := by
  induction hrun with
  | nil => exact fun _ _ => rfl
  | snoc hrun hstep ih =>
    rw [List.flatMap_append, List.flatMap_singleton]
    exact (ih fun e he => hturn e (by simp [he])).trans (hturn _ (by simp) _ _ hstep)

lemma painted_systemWindow (hfits : ∀ e ∈ es, ∀ p ∈ systemPrints e.facts, D.Fits p)
    (hrun : Trace (Turn D E hertz stof) (Screen.init D E) es s) :
    D.Painted D.newwin s.systemWindow (es.flatMap fun e => systemPrints e.facts) := by
  refine painted_turns Screen.systemWindow (fun e he s s' h => ?_) hrun
  rw [h.systemWindow_eq]
  exact (Drawing.painted_box s.systemWindow).trans (painted_displaySystem _ _ (hfits e he))

lemma painted_processWindow (hhead : ∀ q ∈ headPrints, E.Fits q)
    (hfits : ∀ e ∈ es, ∀ p ∈ tablePrints cols n e.processes, E.Fits p)
    (hrun : Trace (Turn D E hertz stof) (Screen.init D E) es s) :
    E.Painted E.newwin s.processWindow
      (es.flatMap fun e => headPrints ++ tablePrints cols n e.processes) := by
  refine painted_turns Screen.processWindow (fun e he s s' h => ?_) hrun
  rw [h.processWindow_eq]
  exact (Drawing.painted_box s.processWindow).trans
    (painted_displayProcesses _ n _ hhead (hfits e he))

end Turns

end NCursesDisplay

end SelfTraining.Monitor
