import SelfTraining.Lib.Lookup
import SelfTraining.Lib.Order
import SelfTraining.Lib.Single
import SelfTraining.Monitor.Counters
import SelfTraining.Monitor.Memory
import SelfTraining.Monitor.OperatingSystem
import SelfTraining.Monitor.Process

/-!
The system, as it is read anew for every turn of the display.

`Processes` clears the vector that it filled the turn before, constructs every process that `/proc`
lists, and sorts them by load. A load is a quotient in single precision. It is infinite where the
divisor is zero, and no number where zero is divided by zero, with which sorting is undefined.
-/

namespace SelfTraining.Monitor

open SelfTraining.Text SelfTraining.Stream SelfTraining.Order

namespace Load

/-- The quotient of the two numbers as a `float`, where the divisor is not zero. -/
def single (l : Load) : ℚ := Single.single (Single.single l.num / Single.single l.den)

def IsNumber (l : Load) : Prop := ¬ (l.num = 0 ∧ l.den = 0)

instance (l : Load) : Decidable l.IsNumber := inferInstanceAs (Decidable (¬ (_ ∧ _)))

/-- `a > b` for two loads. -/
def gt (a b : Load) : Bool :=
  if a.den = 0 then decide (0 < a.num ∧ (b.den = 0 → b.num < 0))
  else if b.den = 0 then decide (b.num < 0)
  else decide (b.single < a.single)

end Load

/-- What a turn of the display finds: the files behind the system's own figures, each with its
content if it can be opened, the listing of `/proc`, and the files of each process. The value that
`MemoryUtilization` does not initialise is `unset`. -/
structure Snapshot where
  osRelease : Option Bytes
  version : Option Bytes
  cpu : Reads
  unset : ℤ
  meminfo : Option Bytes
  statTotal : Option Bytes
  statRunning : Option Bytes
  uptime : Option Bytes
  directory : List LinuxParser.Dirent
  files : ℤ → ProcFiles

/-- What `DisplaySystem` asks the system for. -/
structure Facts where
  operatingSystem : Bytes
  kernel : Bytes
  cpu : Load
  memory : Load
  total : ℤ
  running : ℤ
  upTime : ℤ
  deriving DecidableEq

deriving instance DecidableEq for Processor

structure System where
  cpu : Processor
  processes : List Process
  deriving DecidableEq

/-- `compare`, by which the processes are sorted. -/
def compare (a b : Process) : Bool := a.cpuUtilization.gt b.cpuUtilization

namespace System

def init : System := ⟨Processor.init, []⟩

/-- The figures of the system, in the order in which they are displayed, and nothing where a
number that is read does not fit. -/
def facts (stof : Bytes → Option ℚ) (s : System) (snap : Snapshot) : Option (Facts × System) := do
  let (load, cpu) ← s.cpu.utilization snap.cpu
  let total ← LinuxParser.totalProcesses snap.statTotal
  let running ← LinuxParser.runningProcesses snap.statRunning
  let upTime ← LinuxParser.upTime stof snap.uptime
  return ({
    operatingSystem := LinuxParser.operatingSystem snap.osRelease
    kernel := LinuxParser.kernel snap.version
    cpu := load
    memory := LinuxParser.memoryUtilization snap.unset snap.meminfo
    total := total
    running := running
    upTime := upTime }, { s with cpu := cpu })

/-- The loop of `Processes`. -/
def construct (hertz : ℤ) (stof : Bytes → Option ℚ) (snap : Snapshot) : Option (List Process) := do
  let pids ← LinuxParser.pids snap.directory
  pids.mapM fun pid => Process.new hertz stof (snap.files pid) pid

/-- `Processes`, where it does not throw and is not undefined. What sorting does with equal loads
is left open. -/
structure Processes (hertz : ℤ) (stof : Bytes → Option ℚ) (snap : Snapshot) (s s' : System) :
    Prop where
  cpu_eq : s'.cpu = s.cpu
  sorts : ∃ ps, construct hertz stof snap = some ps ∧
    (∀ p ∈ ps, p.cpuUtilization.IsNumber) ∧ Sorts compare ps s'.processes

end System

/-! ### The processes of a listing -/

/-- The files of a process can be read in a second in which the system is not the first any more:
the process is gone by now, or it was started before, and its command is one word. -/
structure Listed (hertz : ℤ) (stof : Bytes → Option ℚ) (files : ProcFiles) : Prop where
  ram : (LinuxParser.ram files.status).isSome
  times : ∃ upTime, LinuxParser.upTime stof files.uptime = some upTime ∧ 0 < upTime ∧
    ∀ stat, files.stat = some stat → ∃ s : ProcStat, stat = s.text ∧ NoSpace s.comm ∧ s.Fits ∧
      0 ≤ s.starttime ∧ s.starttime.tdiv hertz ≤ upTime

namespace Listed

variable {hertz : ℤ} {stof : Bytes → Option ℚ} {files : ProcFiles}

/-- The start of a process is divided by the clock rate once more, and comes to less than the
uptime. -/
lemma tdiv_lt {start upTime : ℤ} (hhertz : 2 ≤ hertz) (hpos : 0 < upTime) (hstart : 0 ≤ start)
    (hle : start ≤ upTime) : start.tdiv hertz < upTime := by
  rw [Int.tdiv_eq_ediv_of_nonneg hstart]
  apply Int.ediv_lt_of_lt_mul (by omega)
  calc start ≤ upTime := hle
    _ < upTime * 2 := by omega
    _ ≤ upTime * hertz := mul_le_mul_of_nonneg_left hhertz hpos.le

lemma exists_new (h : Listed hertz stof files) (pid : ℤ) :
    ∃ p, Process.new hertz stof files pid = some p := by
  obtain ⟨ram, hram⟩ := Option.isSome_iff_exists.mp h.ram
  obtain ⟨upTime, hup, -, hstat⟩ := h.times
  obtain ⟨start, active, hstart, hactive⟩ : ∃ start active,
      LinuxParser.upTimeOf hertz files.stat = some start ∧
      LinuxParser.activeJiffiesOf files.stat = some active := by
    cases hfile : files.stat with
    | none => exact ⟨0, 0, rfl, rfl⟩
    | some stat =>
      obtain ⟨s, rfl, hword, hfits, -, -⟩ := hstat stat hfile
      have hparses := (ProcStat.parses_iff_fits hword).mpr hfits
      exact ⟨_, _, hparses.upTime hertz, hparses.active⟩
  unfold Process.new
  rw [hram, hup, hstart, hactive]
  exact ⟨_, rfl⟩

lemma pid_and_den (h : Listed hertz stof files) (hhertz : 2 ≤ hertz) {pid : ℤ} {p : Process}
    (hp : Process.new hertz stof files pid = some p) : p.pid = pid ∧ 0 < p.cpuUtilization.den := by
  obtain ⟨upTime, hup, hpos, hstat⟩ := h.times
  unfold Process.new at hp
  simp only [Option.bind_eq_bind, Option.bind_eq_some_iff, Option.pure_def] at hp
  obtain ⟨ram, -, age, -, system, hsystem, start, hstart, active, -, hp⟩ := hp
  obtain rfl : upTime = system := Option.some.inj (hup.symm.trans hsystem)
  cases hp
  refine ⟨rfl, ?_⟩
  have hbounds : 0 ≤ start ∧ start ≤ upTime := by
    cases hfile : files.stat with
    | none =>
      rw [hfile] at hstart
      obtain rfl : 0 = start := Option.some.inj hstart
      exact ⟨le_rfl, hpos.le⟩
    | some stat =>
      obtain ⟨s, rfl, hword, -, hnonneg, hle⟩ := hstat stat hfile
      rw [hfile] at hstart
      obtain ⟨-, rfl⟩ := (ProcStat.upTimeOf_eq_some hword).mp hstart
      exact ⟨Int.tdiv_nonneg hnonneg (by omega), hle⟩
  have hlt := tdiv_lt hhertz hpos hbounds.1 hbounds.2
  dsimp only
  omega

end Listed

lemma compare_eq {a b : Process} (ha : 0 < a.cpuUtilization.den) (hb : 0 < b.cpuUtilization.den) :
    compare a b = decide (b.cpuUtilization.single < a.cpuUtilization.single) := by
  unfold compare Load.gt
  rw [if_neg ha.ne', if_neg hb.ne']

section Listing

variable {hertz : ℤ} {stof : Bytes → Option ℚ} {snap : Snapshot} {dir : List Entry}

lemma construct_listing (hhertz : 2 ≤ hertz) (hdir : snap.directory = dir.map Entry.dirent)
    (h : ∀ pid ∈ dir.filterMap Entry.pid?, pid < 2 ^ 31 ∧ Listed hertz stof (snap.files pid)) :
    ∃ ps, System.construct hertz stof snap = some ps ∧
      ps.map Process.pid = (dir.filterMap Entry.pid?).map (fun pid : ℕ => (pid : ℤ)) ∧
      ∀ p ∈ ps, Process.new hertz stof (snap.files p.pid) p.pid = some p ∧
        0 < p.cpuUtilization.den := by
  have hpids : LinuxParser.pids snap.directory =
      some ((dir.filterMap Entry.pid?).map fun pid : ℕ => (pid : ℤ)) := by
    rw [hdir, LinuxParser.pids_listing, if_pos fun pid hpid => (h pid hpid).1]
  have hlisted : ∀ pid ∈ (dir.filterMap Entry.pid?).map (fun pid : ℕ => (pid : ℤ)),
      Listed hertz stof (snap.files pid) := by
    intro pid hpid
    obtain ⟨n, hn, rfl⟩ := List.mem_map.mp hpid
    exact (h n hn).2
  obtain ⟨ps, hps⟩ := Option.isSome_iff_exists.mp (Lookup.mapM_isSome fun pid hpid =>
    Option.isSome_iff_exists.mpr ((hlisted pid hpid).exists_new pid))
  obtain ⟨hkeys, hnew⟩ := Lookup.mapM_key hps fun pid hpid p hp =>
    ((hlisted pid hpid).pid_and_den hhertz hp).1
  refine ⟨ps, ?_, hkeys, fun p hp => ⟨hnew p hp, ?_⟩⟩
  · unfold System.construct
    rw [hpids]
    exact hps
  · have hmem : p.pid ∈ (dir.filterMap Entry.pid?).map fun pid : ℕ => (pid : ℤ) :=
      hkeys ▸ List.mem_map_of_mem hp
    exact ((hlisted p.pid hmem).pid_and_den hhertz (hnew p hp)).2

/-- **The processes are those of the listing, ranked by load.** Whatever the system had listed
before, with a clock of two ticks in a second or more: the vector is filled, sorting is defined,
and however it orders equal loads, each process that the kernel lists now is in the vector once
and as it is read now, and none that a shorter display leaves out has a greater load than one that
it shows. -/
theorem processes_ranked (s : System) (hhertz : 2 ≤ hertz)
    (hdir : snap.directory = dir.map Entry.dirent)
    (h : ∀ pid ∈ dir.filterMap Entry.pid?, pid < 2 ^ 31 ∧ Listed hertz stof (snap.files pid)) :
    (∃ s', System.Processes hertz stof snap s s') ∧
      ∀ s', System.Processes hertz stof snap s s' →
        (s'.processes.map Process.pid).Perm
          ((dir.filterMap Entry.pid?).map fun pid : ℕ => (pid : ℤ)) ∧
        (∀ p ∈ s'.processes, Process.new hertz stof (snap.files p.pid) p.pid = some p) ∧
        ∀ n, ∀ p ∈ s'.processes.take n, ∀ q ∈ s'.processes.drop n,
          q.cpuUtilization.single ≤ p.cpuUtilization.single := by
  obtain ⟨ps, hps, hpids, hnew⟩ := construct_listing hhertz hdir h
  have hcompare : ∀ a ∈ ps, ∀ b ∈ ps, compare a b =
      decide (b.cpuUtilization.single < a.cpuUtilization.single) := fun a ha b hb =>
    compare_eq (hnew a ha).2 (hnew b hb).2
  constructor
  · have hsorts := insertionSort_sorts (fun p : Process => p.cpuUtilization.single) ps
    have hsorted := hsorts.congr fun a ha b hb => (hcompare a ha b hb).symm
    refine ⟨⟨s.cpu, ps.insertionSort fun a b => b.cpuUtilization.single ≤ a.cpuUtilization.single⟩,
      rfl, ps, hps, fun p hp hzero => ?_, hsorted⟩
    exact (hnew p hp).2.ne' hzero.2
  · rintro s' ⟨-, ps', hps', -, hsorts⟩
    obtain rfl : ps = ps' := Option.some.inj (hps.symm.trans hps')
    refine ⟨hpids ▸ hsorts.1.map Process.pid, fun p hp => (hnew p (hsorts.1.mem_iff.mp hp)).1, ?_⟩
    exact (hsorts.congr hcompare).drop_le fun p : Process => p.cpuUtilization.single

end Listing

/-- A listing with two processes, the second of which is gone before its files are opened. -/
def shellAndGone : Snapshot where
  osRelease := none
  version := none
  cpu := ⟨[], [], [], []⟩
  unset := 0
  meminfo := none
  statTotal := none
  statRunning := none
  uptime := none
  directory := [⟨digits 7, true⟩, ⟨bytes "self", false⟩, ⟨digits 8, true⟩]
  files pid := if pid = 7 then shell.files else { shell.files with stat := none }

lemma shellAndGone_listed {pid : ℕ} (h : pid = 7 ∨ pid = 8) :
    pid < 2 ^ 31 ∧ Listed 100 shell.stof (shellAndGone.files pid) := by
  have hup : LinuxParser.upTime shell.stof shell.files.uptime = some 1000 := shell.upTime_eq
  rcases h with rfl | rfl
  · refine ⟨by omega, rfl, 1000, hup, by omega, fun stat hstat => ?_⟩
    obtain rfl : shellStat.text = stat := Option.some.inj hstat
    exact ⟨shellStat, rfl, by decide, by constructor <;> decide, by decide, by decide⟩
  · refine ⟨by omega, rfl, 1000, hup, by omega, fun stat hstat => ?_⟩
    cases hstat

theorem processes_ranked_two : ∃ s', System.Processes 100 shell.stof shellAndGone System.init s' ∧
    (s'.processes.map Process.pid).Perm [7, 8] := by
  have hlisted : ∀ pid ∈ [7, 8], pid < 2 ^ 31 ∧
      Listed 100 shell.stof (shellAndGone.files (pid : ℕ)) := fun pid hpid =>
    shellAndGone_listed (by simpa using hpid)
  obtain ⟨⟨s', hs'⟩, hall⟩ := @processes_ranked 100 shell.stof shellAndGone
    [.process 7, .other ⟨bytes "self", false⟩ (by simp), .process 8] System.init (by omega) rfl
    hlisted
  exact ⟨s', hs', (hall s' hs').1⟩

end SelfTraining.Monitor
