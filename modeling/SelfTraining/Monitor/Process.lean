import SelfTraining.Monitor.Processor
import SelfTraining.Monitor.ProcessStat
import SelfTraining.Monitor.User

/-!
What a `Process` says of its age and its load.

The start time of a process is counted in clock ticks, the uptime of the system in seconds.
`UpTime` of a process gives its start time in seconds already, and the constructor takes it for
the age, and for ticks once more where it works out the load.
-/

namespace SelfTraining.Monitor

open SelfTraining.Text SelfTraining.Stream

namespace LinuxParser

/-- `UpTime` of the system, for what `stof` reads from a word. -/
def upTime (stof : Bytes → Option ℚ) : Option Bytes → Option ℤ
  | none => some 0
  | some uptime => (stof ((words (Framing.upTo 10 uptime)).head?.getD [])).map fun t => t.floor

def command : Option Bytes → Bytes
  | none => []
  | some cmdline => Framing.upTo 10 cmdline

/-- The loop of `Ram`. A line without a word leaves `key` as it was, and so does the end of a
line. -/
def ramLoop : Bytes → List Bytes → Option Bytes
  | _, [] => some []
  | key, line :: lines =>
    let key := (words line).head?.getD key
    if key = bytes "VmSize:" then
      (stol ((words line)[1]?.getD key)).map fun v => decimal (v.tdiv 1024)
    else ramLoop key lines

def ram : Option Bytes → Option Bytes
  | none => some []
  | some status => ramLoop [] (getlines status)

end LinuxParser

/-- The files that a process is constructed from, each with its content if it can be opened. -/
structure ProcFiles where
  stat : Option Bytes
  status : Option Bytes
  cmdline : Option Bytes
  uptime : Option Bytes
  passwd : Option Bytes

structure Process where
  pid : ℤ
  user : Bytes
  cmd : Bytes
  cpuUtilization : Load
  ram : Bytes
  upTime : ℤ
  deriving DecidableEq

/-- The constructor, and nothing where it throws. -/
def Process.new (hertz : ℤ) (stof : Bytes → Option ℚ) (files : ProcFiles) (pid : ℤ) :
    Option Process := do
  let ram ← LinuxParser.ram files.status
  let upTime ← LinuxParser.upTimeOf hertz files.stat
  let system ← LinuxParser.upTime stof files.uptime
  let start ← LinuxParser.upTimeOf hertz files.stat
  let second := system - start.tdiv hertz
  let active ← LinuxParser.activeJiffiesOf files.stat
  return {
    pid := pid
    user := LinuxParser.user files.status files.passwd
    cmd := LinuxParser.command files.cmdline
    cpuUtilization := ⟨active.tdiv hertz, second⟩
    ram := ram
    upTime := upTime }

/-- A process that has been constructed, from a line whose command is one word, `upTime` seconds
after the system was started and at a time after its own start. -/
structure Constructed where
  hertz : ℤ
  stof : Bytes → Option ℚ
  files : ProcFiles
  stat : ProcStat
  upTime : ℤ
  process : Process
  hertz_pos : 0 < hertz
  noSpace : NoSpace stat.comm
  stat_eq : files.stat = some stat.text
  upTime_eq : LinuxParser.upTime stof files.uptime = some upTime
  new_eq : Process.new hertz stof files stat.pid = some process
  started : stat.starttime.tdiv hertz < upTime

namespace Constructed

variable (c : Constructed)

/-- The second at which the process was started. -/
def start : ℤ := c.stat.starttime.tdiv c.hertz

/-- The seconds for which it was run. -/
def ran : ℤ := c.stat.ticks.tdiv c.hertz

/-- The age is the time since the start, and the load is the part of it in which the process was
run. -/
structure Consistent : Prop where
  upTime : c.process.upTime = c.upTime - c.start
  den_pos : 0 < c.process.cpuUtilization.den
  value : c.process.cpuUtilization.value = (⟨c.ran, c.upTime - c.start⟩ : Load).value

lemma process_eq : c.process.upTime = c.start ∧
    c.process.cpuUtilization = ⟨c.ran, c.upTime - c.start.tdiv c.hertz⟩ := by
  have hnew := c.new_eq
  unfold Process.new at hnew
  rw [c.stat_eq, c.upTime_eq] at hnew
  simp only [Option.bind_eq_bind, Option.bind_eq_some_iff, Option.pure_def] at hnew
  obtain ⟨ram, -, upTime, hup, system, hsystem, start, hstart, active, hactive, hp⟩ := hnew
  obtain ⟨-, rfl⟩ := (ProcStat.upTimeOf_eq_some c.noSpace).mp hup
  obtain ⟨-, rfl⟩ := (ProcStat.upTimeOf_eq_some c.noSpace).mp hstart
  obtain ⟨-, -, rfl⟩ := (ProcStat.activeJiffiesOf_eq_some c.noSpace).mp hactive
  obtain rfl : c.upTime = system := Option.some.inj hsystem
  have hp : _ = c.process := Option.some.inj hp
  rw [← hp]
  exact ⟨rfl, rfl⟩

lemma tdiv_eq_self_iff {a n : ℤ} (hn : 0 < n) (ha : 0 < a) : a.tdiv n = a ↔ n = 1 := by
  constructor
  · intro h
    have hmul : n * a ≤ 1 * a := by
      rw [one_mul]
      simpa [h] using Int.mul_tdiv_self_le (k := n) ha.le
    have hle : n ≤ 1 := le_of_mul_le_mul_right hmul ha
    omega
  · rintro rfl
    exact Int.tdiv_one a

lemma value_eq_iff {a d e : ℤ} (hd : 0 < d) (he : 0 < e) :
    (⟨a, d⟩ : Load).value = (⟨a, e⟩ : Load).value ↔ a = 0 ∨ d = e := by
  have hd' : (d : ℚ) ≠ 0 := by exact_mod_cast hd.ne'
  have he' : (e : ℚ) ≠ 0 := by exact_mod_cast he.ne'
  unfold Load.value
  rw [div_eq_div_iff hd' he', mul_eq_mul_left_iff, Int.cast_inj, Int.cast_eq_zero, or_comm,
    eq_comm (a := e)]

/-- **Age and load are consistent** if and only if the process was started at half the uptime of
the system, and was not run for a whole second or ticks are seconds. -/
theorem consistent_iff : c.Consistent ↔
    c.upTime = 2 * c.start ∧ (c.ran = 0 ∨ c.hertz = 1) := by
  obtain ⟨hup, hload⟩ := c.process_eq
  have hstarted : c.start < c.upTime := c.started
  have hage : c.process.upTime = c.upTime - c.start ↔ c.upTime = 2 * c.start := by omega
  -- a process started at half the uptime was started after the system
  have hden : c.upTime = 2 * c.start → 0 < c.start ∧ 0 < c.upTime - c.start.tdiv c.hertz := by
    intro h
    have hpos : 0 < c.start := by omega
    have hle : c.start.tdiv c.hertz ≤ c.start := Int.tdiv_le_self c.hertz hpos.le
    exact ⟨hpos, by omega⟩
  have hvalue : c.upTime = 2 * c.start → (c.process.cpuUtilization.value =
      (⟨c.ran, c.upTime - c.start⟩ : Load).value ↔ c.ran = 0 ∨ c.hertz = 1) := by
    intro h
    obtain ⟨hpos, hsecond⟩ := hden h
    rw [hload, value_eq_iff hsecond (by omega), sub_right_inj,
      tdiv_eq_self_iff c.hertz_pos hpos]
  constructor
  · intro h
    have hhalf := hage.mp h.upTime
    exact ⟨hhalf, (hvalue hhalf).mp h.value⟩
  · rintro ⟨hhalf, hran⟩
    refine ⟨hage.mpr hhalf, ?_, (hvalue hhalf).mpr hran⟩
    rw [hload]
    exact (hden hhalf).2

end Constructed

/-! ### A process started soon after the system -/

/-- A process that was started 10000 ticks after the system and was run for 20000. -/
def shellStat : ProcStat where
  pid := 7
  comm := bytes "sh"
  state := 82
  fields := [0, 0, 0, 0, 0, 0, 0, 0, 0, 0, 20000, 0, 0, 0, 0, 0, 0, 0, 10000]
  state_visible := rfl
  length_fields := by simp

/-- It is constructed when the system is 1000 seconds old, with 100 ticks in a second. -/
def shell : Constructed where
  hertz := 100
  stof b := (leadingNat b).map fun n => (n : ℚ)
  files := ⟨some shellStat.text, none, none, some (bytes "1000.00 1000.00\n"), none⟩
  stat := shellStat
  upTime := 1000
  process := ⟨7, [], [], ⟨200, 999⟩, [], 100⟩
  hertz_pos := by decide
  noSpace := by decide
  stat_eq := rfl
  upTime_eq := by decide +kernel
  new_eq := by decide +kernel
  started := by decide

/-- Its age would be 900 seconds, and it says 100. -/
theorem shell_not_consistent : ¬ ∀ c : Constructed, c.Consistent := by
  intro h
  have hage := (h shell).upTime
  revert hage
  decide

end SelfTraining.Monitor
