import SelfTraining.Monitor.LinuxParser

/-!
Counts, the kernel and the processes there are, as `LinuxParser` reads them.

`TotalProcesses` and `RunningProcesses` put the lines of `/proc/stat` into a map, of each key the
first value, and look one key up. `Kernel` takes the third word of `/proc/version`, and `Pids` the
directories in `/proc` that have numbers for names.
-/

namespace SelfTraining.Monitor

open SelfTraining.Text SelfTraining.Stream

namespace LinuxParser

/-- `stoi`, and nothing where it throws. -/
def stoi (b : Bytes) : Option ℤ :=
  (leadingInt (b.dropWhile isSpace)).filter fun v => decide (-2 ^ 31 ≤ v ∧ v < 2 ^ 31)

/-- `std::map<string, string>`. -/
abbrev ProcMap := Bytes → Option Bytes

/-- `insert`, which leaves a key that is there as it is. -/
def ProcMap.insert (m : ProcMap) (key value : Bytes) : ProcMap := fun k =>
  (m k).or (if k = key then some value else none)

/-- The variables of `TotalProcesses` and `RunningProcesses`. -/
structure ProcVars where
  key : Bytes
  value : Bytes
  procMap : ProcMap

/-- One turn of their loop: what a line has no word for stays as it was. -/
def ProcVars.next (s : ProcVars) (line : Bytes) : ProcVars :=
  let key := (words line)[0]?.getD s.key
  let value := (words line)[1]?.getD s.value
  ⟨key, value, s.procMap.insert key value⟩

def procMap (stat : Bytes) : ProcMap :=
  ((getlines stat).foldl ProcVars.next ⟨[], [], fun _ => none⟩).procMap

/-- The count that stands behind a key; a key that is not in the map is given an empty text. -/
def procCount (key : Bytes) : Option Bytes → Option ℤ
  | none => some 0
  | some stat => stoi ((procMap stat key).getD [])

def totalProcesses : Option Bytes → Option ℤ := procCount (bytes "processes")

def runningProcesses : Option Bytes → Option ℤ := procCount (bytes "procs_running")

/-- `Kernel`, from the content of `/proc/version` if that can be opened. -/
def kernel : Option Bytes → Bytes
  | none => []
  | some version => (words (Framing.upTo 10 version))[2]?.getD []

/-- What `readdir` gives: a name, and whether it is that of a directory. -/
structure Dirent where
  name : Bytes
  isDir : Bool

/-- One turn of the loop of `Pids`, and nothing where `stoi` throws. -/
def pidsTurn (pids : List ℤ) (file : Dirent) : Option (List ℤ) :=
  if file.isDir then
    if file.name.all isDigit then (stoi file.name).map fun pid => pids ++ [pid]
    else some pids
  else some pids

def pids (directory : List Dirent) : Option (List ℤ) := directory.foldlM pidsTurn []

/-- A number that the kernel prints is read if it fits into an `int`, and else the reader
throws. -/
lemma stoi_digits (n : ℕ) : stoi (digits n) = if n < 2 ^ 31 then some (n : ℤ) else none := by
  have hdrop : (digits n).dropWhile isSpace = digits n := by
    rw [List.dropWhile_eq_self_iff]
    intro hpos
    simp [(isWord_digits n).noSpace _ (List.getElem_mem hpos)]
  rw [stoi, hdrop, leadingInt_of_leadingNat (leadingNat_digits n), Option.filter_some]
  by_cases h : n < 2 ^ 31
  · have hint : -2 ^ 31 ≤ (n : ℤ) ∧ (n : ℤ) < 2 ^ 31 := ⟨by omega, by omega⟩
    rw [if_pos (decide_eq_true hint), if_pos h]
  · have hint : ¬ (-2 ^ 31 ≤ (n : ℤ) ∧ (n : ℤ) < 2 ^ 31) := fun hle => h (by omega)
    rw [decide_eq_false hint, if_neg h]
    rfl

lemma procCount_int {key : Bytes} {stat : Option Bytes} {v : ℤ} (h : procCount key stat = some v) :
    -2 ^ 31 ≤ v ∧ v < 2 ^ 31 := by
  cases stat with
  | none =>
    obtain rfl : 0 = v := Option.some.inj h
    decide
  | some stat =>
    obtain ⟨-, hint⟩ := Option.filter_eq_some_iff.mp h
    exact of_decide_eq_true hint

end LinuxParser

/-! ### What the kernel prints -/

/-- A line of `/proc/stat`: a key and numbers. -/
structure StatLine where
  key : Bytes
  value : ℕ
  more : List ℕ
  isWord : IsWord key

/-- Numbers with a blank before each. -/
def spaced (ns : List ℕ) : Bytes := (ns.map digits).flatMap fun w => 32 :: w

lemma isWord_of_mem_digits {ns : List ℕ} : ∀ w ∈ ns.map digits, IsWord w := by
  intro w hw
  obtain ⟨n, -, rfl⟩ := List.mem_map.mp hw
  exact isWord_digits n

lemma notMem_spaced (ns : List ℕ) : 10 ∉ spaced ns := by
  intro hmem
  obtain ⟨w, hw, hmem⟩ := List.mem_flatMap.mp hmem
  rcases List.mem_cons.mp hmem with hmem | hmem
  · exact absurd hmem (by decide)
  · exact absurd ((isWord_of_mem_digits w hw).noSpace 10 hmem) (by decide)

namespace StatLine

variable (l : StatLine)

def text : Bytes := l.key ++ spaced (l.value :: l.more)

lemma words_text : words l.text = l.key :: (l.value :: l.more).map digits :=
  words_line l.isWord isWord_of_mem_digits

lemma notMem_text : 10 ∉ l.text := by
  intro hmem
  rcases List.mem_append.mp hmem with hmem | hmem
  · exact absurd (l.isWord.noSpace 10 hmem) (by decide)
  · exact notMem_spaced _ hmem

end StatLine

/-- What the kernel counts: the jiffies of all processors on the first line, and the processes
that were started and those that run behind their keys. -/
structure KernelStat where
  jiffies : List ℕ
  lines : List StatLine
  total : ℕ
  running : ℕ
  total_eq : (lines.find? fun l => decide (l.key = bytes "processes")).map StatLine.value =
    some total
  running_eq : (lines.find? fun l => decide (l.key = bytes "procs_running")).map StatLine.value =
    some running

/-- The first line, with two blanks behind its key. -/
def KernelStat.cpuText (k : KernelStat) : Bytes := bytes "cpu " ++ spaced k.jiffies

/-- The file is printed line by line. -/
def KernelStat.text (k : KernelStat) : Bytes :=
  Framing.stream 10 (k.cpuText :: k.lines.map StatLine.text)

lemma KernelStat.words_cpuText (k : KernelStat) :
    words k.cpuText = bytes "cpu" :: k.jiffies.map digits := by
  have hwords : (k.jiffies.map digits).flatMap words = k.jiffies.map digits :=
    (List.flatMap_congr fun w hw => (isWord_of_mem_digits w hw).words).trans
      (List.flatMap_singleton' _)
  rw [cpuText, spaced, words_joined, hwords]
  rfl

lemma KernelStat.notMem_cpuText (k : KernelStat) : 10 ∉ k.cpuText := by
  intro hmem
  rcases List.mem_append.mp hmem with hmem | hmem
  · exact absurd hmem (by decide)
  · exact notMem_spaced _ hmem

/-- `/proc/version` says that it is Linux, that this is its version, and which one. -/
structure Version where
  release : Bytes
  more : Bytes
  isWord : IsWord release

def Version.text (v : Version) : Bytes :=
  bytes "Linux version " ++ v.release ++ 32 :: v.more ++ [10]

/-- What stands in `/proc`: directories of processes, and others without a number for a name. -/
inductive Entry
  | process (pid : ℕ)
  | other (file : LinuxParser.Dirent) (h : file.isDir = true → file.name.all isDigit = false)

namespace Entry

def dirent : Entry → LinuxParser.Dirent
  | process pid => ⟨digits pid, true⟩
  | other file _ => file

def pid? : Entry → Option ℕ
  | process pid => some pid
  | other _ _ => none

end Entry

/-! ### And what is read -/

namespace LinuxParser

lemma procMap_foldl (lines : List StatLine) (s : ProcVars) (key : Bytes) :
    ((lines.map StatLine.text).foldl ProcVars.next s).procMap key = (s.procMap key).or
      ((lines.find? fun l => decide (l.key = key)).map fun l => digits l.value) := by
  induction lines generalizing s with
  | nil => simp
  | cons l lines ih =>
    have hnext : (s.next l.text).procMap = s.procMap.insert l.key (digits l.value) := by
      unfold ProcVars.next
      rw [l.words_text]
      rfl
    rw [List.map_cons, List.foldl_cons, ih, hnext, ProcMap.insert, Option.or_assoc]
    congr 1
    by_cases hkey : l.key = key
    · rw [if_pos hkey.symm, List.find?_cons_of_pos (by simpa using hkey)]
      rfl
    · rw [if_neg fun h => hkey h.symm, List.find?_cons_of_neg (by simpa using hkey)]
      rfl

variable (k : KernelStat)

lemma getlines_stat : getlines k.text = k.cpuText :: k.lines.map StatLine.text := by
  refine getlines_stream fun line hline => ?_
  rcases List.mem_cons.mp hline with rfl | hline
  · exact k.notMem_cpuText
  · obtain ⟨l, -, rfl⟩ := List.mem_map.mp hline
    exact l.notMem_text

lemma cpuUtilization_stat : cpuUtilization k.text = k.jiffies.map digits := by
  have hline : Framing.upTo 10 k.text = k.cpuText := by
    unfold KernelStat.text
    rw [Framing.stream, List.flatMap_cons, List.append_assoc]
    exact Framing.upTo_append_cons k.notMem_cpuText _
  have hnot : ∀ w ∈ k.jiffies.map digits, decide (w ≠ bytes "cpu") = true := by
    intro w hw
    obtain ⟨n, -, rfl⟩ := List.mem_map.mp hw
    refine decide_eq_true fun hcpu => ?_
    have hdigit : isDigit 99 = true := isDigit_of_mem (n := n) (by rw [hcpu]; decide)
    exact absurd hdigit (by decide)
  unfold cpuUtilization
  rw [hline, k.words_cpuText, List.filter_cons_of_neg (by simp)]
  exact List.filter_eq_self.mpr hnot

lemma procCount_stat {key : Bytes} {n : ℕ} (hkey : key ≠ bytes "cpu")
    (hn : (k.lines.find? fun l => decide (l.key = key)).map StatLine.value = some n) :
    procCount key (some k.text) = if n < 2 ^ 31 then some (n : ℤ) else none := by
  obtain ⟨l, hl, rfl⟩ := Option.map_eq_some_iff.mp hn
  have hfirst : (ProcVars.next ⟨[], [], fun _ => none⟩ k.cpuText).procMap key = none := by
    simp [ProcVars.next, k.words_cpuText, ProcMap.insert, hkey]
  have hmap : procMap k.text key = some (digits l.value) := by
    unfold procMap
    rw [getlines_stat, List.foldl_cons, procMap_foldl, hfirst, hl]
    rfl
  calc procCount key (some k.text) = stoi ((procMap k.text key).getD []) := rfl
    _ = stoi (digits l.value) := by rw [hmap, Option.getD_some]
    _ = if l.value < 2 ^ 31 then some (l.value : ℤ) else none := stoi_digits l.value

lemma totalProcesses_stat : totalProcesses (some k.text) =
    if k.total < 2 ^ 31 then some (k.total : ℤ) else none :=
  procCount_stat k (by decide) k.total_eq

lemma runningProcesses_stat : runningProcesses (some k.text) =
    if k.running < 2 ^ 31 then some (k.running : ℤ) else none :=
  procCount_stat k (by decide) k.running_eq

lemma kernel_version (v : Version) : kernel (some v.text) = v.release := by
  have hlinux : IsWord (bytes "Linux") := by decide
  have hversion : IsWord (bytes "version") := by decide
  have hnot : 10 ∉ bytes "Linux version " ++ v.release ++ [32] := by
    intro hmem
    rcases List.mem_append.mp hmem with hmem | hmem
    · rcases List.mem_append.mp hmem with hmem | hmem
      · exact absurd hmem (by decide)
      · exact absurd (v.isWord.noSpace 10 hmem) (by decide)
    · exact absurd hmem (by decide)
  -- whatever comes behind the release, on this line or not
  obtain ⟨rest, hrest⟩ : ∃ rest, Framing.upTo 10 v.text =
      bytes "Linux" ++ 32 :: (bytes "version" ++ 32 :: (v.release ++ 32 :: rest)) := by
    refine ⟨Framing.upTo 10 (v.more ++ [10]), ?_⟩
    have htext : v.text = (bytes "Linux version " ++ v.release ++ [32]) ++ (v.more ++ [10]) := by
      simp [Version.text]
    rw [htext, Framing.upTo, List.takeWhile_append_of_pos fun c hc => by
      simpa using fun h : c = 10 => hnot (h ▸ hc)]
    simp [Framing.upTo, bytes]
  calc kernel (some v.text) = (words (Framing.upTo 10 v.text))[2]?.getD [] := rfl
    _ = v.release := by
      rw [hrest, hlinux.words_append rfl, hversion.words_append rfl, v.isWord.words_append rfl]
      rfl

lemma foldlM_pidsTurn (dir : List Entry) (ps : List ℤ) :
    (dir.map Entry.dirent).foldlM pidsTurn ps =
      if ∀ pid ∈ dir.filterMap Entry.pid?, pid < 2 ^ 31 then
        some (ps ++ (dir.filterMap Entry.pid?).map fun pid : ℕ => (pid : ℤ))
      else none := by
  induction dir generalizing ps with
  | nil => simp
  | cons e dir ih =>
    cases e with
    | process pid =>
      have hdigits : (digits pid).all isDigit = true :=
        List.all_eq_true.mpr fun c hc => isDigit_of_mem hc
      have hturn : pidsTurn ps (Entry.process pid).dirent =
          if pid < 2 ^ 31 then some (ps ++ [(pid : ℤ)]) else none := by
        unfold pidsTurn Entry.dirent
        dsimp only
        rw [if_pos rfl, if_pos hdigits, stoi_digits]
        split
        · rfl
        · rfl
      have hpid : (Entry.process pid :: dir).filterMap Entry.pid? =
          pid :: dir.filterMap Entry.pid? := rfl
      rw [List.map_cons, List.foldlM_cons, hturn, hpid]
      simp only [List.forall_mem_cons]
      by_cases h : pid < 2 ^ 31
      · rw [if_pos h, Option.bind_eq_bind, Option.bind_some, ih]
        simp only [h, true_and, List.map_cons, List.append_assoc, List.singleton_append]
      · rw [if_neg h, if_neg fun hall => h hall.1]
        rfl
    | other file hfile =>
      have hturn : pidsTurn ps (Entry.other file hfile).dirent = some ps := by
        unfold pidsTurn Entry.dirent
        dsimp only
        split
        · next hdir => rw [hfile hdir, if_neg Bool.false_ne_true]
        · rfl
      have hpid : (Entry.other file hfile :: dir).filterMap Entry.pid? =
          dir.filterMap Entry.pid? := rfl
      rw [List.map_cons, List.foldlM_cons, hturn, hpid]
      exact ih ps

lemma pids_listing (dir : List Entry) : pids (dir.map Entry.dirent) =
    if ∀ pid ∈ dir.filterMap Entry.pid?, pid < 2 ^ 31 then
      some ((dir.filterMap Entry.pid?).map fun pid : ℕ => (pid : ℤ))
    else none := by
  rw [pids, foldlM_pidsTurn, List.nil_append]

end LinuxParser

/-- **What the kernel prints is read back**, as far as an `int` goes: the jiffies and the two
counts of `/proc/stat` whatever else stands in it, the release, and the processes in their order.
A count or a process number that is larger makes the reader throw. -/
theorem kernel_read_back (k : KernelStat) (v : Version) (dir : List Entry) :
    LinuxParser.cpuUtilization k.text = k.jiffies.map digits ∧
    LinuxParser.totalProcesses (some k.text) =
      (if k.total < 2 ^ 31 then some (k.total : ℤ) else none) ∧
    LinuxParser.runningProcesses (some k.text) =
      (if k.running < 2 ^ 31 then some (k.running : ℤ) else none) ∧
    LinuxParser.kernel (some v.text) = v.release ∧
    LinuxParser.pids (dir.map Entry.dirent) =
      if ∀ pid ∈ dir.filterMap Entry.pid?, pid < 2 ^ 31 then
        some ((dir.filterMap Entry.pid?).map fun pid : ℕ => (pid : ℤ))
      else none :=
  ⟨LinuxParser.cpuUtilization_stat k, LinuxParser.totalProcesses_stat k,
    LinuxParser.runningProcesses_stat k, LinuxParser.kernel_version v,
    LinuxParser.pids_listing dir⟩

/-! ### One kernel -/

def bootedStat : KernelStat where
  jiffies := [4705, 356, 584, 3699176, 23060, 0, 23, 0, 0, 0]
  lines := [⟨bytes "cpu0", 4705, [356, 584, 3699176, 23060, 0, 23, 0, 0, 0], by decide⟩,
    ⟨bytes "ctxt", 38014093, [], by decide⟩, ⟨bytes "btime", 1694000000, [], by decide⟩,
    ⟨bytes "processes", 26442, [], by decide⟩, ⟨bytes "procs_running", 2, [], by decide⟩,
    ⟨bytes "procs_blocked", 0, [], by decide⟩]
  total := 26442
  running := 2
  total_eq := by decide
  running_eq := by decide

def bootedVersion : Version where
  release := bytes "6.1.0-13-amd64"
  more := bytes "(gcc-12) #1 SMP"
  isWord := by decide

/-- Two processes in a listing with directories and files of other names. -/
theorem kernel_read_back_booted :
    bootedStat.text.take 38 = bytes "cpu  4705 356 584 3699176 23060 0 23 0" ∧
    LinuxParser.cpuUtilization bootedStat.text =
      [4705, 356, 584, 3699176, 23060, 0, 23, 0, 0, 0].map digits ∧
    LinuxParser.totalProcesses (some bootedStat.text) = some 26442 ∧
    LinuxParser.runningProcesses (some bootedStat.text) = some 2 ∧
    LinuxParser.kernel (some bootedVersion.text) = bytes "6.1.0-13-amd64" ∧
    LinuxParser.pids ([.process 1, .other ⟨bytes "acpi", true⟩ (by decide), .process 26440,
      .other ⟨bytes "1", false⟩ (by decide)].map Entry.dirent) = some [1, 26440] := by
  obtain ⟨hcpu, htotal, hrunning, hkernel, hpids⟩ := kernel_read_back bootedStat bootedVersion
    [.process 1, .other ⟨bytes "acpi", true⟩ (by decide), .process 26440,
      .other ⟨bytes "1", false⟩ (by decide)]
  exact ⟨by decide +kernel, hcpu, htotal, hrunning, hkernel, hpids⟩

end SelfTraining.Monitor
