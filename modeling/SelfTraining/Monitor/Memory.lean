import SelfTraining.Monitor.Processor

/-!
The load of the memory.

`MemoryUtilization` puts the lines of `/proc/meminfo` into a map, of each key the first value,
and works the load out from four keys. A key that the map does not have counts as zero, and the
last of the four is written without the colon that the file has behind every key.
-/

namespace SelfTraining.Monitor

open SelfTraining.Text SelfTraining.Stream

namespace LinuxParser

/-- The number that `>>` reads into an `int` from a word. -/
def readInt (word : Bytes) : ℤ :=
  match leadingInt word with
  | none => 0
  | some v => max (-2 ^ 31) (min v (2 ^ 31 - 1))

/-- A `long` put into an `int`. -/
def toInt (v : ℤ) : ℤ := v.bmod (2 ^ 32)

/-- `std::map<std::string, long>`. -/
abbrev MemMap := Bytes → Option ℤ

namespace MemMap

def empty : MemMap := fun _ => none

/-- `insert`, which leaves a key that is there as it is. -/
def insert (m : MemMap) (key : Bytes) (value : ℤ) : MemMap := fun k =>
  (m k).or (if k = key then some value else none)

/-- `operator[]`. -/
def get (m : MemMap) (key : Bytes) : ℤ := (m key).getD 0

end MemMap

/-- The variables of `MemoryUtilization`. -/
structure MemVars where
  key : Bytes
  value : ℤ
  memMap : MemMap

/-- One turn of its loop: what a line has no word for stays as it was. -/
def MemVars.next (s : MemVars) (line : Bytes) : MemVars :=
  let key := (words line)[0]?.getD s.key
  let value := ((words line)[1]?.map readInt).getD s.value
  ⟨key, value, s.memMap.insert key value⟩

/-- The map after the loop; `value` is not written before it. -/
def memMap (value : ℤ) (meminfo : Bytes) : MemMap :=
  ((getlines meminfo).foldl MemVars.next ⟨[], value, .empty⟩).memMap

def used (m : MemMap) : ℤ :=
  toInt (m.get (bytes "MemTotal:") - m.get (bytes "MemFree:") + m.get (bytes "SReclaimable:") -
    m.get (bytes "Shmem"))

/-- `MemoryUtilization`, from the content of the file if that can be opened. -/
def memoryUtilization (value : ℤ) : Option Bytes → Load
  | none => ⟨0, 1⟩
  | some meminfo =>
    ⟨used (memMap value meminfo), (memMap value meminfo).get (bytes "MemTotal:")⟩

end LinuxParser

/-! ### The format of the kernel -/

/-- A line with a key and a value. -/
def entryOf (line : Bytes) : Option (Bytes × ℕ) := do
  let key ← (words line)[0]?
  let value ← (words line)[1]?.bind leadingNat
  return (key, value)

/-- A key stands on one line, with this value. -/
def Once (entries : List (Bytes × ℕ)) (key : Bytes) (value : ℕ) : Prop :=
  entries.filter (fun e => decide (e.1 = key)) = [(key, value)]

instance (entries : List (Bytes × ℕ)) (key : Bytes) (value : ℕ) :
    Decidable (Once entries key value) := inferInstanceAs (Decidable (_ = _))

/-- A content of `/proc/meminfo`. -/
structure MemInfo where
  text : Bytes
  entries : List (Bytes × ℕ)
  memTotal : ℕ
  memFree : ℕ
  sReclaimable : ℕ
  shmem : ℕ
  lines : (getlines text).map entryOf = entries.map some
  memTotal_once : Once entries (bytes "MemTotal:") memTotal
  memFree_once : Once entries (bytes "MemFree:") memFree
  sReclaimable_once : Once entries (bytes "SReclaimable:") sReclaimable
  shmem_once : Once entries (bytes "Shmem:") shmem
  memTotal_pos : 0 < memTotal
  memTotal_lt : memTotal < 2 ^ 31
  parts_le : memFree + sReclaimable + shmem ≤ memTotal

namespace MemInfo

/-- The first value of a key, as far as an `int` goes. -/
def valueOf (m : MemInfo) (key : Bytes) : Option ℕ :=
  (m.entries.find? fun e => decide (e.1 = key)).map fun e => min e.2 (2 ^ 31 - 1)

/-- What stands behind the key `Shmem` without a colon, and zero where there is no such key. -/
def noColon (m : MemInfo) : ℕ := (m.valueOf (bytes "Shmem")).getD 0

end MemInfo

/-! ### The loop -/

namespace LinuxParser

lemma readInt_of_leadingNat {word : Bytes} {n : ℕ} (h : leadingNat word = some n) :
    readInt word = (min n (2 ^ 31 - 1) : ℕ) := by
  rw [readInt, leadingInt_of_leadingNat h]
  simp only
  omega

lemma memMap_next {line key : Bytes} {n : ℕ} (h : entryOf line = some (key, n)) (s : MemVars)
    (k : Bytes) : (s.next line).memMap k =
      (s.memMap k).or (if k = key then some ((min n (2 ^ 31 - 1) : ℕ) : ℤ) else none) := by
  unfold entryOf at h
  simp only [Option.bind_eq_bind, Option.bind_eq_some_iff, Option.pure_def] at h
  obtain ⟨key', hkey, value, ⟨word, hword, hvalue⟩, heq⟩ := h
  obtain ⟨rfl, rfl⟩ : key' = key ∧ value = n := by simpa using heq
  unfold MemVars.next MemMap.insert
  rw [hkey, hword, Option.map_some, Option.getD_some, Option.getD_some,
    readInt_of_leadingNat hvalue]

lemma memMap_foldl {lines : List Bytes} {entries : List (Bytes × ℕ)}
    (h : lines.map entryOf = entries.map some) (s : MemVars) (key : Bytes) :
    (lines.foldl MemVars.next s).memMap key = (s.memMap key).or
      ((entries.find? fun e => decide (e.1 = key)).map fun e =>
        ((min e.2 (2 ^ 31 - 1) : ℕ) : ℤ)) := by
  induction lines generalizing entries s with
  | nil =>
    obtain rfl : entries = [] := by simpa using h.symm
    simp
  | cons line lines ih =>
    cases entries with
    | nil => simp at h
    | cons e entries =>
      obtain ⟨hline, hlines⟩ := List.cons.inj h
      rw [List.foldl_cons, ih hlines, memMap_next hline, Option.or_assoc]
      congr 1
      by_cases hkey : e.1 = key
      · rw [if_pos hkey.symm, List.find?_cons_of_pos (by simpa using hkey)]
        rfl
      · rw [if_neg fun h => hkey h.symm, List.find?_cons_of_neg (by simpa using hkey)]
        rfl

lemma get_memMap (m : MemInfo) (value : ℤ) (key : Bytes) :
    (memMap value m.text).get key = ((m.valueOf key).getD 0 : ℕ) := by
  unfold memMap MemMap.get MemInfo.valueOf
  rw [memMap_foldl m.lines]
  cases m.entries.find? fun e => decide (e.1 = key) with
  | none => rfl
  | some e => rfl

end LinuxParser

/-! ### The fraction -/

namespace MemInfo

variable (m : MemInfo)

lemma valueOf_once {key : Bytes} {value : ℕ} (h : Once m.entries key value) :
    m.valueOf key = some (min value (2 ^ 31 - 1)) := by
  unfold valueOf
  rw [← List.head?_filter, h]
  rfl

lemma memoryUtilization_eq (value : ℤ) :
    LinuxParser.memoryUtilization value (some m.text) =
      ⟨LinuxParser.toInt (m.memTotal - m.memFree + m.sReclaimable - m.noColon), m.memTotal⟩ := by
  have hlt := m.memTotal_lt
  have hle := m.parts_le
  unfold LinuxParser.memoryUtilization LinuxParser.used
  simp only [LinuxParser.get_memMap]
  rw [m.valueOf_once m.memTotal_once, m.valueOf_once m.memFree_once,
    m.valueOf_once m.sReclaimable_once]
  have htotal : min m.memTotal (2 ^ 31 - 1) = m.memTotal := by omega
  have hfree : min m.memFree (2 ^ 31 - 1) = m.memFree := by omega
  have hrec : min m.sReclaimable (2 ^ 31 - 1) = m.sReclaimable := by omega
  simp only [Option.getD_some, htotal, hfree, hrec]
  rfl

lemma noColon_lt : m.noColon < 2 ^ 31 := by
  unfold noColon valueOf
  cases m.entries.find? fun e => decide (e.1 = bytes "Shmem") with
  | none => simp
  | some e =>
    simp only [Option.map_some, Option.getD_some]
    omega

/-- A number that an `int` cannot hold comes out negative, or it is none of these. -/
lemma toInt_between_iff {v t : ℤ} (hv : -2 ^ 31 ≤ v ∧ v < 2 ^ 32) (ht : t < 2 ^ 31) :
    0 ≤ LinuxParser.toInt v ∧ LinuxParser.toInt v ≤ t ↔ 0 ≤ v ∧ v ≤ t := by
  have hwrap : LinuxParser.toInt v = if v < 2 ^ 31 then v else v - 2 ^ 32 := by
    unfold LinuxParser.toInt
    split
    · exact Int.bmod_eq_of_le (by omega) (by omega)
    · rw [← Int.sub_bmod_right v (2 ^ 32)]
      exact Int.bmod_eq_of_le (by omega) (by omega)
  rw [hwrap]
  split
  · exact Iff.rfl
  · omega

/-- **The load of the memory is a proper fraction** if and only if what can be reclaimed is no
more than what is free and what stands behind `Shmem` without a colon, and these no more than
what there is and what can be reclaimed. -/
theorem memoryUtilization_proper_iff (value : ℤ) :
    (LinuxParser.memoryUtilization value (some m.text)).Proper ↔
      m.sReclaimable ≤ m.memFree + m.noColon ∧
        m.memFree + m.noColon ≤ m.memTotal + m.sReclaimable := by
  have hpos := m.memTotal_pos
  have hlt := m.memTotal_lt
  have hle := m.parts_le
  have hshmem := m.noColon_lt
  rw [memoryUtilization_eq, Load.proper_iff]
  dsimp only
  rw [toInt_between_iff (by omega) (by omega)]
  omega

end MemInfo

/-- Three tenths of this memory can be reclaimed and one tenth is free. -/
def cached : MemInfo where
  text := bytes "MemTotal: 1000 kB\nMemFree: 100 kB\nSReclaimable: 300 kB\nShmem: 50 kB\n"
  entries := [(bytes "MemTotal:", 1000), (bytes "MemFree:", 100), (bytes "SReclaimable:", 300),
    (bytes "Shmem:", 50)]
  memTotal := 1000
  memFree := 100
  sReclaimable := 300
  shmem := 50
  lines := by decide +kernel
  memTotal_once := by decide +kernel
  memFree_once := by decide +kernel
  sReclaimable_once := by decide +kernel
  shmem_once := by decide +kernel
  memTotal_pos := by decide
  memTotal_lt := by decide
  parts_le := by decide

/-- Six fifths of it are in use. -/
theorem cached_not_proper :
    ¬ (LinuxParser.memoryUtilization 0 (some cached.text)).Proper := by
  have hload : LinuxParser.memoryUtilization 0 (some cached.text) = ⟨1200, 1000⟩ := by
    decide +kernel
  rw [hload, Load.proper_iff]
  decide

end SelfTraining.Monitor
