import SelfTraining.Lib.Stream
import SelfTraining.Lib.Framing
import SelfTraining.Lib.Lookup
import Mathlib.Algebra.Order.BigOperators.Group.List

/-!
The counters of `/proc/stat`, as `LinuxParser` reads them.

Every function opens the file anew, so each read has a content of its own. A sum of `long`s
that overflows is no result.
-/

namespace SelfTraining.Monitor

open SelfTraining.Text SelfTraining.Stream

namespace LinuxParser

def kIdle : ℕ := 3
def kIOwait : ℕ := 4

def cpuUtilization (stat : Bytes) : List Bytes :=
  (words (Framing.upTo 10 stat)).filter fun data => decide (data ≠ bytes "cpu")

/-- `stol` of a counter; nothing where the vector has no such element. -/
def counter (stat : Bytes) (i : ℕ) : Option ℤ := (cpuUtilization stat)[i]?.bind stol

/-- A sum of two `long`s, and nothing where it overflows. -/
def addLong (a b : ℤ) : Option ℤ := if IsLong (a + b) then some (a + b) else none

def subLong (a b : ℤ) : Option ℤ := if IsLong (a - b) then some (a - b) else none

lemma addLong_eq_some {a b r : ℤ} : addLong a b = some r ↔ IsLong (a + b) ∧ a + b = r := by
  unfold addLong
  split
  · next h => simp [h]
  · next h => simp [h]

lemma subLong_eq_some {a b r : ℤ} : subLong a b = some r ↔ IsLong (a - b) ∧ a - b = r := by
  unfold subLong
  split
  · next h => simp [h]
  · next h => simp [h]

def idleJiffies (stat : Bytes) : Option ℤ := do
  let idle ← counter stat kIdle
  let iowait ← counter stat kIOwait
  addLong idle iowait

/-- The loop of `ActiveJiffies`. -/
def sumJiffies (stat : Bytes) : Option ℤ :=
  (cpuUtilization stat).foldlM (fun active i => (stol i).bind (addLong active)) 0

/-- `ActiveJiffies`, which reads `sum` and then `sub`. -/
def activeJiffies (sum sub : Bytes) : Option ℤ := do
  let active ← sumJiffies sum
  let idle ← idleJiffies sub
  subLong active idle

/-- `Jiffies`, whose `IdleJiffies` reads `add`. -/
def jiffies (sum sub add : Bytes) : Option ℤ := do
  let active ← activeJiffies sum sub
  let idle ← idleJiffies add
  addLong active idle

end LinuxParser

/-- Adding the numbers up one after the other stays in a `long`. -/
def SumsFit (l : List ℤ) : Prop := ∀ p ∈ l.inits, IsLong p.sum

instance (l : List ℤ) : Decidable (SumsFit l) := inferInstanceAs (Decidable (∀ p ∈ l.inits, _))

lemma sumsFit_snoc {l : List ℤ} {v : ℤ} :
    SumsFit (l ++ [v]) ↔ SumsFit l ∧ IsLong (l.sum + v) := by
  unfold SumsFit
  simp only [List.mem_inits, List.prefix_concat_iff, or_imp, forall_and, forall_eq]
  rw [List.sum_append, List.sum_singleton, and_comm]

lemma LinuxParser.foldlM_addLong {l : List ℤ} {r : ℤ} :
    l.foldlM addLong 0 = some r ↔ SumsFit l ∧ l.sum = r := by
  induction l using List.reverseRecOn generalizing r with
  | nil => simp [SumsFit, IsLong]
  | append_singleton l v ih =>
    rw [List.foldlM_append, sumsFit_snoc, List.sum_append, List.sum_singleton]
    simp only [List.foldlM_cons, List.foldlM_nil, Option.bind_eq_bind, Option.bind_eq_some_iff,
      ih, addLong_eq_some, Option.pure_def]
    constructor
    · rintro ⟨_, ⟨hfit, rfl⟩, _, ⟨hlong, rfl⟩, hr⟩
      exact ⟨⟨hfit, hlong⟩, Option.some.inj hr⟩
    · rintro ⟨⟨hfit, hlong⟩, rfl⟩
      exact ⟨_, ⟨hfit, rfl⟩, _, ⟨hlong, rfl⟩, rfl⟩

/-! ### The first line -/

/-- The counters of a line; there are at least those that the program names. -/
structure CpuLine where
  user : ℤ
  nice : ℤ
  system : ℤ
  idle : ℤ
  iowait : ℤ
  more : List ℤ

namespace CpuLine

def counters (c : CpuLine) : List ℤ :=
  c.user :: c.nice :: c.system :: c.idle :: c.iowait :: c.more

/-- The jiffies in which nothing was run. -/
def idled (c : CpuLine) : ℤ := c.idle + c.iowait

/-- The other jiffies. -/
def busy (c : CpuLine) : ℤ := c.user + c.nice + c.system + c.more.sum

lemma sum_counters (c : CpuLine) : c.counters.sum = c.busy + c.idled := by
  unfold counters busy idled
  simp only [List.sum_cons]
  omega

/-- No counter is less. -/
def Le (c d : CpuLine) : Prop := List.Forall₂ (· ≤ ·) c.counters d.counters

lemma Le.idled {c d : CpuLine} (h : c.Le d) : c.idled ≤ d.idled := by
  unfold Le counters at h
  simp only [List.forall₂_cons] at h
  obtain ⟨-, -, -, hidle, hiowait, -⟩ := h
  exact add_le_add hidle hiowait

lemma Le.busy {c d : CpuLine} (h : c.Le d) : c.busy ≤ d.busy := by
  unfold Le counters at h
  simp only [List.forall₂_cons] at h
  obtain ⟨huser, hnice, hsystem, -, -, hmore⟩ := h
  exact add_le_add (add_le_add (add_le_add huser hnice) hsystem) hmore.sum_le_sum

end CpuLine

/-- A content of `/proc/stat` with the counters that its first line has. -/
structure StatFile extends CpuLine where
  text : Bytes
  reads : (LinuxParser.cpuUtilization text).map stol = toCpuLine.counters.map some

namespace StatFile

open LinuxParser

lemma counter_eq (f : StatFile) (i : ℕ) : counter f.text i = f.counters[i]? := by
  have h := congrArg (fun l => l[i]?) f.reads
  simp only [List.getElem?_map] at h
  unfold counter
  cases hw : (cpuUtilization f.text)[i]? with
  | none =>
    rw [hw] at h
    cases hc : f.counters[i]? with
    | none => rfl
    | some c => simp [hc] at h
  | some w =>
    rw [hw] at h
    cases hc : f.counters[i]? with
    | none => simp [hc] at h
    | some c => simpa [hc] using h

lemma idleJiffies_eq_some (f : StatFile) {r : ℤ} :
    idleJiffies f.text = some r ↔ IsLong f.idled ∧ f.idled = r := by
  unfold idleJiffies
  rw [counter_eq, counter_eq]
  exact addLong_eq_some

lemma sumJiffies_eq_some (f : StatFile) {r : ℤ} : sumJiffies f.text = some r ↔
    SumsFit f.counters ∧ f.busy + f.idled = r := by
  unfold sumJiffies
  rw [Lookup.foldlM_bind f.reads, foldlM_addLong, CpuLine.sum_counters]

lemma jiffies_eq_some (f f' f'' : StatFile) {r : ℤ} : jiffies f.text f'.text f''.text = some r ↔
    (SumsFit f.counters ∧ IsLong f'.idled ∧ IsLong (f.busy + f.idled - f'.idled) ∧
      IsLong f''.idled ∧ IsLong (f.busy + f.idled - f'.idled + f''.idled)) ∧
    f.busy + f.idled - f'.idled + f''.idled = r := by
  unfold jiffies activeJiffies
  simp only [Option.bind_eq_bind, Option.bind_eq_some_iff, sumJiffies_eq_some,
    idleJiffies_eq_some, subLong_eq_some, addLong_eq_some]
  constructor
  · rintro ⟨_, ⟨_, ⟨hsum, rfl⟩, _, ⟨hsub, rfl⟩, hactive, rfl⟩, _, ⟨hadd, rfl⟩, htotal, rfl⟩
    exact ⟨⟨hsum, hsub, hactive, hadd, htotal⟩, rfl⟩
  · rintro ⟨⟨hsum, hsub, hactive, hadd, htotal⟩, rfl⟩
    exact ⟨_, ⟨_, ⟨hsum, rfl⟩, _, ⟨hsub, rfl⟩, hactive, rfl⟩, _, ⟨hadd, rfl⟩, htotal, rfl⟩

end StatFile

/-! ### Printing a first line -/

/-- A file of one line with these counters. -/
def statText (counters : List ℕ) : Bytes :=
  bytes "cpu" ++ (counters.map digits).flatMap (fun w => 32 :: w) ++ [10]

lemma isWord_cpu : IsWord (bytes "cpu") where
  ne_nil := by decide
  noSpace c hc := by
    have hbytes : bytes "cpu" = [99, 112, 117] := rfl
    simp only [hbytes, List.mem_cons, List.not_mem_nil, or_false] at hc
    rcases hc with rfl | rfl | rfl <;> rfl

/-- The counters that are printed are those that are read. -/
theorem cpuUtilization_statText (counters : List ℕ) :
    LinuxParser.cpuUtilization (statText counters) = counters.map digits := by
  have hwords : ∀ w ∈ counters.map digits, IsWord w := by
    intro w hw
    obtain ⟨n, -, rfl⟩ := List.mem_map.mp hw
    exact isWord_digits n
  have hline : Framing.upTo 10 (statText counters) =
      bytes "cpu" ++ (counters.map digits).flatMap fun w => 32 :: w := by
    refine Framing.upTo_append_cons (fun hmem => ?_) []
    rcases List.mem_append.mp hmem with hmem | hmem
    · exact absurd (isWord_cpu.noSpace 10 hmem) (by decide)
    · obtain ⟨w, hw, hmem⟩ := List.mem_flatMap.mp hmem
      rcases List.mem_cons.mp hmem with hmem | hmem
      · exact absurd hmem (by decide)
      · exact absurd ((hwords w hw).noSpace 10 hmem) (by decide)
  have hnotcpu : ∀ w ∈ counters.map digits, w ≠ bytes "cpu" := by
    rintro w hw rfl
    obtain ⟨n, -, hn⟩ := List.mem_map.mp hw
    have hdigit : isDigit 99 = true := isDigit_of_mem (n := n) (by rw [hn]; decide)
    exact absurd hdigit (by decide)
  unfold LinuxParser.cpuUtilization
  rw [hline, words_line isWord_cpu hwords, List.filter_cons_of_neg (by simp)]
  exact List.filter_eq_self.mpr fun w hw => by simpa using hnotcpu w hw

/-- The file with these counters. -/
def StatFile.ofCounters (user nice system idle iowait : ℕ) (more : List ℕ)
    (h : ∀ n ∈ user :: nice :: system :: idle :: iowait :: more, n < 2 ^ 63) : StatFile where
  user := user
  nice := nice
  system := system
  idle := idle
  iowait := iowait
  more := more.map fun n : ℕ => (n : ℤ)
  text := statText (user :: nice :: system :: idle :: iowait :: more)
  reads := by
    change _ = List.map some
      ((user :: nice :: system :: idle :: iowait :: more).map fun n : ℕ => (n : ℤ))
    rw [cpuUtilization_statText, List.map_map, List.map_map]
    exact List.map_congr_left fun n hn => stol_digits (h n hn)

end SelfTraining.Monitor
