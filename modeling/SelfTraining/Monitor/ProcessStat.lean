import SelfTraining.Monitor.LinuxParser

/-!
The line of `/proc/<pid>/stat`.

Its second field is the name of the command between parentheses, with whatever bytes a process
calls itself by. The fields are found by counting words.
-/

namespace SelfTraining.Monitor

open SelfTraining.Text SelfTraining.Stream

namespace LinuxParser

/-- One turn of the loop of `ActiveJiffies`, whose `data` is a new string each time. -/
def activeTurn (ws : List Bytes) (retval : ℤ) (i : ℕ) : Option ℤ :=
  if i > 12 then (stol (ws[i]?.getD [])).bind (addLong retval) else some retval

/-- `ActiveJiffies` of a process, from the content of its file if that can be opened. -/
def activeJiffiesOf : Option Bytes → Option ℤ
  | none => some 0
  | some stat => (List.range 17).foldlM (activeTurn (words (Framing.upTo 10 stat))) 0

/-- `UpTime` of a process. Where words are missing, `data` is the last one there was. -/
def upTimeOf (hertz : ℤ) : Option Bytes → Option ℤ
  | none => some 0
  | some stat =>
    match getlines stat with
    | [] => some 0
    | line :: _ =>
      (stol (((words line).take 22).getLast?.getD [])).map fun data => data.tdiv hertz

end LinuxParser

/-! ### The format of the kernel -/

/-- A line of `/proc/<pid>/stat`; `fields` are those from the fourth on. -/
structure ProcStat where
  pid : ℕ
  comm : Bytes
  state : UInt8
  fields : List ℤ
  state_visible : isSpace state = false
  length_fields : 19 ≤ fields.length

namespace ProcStat

/-- The fields as they are numbered, from 1 on. -/
def field (s : ProcStat) (n : ℕ) : ℤ := s.fields.getD (n - 4) 0

def utime (s : ProcStat) : ℤ := s.field 14
def stime (s : ProcStat) : ℤ := s.field 15
def cutime (s : ProcStat) : ℤ := s.field 16
def cstime (s : ProcStat) : ℤ := s.field 17
def starttime (s : ProcStat) : ℤ := s.field 22

/-- The ticks in which the process or a child of it was run. -/
def ticks (s : ProcStat) : ℤ := s.utime + s.stime + s.cutime + s.cstime

/-- The command between its parentheses. -/
def inParens (comm : Bytes) : Bytes := 40 :: (comm ++ [41])

/-- What stands behind the first field, piece by piece. -/
def pieces (s : ProcStat) : List Bytes := inParens s.comm :: [s.state] :: s.fields.map decimal

def line (s : ProcStat) : Bytes := digits s.pid ++ s.pieces.flatMap fun v => 32 :: v

def text (s : ProcStat) : Bytes := s.line ++ [10]

/-- The four times are added up to what they come to, and the start time is the one that is
read, whatever the clock rate. -/
structure Parses (s : ProcStat) : Prop where
  active : LinuxParser.activeJiffiesOf (some s.text) = some s.ticks
  upTime : ∀ hertz, LinuxParser.upTimeOf hertz (some s.text) = some (s.starttime.tdiv hertz)

/-- The numbers that are read fit into a `long`, and so do their sums. -/
structure Fits (s : ProcStat) : Prop where
  utime : IsLong s.utime
  stime : IsLong s.stime
  cutime : IsLong s.cutime
  cstime : IsLong s.cstime
  sum₂ : IsLong (s.utime + s.stime)
  sum₃ : IsLong (s.utime + s.stime + s.cutime)
  sum₄ : IsLong s.ticks
  starttime : IsLong s.starttime

end ProcStat

/-- No byte of the name stands between words. -/
def NoSpace (comm : Bytes) : Prop := ∀ c ∈ comm, isSpace c = false

instance (comm : Bytes) : Decidable (NoSpace comm) :=
  decidable_of_iff (comm.all (fun c => !isSpace c) = true) (by simp [NoSpace])

/-! ### The two loops -/

namespace LinuxParser

lemma foldlM_activeTurn (ws : List Bytes) :
    (List.range 17).foldlM (activeTurn ws) 0 =
      (((((stol (ws[13]?.getD [])).bind (addLong 0)).bind fun r =>
        (stol (ws[14]?.getD [])).bind (addLong r)).bind fun r =>
        (stol (ws[15]?.getD [])).bind (addLong r)).bind fun r =>
        (stol (ws[16]?.getD [])).bind (addLong r)) := by
  have hrange : List.range 17 = List.range 13 ++ [13, 14, 15, 16] := by decide
  have hskip : (List.range 13).foldlM (activeTurn ws) 0 = some 0 := rfl
  rw [hrange, List.foldlM_append, hskip]
  simp [activeTurn, List.foldlM_cons, Option.bind_assoc]

lemma foldlM_activeTurn_take (ws : List Bytes) :
    (List.range 17).foldlM (activeTurn (ws.take 17)) 0 =
      (List.range 17).foldlM (activeTurn ws) 0 := by
  have htake : ∀ i < 17, (ws.take 17)[i]? = ws[i]? := fun i hi => List.getElem?_take_of_lt hi
  rw [foldlM_activeTurn, foldlM_activeTurn, htake 13 (by omega), htake 14 (by omega),
    htake 15 (by omega), htake 16 (by omega)]

end LinuxParser

/-! ### The words of a line -/

lemma isWord_state (s : ProcStat) : IsWord [s.state] where
  ne_nil := List.cons_ne_nil _ _
  noSpace c hc := by
    obtain rfl := List.mem_singleton.mp hc
    exact s.state_visible

lemma NoSpace.isWord {comm : Bytes} (h : NoSpace comm) : IsWord (ProcStat.inParens comm) where
  ne_nil := List.cons_ne_nil _ _
  noSpace c hc := by
    rcases List.mem_cons.mp hc with rfl | hc
    · rfl
    · rcases List.mem_append.mp hc with hc | hc
      · exact h c hc
      · obtain rfl := List.mem_singleton.mp hc
        rfl

lemma two_le_words {comm : Bytes} (h : ¬ NoSpace comm) :
    2 ≤ (words (ProcStat.inParens comm)).length := by
  obtain ⟨sep, hmem, hsep⟩ : ∃ c ∈ comm, isSpace c = true := by simpa [NoSpace] using h
  obtain ⟨a, b, rfl⟩ := List.append_of_mem hmem
  have hsplit : ProcStat.inParens (a ++ sep :: b) = (40 :: a) ++ sep :: (b ++ [41]) := by
    simp [ProcStat.inParens]
  have hleft : words (40 :: a) ≠ [] := fun hnil =>
    absurd (words_eq_nil hnil 40 (by simp)) (by decide)
  have hright : words (b ++ [41]) ≠ [] := fun hnil =>
    absurd (words_eq_nil hnil 41 (by simp)) (by decide)
  rw [hsplit, words_append_cons _ _ hsep, List.length_append]
  have hl := List.length_pos_of_ne_nil hleft
  have hr := List.length_pos_of_ne_nil hright
  omega

namespace ProcStat

variable (s : ProcStat)

lemma words_line : words s.line =
    digits s.pid :: (words (inParens s.comm) ++ [s.state] :: s.fields.map decimal) := by
  have hfields : (s.fields.map decimal).flatMap words = s.fields.map decimal := by
    rw [List.flatMap_map, List.map_eq_flatMap]
    exact List.flatMap_congr fun v _ => (isWord_decimal v).words
  calc words s.line = words (digits s.pid) ++ s.pieces.flatMap words := words_joined _ _
    _ = [digits s.pid] ++ (words (inParens s.comm) ++ ([s.state] :: s.fields.map decimal)) := by
        rw [(isWord_digits s.pid).words, pieces, List.flatMap_cons, List.flatMap_cons,
          (isWord_state s).words, hfields]
        rfl
    _ = digits s.pid :: (words (inParens s.comm) ++ [s.state] :: s.fields.map decimal) := rfl

/-- Only the name could end the line. -/
lemma mem_line (h : 10 ∈ s.line) : 10 ∈ s.comm := by
  have hspace : isSpace 10 = true := rfl
  have hnot : ∀ {w : Bytes}, IsWord w → 10 ∉ w := by
    intro w hw hmem
    rw [hw.noSpace 10 hmem] at hspace
    cases hspace
  rcases List.mem_append.mp h with h | h
  · exact absurd h (hnot (isWord_digits _))
  · obtain ⟨v, hv, hmem⟩ := List.mem_flatMap.mp h
    have hmem : 10 ∈ v := (List.mem_cons.mp hmem).resolve_left (by decide)
    rcases List.mem_cons.mp hv with rfl | hv
    · simpa [inParens] using hmem
    · rcases List.mem_cons.mp hv with rfl | hv
      · exact absurd hmem (hnot (isWord_state s))
      · obtain ⟨i, -, rfl⟩ := List.mem_map.mp hv
        exact absurd hmem (hnot (isWord_decimal i))

variable {s}

lemma upTo_text (h : 10 ∉ s.comm) : Framing.upTo 10 s.text = s.line :=
  Framing.upTo_append_cons (fun hmem => h (s.mem_line hmem)) []

lemma getlines_text (h : 10 ∉ s.comm) : getlines s.text = [s.line] :=
  getlines_append_cons (fun hmem => h (s.mem_line hmem)) []

lemma notMem_of_noSpace (h : NoSpace s.comm) : 10 ∉ s.comm := fun hmem =>
  absurd (h 10 hmem) (by decide)

lemma getElem?_words_line (h : NoSpace s.comm) {n : ℕ} (hn : 4 ≤ n) (hn' : n ≤ 22) :
    (words s.line)[n - 1]? = some (decimal (s.field n)) := by
  obtain ⟨i, rfl⟩ : ∃ i, n = i + 4 := ⟨n - 4, by omega⟩
  have hlen := s.length_fields
  rw [words_line, h.isWord.words]
  have hi : i < s.fields.length := by omega
  simp [field, hi]

lemma stol_word (h : NoSpace s.comm) {n : ℕ} (hn : 4 ≤ n) (hn' : n ≤ 22) :
    stol ((words s.line)[n - 1]?.getD []) =
      if IsLong (s.field n) then some (s.field n) else none := by
  rw [getElem?_words_line h hn hn', Option.getD_some, stol_decimal]

/-! ### Names of one word -/

lemma bind_addLong {v retval r : ℤ} :
    (if IsLong v then some v else none).bind (LinuxParser.addLong retval) = some r ↔
      IsLong v ∧ IsLong (retval + v) ∧ retval + v = r := by
  split
  · next h => simp [LinuxParser.addLong_eq_some, h]
  · next h => simp [h]

lemma activeJiffiesOf_eq_some (h : NoSpace s.comm) {r : ℤ} :
    LinuxParser.activeJiffiesOf (some s.text) = some r ↔
      (IsLong s.utime ∧ IsLong s.stime ∧ IsLong s.cutime ∧ IsLong s.cstime) ∧
      (IsLong (s.utime + s.stime) ∧ IsLong (s.utime + s.stime + s.cutime) ∧ IsLong s.ticks) ∧
      s.ticks = r := by
  have hactive : LinuxParser.activeJiffiesOf (some s.text) =
      (List.range 17).foldlM (LinuxParser.activeTurn (words s.line)) 0 := by
    rw [← upTo_text (notMem_of_noSpace h)]
    rfl
  rw [hactive, LinuxParser.foldlM_activeTurn]
  have h14 := stol_word h (n := 14) (by omega) (by omega)
  have h15 := stol_word h (n := 15) (by omega) (by omega)
  have h16 := stol_word h (n := 16) (by omega) (by omega)
  have h17 := stol_word h (n := 17) (by omega) (by omega)
  simp only [Nat.reduceSub] at h14 h15 h16 h17
  rw [h14, h15, h16, h17]
  simp only [Option.bind_eq_some_iff (x := Option.bind _ _), bind_addLong]
  unfold ticks utime stime cutime cstime
  constructor
  · rintro ⟨r₃, ⟨r₂, ⟨r₁, ⟨hu, -, hr₁⟩, hs, hus, hr₂⟩, hcu, husc, hr₃⟩, hcs, hall, hr⟩
    obtain rfl : s.field 14 = r₁ := by omega
    subst hr₂ hr₃ hr
    exact ⟨⟨hu, hs, hcu, hcs⟩, ⟨hus, husc, hall⟩, rfl⟩
  · rintro ⟨⟨hu, hs, hcu, hcs⟩, ⟨hus, husc, hall⟩, rfl⟩
    exact ⟨_, ⟨_, ⟨_, ⟨hu, by rwa [zero_add], zero_add _⟩, hs, hus, rfl⟩, hcu, husc, rfl⟩,
      hcs, hall, rfl⟩

lemma upTimeOf_eq_some (h : NoSpace s.comm) {hertz r : ℤ} :
    LinuxParser.upTimeOf hertz (some s.text) = some r ↔
      IsLong s.starttime ∧ s.starttime.tdiv hertz = r := by
  have hlast : ((words s.line).take 22).getLast? = (words s.line)[21]? := by
    have hword := getElem?_words_line h (n := 22) (by omega) (by omega)
    simp only [Nat.reduceSub] at hword
    rw [List.getLast?_take, hword]
    rfl
  have hstart := stol_word h (n := 22) (by omega) (by omega)
  simp only [LinuxParser.upTimeOf, getlines_text (notMem_of_noSpace h), hlast]
  rw [hstart]
  unfold starttime
  split
  · next hlong => simp [hlong]
  · next hlong => simp [hlong]

/-- **A line whose name is one word** parses exactly when its numbers fit. -/
theorem parses_iff_fits (h : NoSpace s.comm) : s.Parses ↔ s.Fits := by
  constructor
  · rintro ⟨hactive, hup⟩
    obtain ⟨⟨hu, hs, hcu, hcs⟩, ⟨hus, husc, hall⟩, -⟩ := (activeJiffiesOf_eq_some h).mp hactive
    exact ⟨hu, hs, hcu, hcs, hus, husc, hall, ((upTimeOf_eq_some h).mp (hup 1)).1⟩
  · intro hfits
    refine ⟨(activeJiffiesOf_eq_some h).mpr ⟨⟨hfits.utime, hfits.stime, hfits.cutime,
      hfits.cstime⟩, ⟨hfits.sum₂, hfits.sum₃, hfits.sum₄⟩, rfl⟩, fun hertz => ?_⟩
    exact (upTimeOf_eq_some h).mpr ⟨hfits.starttime, rfl⟩

/-! ### Names with spaces -/

/-- A line of a process that has run for `cstime` ticks, in children that it waited for. -/
def waited (comm : Bytes) (cstime : ℤ) : ProcStat where
  pid := 1
  comm := comm
  state := 83
  fields := List.replicate 13 0 ++ cstime :: List.replicate 5 0
  state_visible := rfl
  length_fields := by simp

lemma isLong_zero : IsLong 0 := by decide

lemma waited_ticks (comm : Bytes) (cstime : ℤ) : (waited comm cstime).ticks = cstime :=
  Int.zero_add cstime

lemma waited_fits (comm : Bytes) {cstime : ℤ} (h : IsLong cstime) : (waited comm cstime).Fits where
  utime := isLong_zero
  stime := isLong_zero
  cutime := isLong_zero
  cstime := h
  sum₂ := isLong_zero
  sum₃ := isLong_zero
  sum₄ := by rwa [waited_ticks]
  starttime := isLong_zero

lemma upTo_waited {comm : Bytes} (h : 10 ∈ comm) (cstime : ℤ) :
    Framing.upTo 10 (waited comm cstime).text =
      Framing.upTo 10 (digits 1 ++ 32 :: 40 :: comm) := by
  obtain ⟨rest, hrest⟩ : ∃ rest, (waited comm cstime).text =
      (digits 1 ++ 32 :: 40 :: comm) ++ rest :=
    ⟨_, by simp [text, line, pieces, inParens, waited]; rfl⟩
  rw [hrest]
  exact Framing.upTo_append_of_mem (by simp [h]) rest

lemma take_words_waited {comm : Bytes} (h : ¬ NoSpace comm) (hend : 10 ∉ comm) (cstime : ℤ) :
    (words (Framing.upTo 10 (waited comm cstime).text)).take 17 =
      (digits 1 :: (words (inParens comm) ++
        [83] :: (List.replicate 13 (0 : ℤ)).map decimal)).take 17 := by
  have htwo := two_le_words h
  have hsplit : words (Framing.upTo 10 (waited comm cstime).text) =
      (digits 1 :: (words (inParens comm) ++ [83] :: (List.replicate 13 (0 : ℤ)).map decimal)) ++
        (cstime :: List.replicate 5 (0 : ℤ)).map decimal := by
    rw [@upTo_text (waited comm cstime) hend, words_line]
    simp [waited]
  rw [hsplit, List.take_append_of_le_length]
  simp only [List.length_cons, List.length_append, List.length_map, List.length_replicate]
  omega

/-- The field `cstime` is not among the words that are added up. -/
lemma active_waited {comm : Bytes} (h : ¬ NoSpace comm) (a b : ℤ) :
    LinuxParser.activeJiffiesOf (some (waited comm a).text) =
      LinuxParser.activeJiffiesOf (some (waited comm b).text) := by
  have hwords : (words (Framing.upTo 10 (waited comm a).text)).take 17 =
      (words (Framing.upTo 10 (waited comm b).text)).take 17 := by
    by_cases hend : 10 ∈ comm
    · rw [upTo_waited hend, upTo_waited hend]
    · rw [take_words_waited h hend, take_words_waited h hend]
  unfold LinuxParser.activeJiffiesOf
  dsimp only
  rw [← LinuxParser.foldlM_activeTurn_take, hwords, LinuxParser.foldlM_activeTurn_take]

lemma exists_not_parses {comm : Bytes} (h : ¬ NoSpace comm) :
    ∃ s : ProcStat, s.comm = comm ∧ s.Fits ∧ ¬ s.Parses := by
  by_contra hall
  have hparses : ∀ cstime, IsLong cstime → (waited comm cstime).Parses := by
    intro cstime hlong
    by_contra hnot
    exact hall ⟨_, rfl, waited_fits comm hlong, hnot⟩
  have hzero := (hparses 0 (by decide)).active
  have hone := (hparses 1 (by decide)).active
  rw [waited_ticks] at hzero hone
  rw [active_waited h 0 1, hone] at hzero
  cases hzero

end ProcStat

/-- **Lines of `/proc/<pid>/stat` parse for a command name**, whatever numbers fit, if and only if
no byte of the name stands between words; then just the lines whose numbers fit parse. -/
theorem stat_parses_iff (comm : Bytes) :
    ((∀ s : ProcStat, s.comm = comm → s.Fits → s.Parses) ↔ NoSpace comm) ∧
      (NoSpace comm → ∀ s : ProcStat, s.comm = comm → (s.Parses ↔ s.Fits)) := by
  refine ⟨⟨fun h => ?_, ?_⟩, ?_⟩
  · by_contra hspace
    obtain ⟨s, hcomm, hfits, hnot⟩ := ProcStat.exists_not_parses hspace
    exact hnot (h s hcomm hfits)
  · rintro h s rfl hfits
    exact (ProcStat.parses_iff_fits h).mpr hfits
  · rintro h s rfl
    exact ProcStat.parses_iff_fits h

/-- A name of two words: the time of the children is not added. -/
theorem two_words_not_added : (ProcStat.waited (bytes "a b") 1).Fits ∧
    ¬ (ProcStat.waited (bytes "a b") 1).Parses :=
  ⟨ProcStat.waited_fits _ (by decide), fun h => absurd h.active (by decide +kernel)⟩

end SelfTraining.Monitor
