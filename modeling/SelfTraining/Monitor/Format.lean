import SelfTraining.Lib.Stream

/-!
A time in seconds, printed as hours, minutes and seconds.

`ElapsedTime` takes a `long` and keeps the hours in an `int`. The seconds in these hours, which
it takes off to be left with the minutes, are multiplied out in `int` as well, and wrap around
long before the hours do.
-/

namespace SelfTraining.Monitor.Format

open SelfTraining.Text SelfTraining.Stream

/-- A number as `%02d` prints it. -/
def twoDigits (v : ℤ) : Bytes := if 0 ≤ v ∧ v < 10 then 48 :: decimal v else decimal v

/-- Three numbers as `%02d:%02d:%02d` prints them. -/
def clock (h m s : ℤ) : Bytes := twoDigits h ++ 58 :: (twoDigits m ++ 58 :: twoDigits s)

/-- The string that `snprintf` leaves in a buffer of that size. -/
def snprintf (size : ℕ) (text : Bytes) : Bytes := text.take (size - 1) ++ [0]

def hrs (seconds : Int64) : Int32 := (seconds / 3600).toInt32

/-- The product is an `int` before it becomes a `long`. -/
def mins (seconds : Int64) : Int32 :=
  ((seconds - (hrs seconds * 3600).toInt64) / 60).toInt32

def elapsedTime (seconds : Int64) : Bytes :=
  cstr (snprintf 50 (clock (hrs seconds).toInt (mins seconds).toInt (seconds % 60).toInt32.toInt))

/-- The three numbers printed are hours, minutes and seconds that make up the time. -/
def RoundTrips (seconds : Int64) : Prop :=
  ∃ h m s : ℤ, elapsedTime seconds = clock h m s ∧ (0 ≤ m ∧ m < 60) ∧ (0 ≤ s ∧ s < 60) ∧
    3600 * h + 60 * m + s = seconds.toInt

/-! ### What is printed is read back -/

lemma mem_twoDigits {v : ℤ} {c : UInt8} (h : c ∈ twoDigits v) :
    c = 45 ∨ (48 ≤ c.toNat ∧ c.toNat ≤ 57) := by
  unfold twoDigits at h
  split at h
  · rcases List.mem_cons.mp h with rfl | h
    · exact .inr (by decide)
    · exact mem_decimal h
  · exact mem_decimal h

lemma leadingInt_twoDigits (v : ℤ) : leadingInt (twoDigits v) = some v := by
  unfold twoDigits
  split
  · next h =>
    obtain ⟨h0, h10⟩ := h
    interval_cases v <;> rfl
  · exact leadingInt_decimal v

lemma twoDigits_injective : Function.Injective twoDigits := by
  intro v w h
  have hread := leadingInt_twoDigits v
  rw [h, leadingInt_twoDigits] at hread
  exact (Option.some.inj hread).symm

lemma clock_inj {h m s h' m' s' : ℤ} (heq : clock h m s = clock h' m' s') :
    h = h' ∧ m = m' ∧ s = s' := by
  have hcolon : ∀ v, (58 : UInt8) ∉ twoDigits v :=
    fun v h => absurd (mem_twoDigits h) (by decide)
  unfold clock at heq
  obtain ⟨hh, hrest⟩ := Framing.append_cons_inj (hcolon h) (hcolon h') heq
  obtain ⟨hm, hs⟩ := Framing.append_cons_inj (hcolon m) (hcolon m') hrest
  exact ⟨twoDigits_injective hh, twoDigits_injective hm, twoDigits_injective hs⟩

/-! ### Nothing is cut off -/

lemma length_decimal_le (v : Int32) : (decimal v.toInt).length ≤ 11 := by
  have hdigits : (digits v.toInt.natAbs).length ≤ 10 := by
    unfold digits
    split
    · decide
    · rw [List.length_map, List.length_reverse, Nat.digits_length_le_iff (by decide)]
      have := v.toInt_lt
      have := v.le_toInt
      omega
  unfold decimal
  split
  · rw [List.length_cons]
    omega
  · omega

lemma length_twoDigits_le (v : Int32) : (twoDigits v.toInt).length ≤ 12 := by
  have := length_decimal_le v
  unfold twoDigits
  split
  · rw [List.length_cons]
    omega
  · omega

lemma cstr_clock (h m s : Int32) : cstr (snprintf 50 (clock h.toInt m.toInt s.toInt)) =
    clock h.toInt m.toInt s.toInt := by
  have hlen : (clock h.toInt m.toInt s.toInt).length ≤ 49 := by
    have := length_twoDigits_le h
    have := length_twoDigits_le m
    have := length_twoDigits_le s
    simp only [clock, List.length_append, List.length_cons]
    omega
  have hzero : (0 : UInt8) ∉ clock h.toInt m.toInt s.toInt := by
    have hnum : ∀ v, (0 : UInt8) ∉ twoDigits v :=
      fun v h => absurd (mem_twoDigits h) (by decide)
    simp [clock, hnum]
  rw [snprintf, List.take_of_length_le hlen, cstr]
  exact Framing.upTo_append_cons hzero []

/-! ### The numbers -/

section Numbers

variable {seconds : Int64} (h0 : 0 ≤ seconds.toInt) (hfit : seconds.toInt / 3600 < 2 ^ 31)

/-- How often an `int` has wrapped around at a number. -/
def wraps (x : ℤ) : ℤ := (x + 2 ^ 31) / 2 ^ 32

lemma bmod_eq (x : ℤ) : x.bmod (2 ^ 32) = x - 2 ^ 32 * wraps x := by
  rw [Int.bmod_def, wraps]
  split <;> omega

include h0 hfit

lemma hrs_eq : (hrs seconds).toInt = seconds.toInt / 3600 := by
  have hdiv : (seconds / 3600).toInt = seconds.toInt / 3600 := by
    rw [Int64.toInt_div_of_ne_right _ _ (by decide)]
    exact Int.tdiv_eq_ediv_of_nonneg h0
  rw [hrs, Int64.toInt_toInt32, hdiv]
  exact Int.bmod_eq_of_le (by omega) (by omega)

lemma mins_eq : (mins seconds).toInt =
    ((seconds.toInt % 3600 + 2 ^ 32 * wraps (3600 * (seconds.toInt / 3600))) / 60).bmod
      (2 ^ 32) := by
  have hmul : (hrs seconds * 3600).toInt64.toInt = 3600 * (seconds.toInt / 3600) -
      2 ^ 32 * wraps (3600 * (seconds.toInt / 3600)) := by
    rw [Int32.toInt_toInt64, Int32.toInt_mul, hrs_eq h0 hfit, mul_comm, ← bmod_eq]
    rfl
  have hle : 2 ^ 32 * wraps (3600 * (seconds.toInt / 3600)) ≤
      3600 * (seconds.toInt / 3600) + 2 ^ 31 := by
    unfold wraps
    omega
  have hnonneg : 0 ≤ wraps (3600 * (seconds.toInt / 3600)) := by
    unfold wraps
    omega
  have hsub : (seconds - (hrs seconds * 3600).toInt64).toInt =
      seconds.toInt % 3600 + 2 ^ 32 * wraps (3600 * (seconds.toInt / 3600)) := by
    rw [Int64.toInt_sub, hmul]
    refine (Int.bmod_eq_of_le ?_ ?_).trans ?_ <;> omega
  rw [mins, Int64.toInt_toInt32, Int64.toInt_div_of_ne_right _ _ (by decide), hsub]
  exact congrArg (Int.bmod · _) (Int.tdiv_eq_ediv_of_nonneg (by omega))

omit hfit in
lemma secs_eq : (seconds % 60).toInt32.toInt = seconds.toInt % 60 := by
  rw [Int64.toInt_toInt32, Int64.toInt_mod]
  have hmod : seconds.toInt.tmod (60 : Int64).toInt = seconds.toInt % 60 :=
    Int.tmod_eq_emod_of_nonneg h0
  rw [hmod]
  exact Int.bmod_eq_of_le (by omega) (by omega)

end Numbers

/-- The minutes come out right if the wraps make up whole turns of the minutes as well. -/
lemma bmod_minutes_iff {r k : ℤ} (h0 : 0 ≤ r) (hr : r < 3600) :
    ((r + 2 ^ 32 * k) / 60).bmod (2 ^ 32) = r / 60 ↔ k % 60 = 0 := by
  rw [bmod_eq, wraps]
  omega

/-- An `int` has wrapped around whole turns of the minutes just when the number is near a multiple
of that many. -/
lemma wraps_emod_iff (x : ℤ) : wraps x % 60 = 0 ↔ (x + 2 ^ 31) % (60 * 2 ^ 32) < 2 ^ 32 := by
  have hdiv : (x + 2 ^ 31) / 2 ^ 32 / 60 = (x + 2 ^ 31) / (2 ^ 32 * 60) :=
    Int.ediv_ediv_of_nonneg (by decide)
  unfold wraps
  omega

/-- **Elapsed time round-trips** if and only if the seconds in the hours are less than `2 ^ 31`
away from a multiple of `60 * 2 ^ 32`. -/
theorem elapsedTime_iff {seconds : Int64} (h0 : 0 ≤ seconds.toInt)
    (hfit : seconds.toInt / 3600 < 2 ^ 31) : RoundTrips seconds ↔
      (3600 * (seconds.toInt / 3600) + 2 ^ 31) % (60 * 2 ^ 32) < 2 ^ 32 := by
  have hprinted : elapsedTime seconds = clock (seconds.toInt / 3600) (mins seconds).toInt
      (seconds.toInt % 60) := by
    rw [elapsedTime, cstr_clock, hrs_eq h0 hfit, secs_eq h0]
  have hmins : (mins seconds).toInt = seconds.toInt % 3600 / 60 ↔
      (3600 * (seconds.toInt / 3600) + 2 ^ 31) % (60 * 2 ^ 32) < 2 ^ 32 := by
    have hmod : seconds.toInt % 3600 < 3600 := Int.emod_lt_of_pos _ (by decide)
    rw [mins_eq h0 hfit, bmod_minutes_iff (Int.emod_nonneg _ (by decide)) hmod, wraps_emod_iff]
  rw [← hmins]
  constructor
  · rintro ⟨h, m, s, heq, -, -, hsum⟩
    rw [hprinted] at heq
    obtain ⟨rfl, rfl, rfl⟩ := clock_inj heq
    omega
  · intro hm
    refine ⟨_, _, _, hprinted, ?_, ?_, ?_⟩ <;> omega

/-- A day, an hour, a minute and a second. -/
theorem elapsedTime_iff_day : RoundTrips 90061 :=
  (elapsedTime_iff (by decide) (by decide)).mpr (by decide)

/-- A time of 596524 hours is printed as `596524:71582788:00`. -/
theorem years_not_roundTrips : ¬ ∀ seconds : Int64, 0 ≤ seconds.toInt →
    seconds.toInt / 3600 < 2 ^ 31 → RoundTrips seconds := by
  intro hall
  obtain ⟨h, m, s, heq, hm, -⟩ := hall 2147486400 (by decide) (by decide)
  have hprinted : elapsedTime 2147486400 = clock 596524 71582788 0 := by decide +kernel
  rw [hprinted] at heq
  obtain ⟨-, rfl, -⟩ := clock_inj heq
  omega

end SelfTraining.Monitor.Format
