import SelfTraining.Lib.Text
import Mathlib.Data.Int.Log
import Mathlib.Data.Rat.Floor

/-!
Numbers of single precision, and numbers printed with six digits behind the point.

A number is rounded to the nearest one of 24 binary digits; the exponent is taken without its
bounds.
-/

namespace SelfTraining.Single

open SelfTraining.Text

/-- The nearest integer, and the even one where two are. -/
def nearest (q : ℚ) : ℤ :=
  if 1 < 2 * (q - q.floor) ∨ (2 * (q - q.floor) = 1 ∧ q.floor % 2 = 1) then q.floor + 1
  else q.floor

/-- The weight of the last digit of a number. -/
def ulp (q : ℚ) : ℚ := 2 ^ (Int.log 2 |q| - 23)

/-- A number rounded to single precision. -/
def single (q : ℚ) : ℚ := if q = 0 then 0 else nearest (q / ulp q) * ulp q

/-- The last six digits of a number. -/
def sixDigits (n : ℕ) : Bytes :=
  List.replicate (6 - (digits (n % 10 ^ 6)).length) 48 ++ digits (n % 10 ^ 6)

/-- A number by its sign and its absolute value, as `%f` prints it. -/
def fixed (negative : Bool) (q : ℚ) : Bytes :=
  let n := (nearest (q * 10 ^ 6)).toNat
  (if negative then [45] else []) ++ digits (n / 10 ^ 6) ++ 46 :: sixDigits n

lemma mem_fixed {negative : Bool} {q : ℚ} {c : UInt8} (h : c ∈ fixed negative q) :
    c = 45 ∨ c = 46 ∨ (48 ≤ c.toNat ∧ c.toNat ≤ 57) := by
  unfold fixed sixDigits at h
  simp only [List.mem_append, List.mem_cons, List.mem_replicate] at h
  rcases h with (h | h) | h | h | h
  · split at h
    · exact .inl (List.mem_singleton.mp h)
    · simp at h
  · exact .inr (.inr (mem_digits h))
  · exact .inr (.inl h)
  · obtain ⟨-, rfl⟩ := h
    exact .inr (.inr (by decide))
  · exact .inr (.inr (mem_digits h))

lemma eight_le_length_fixed (negative : Bool) (q : ℚ) : 8 ≤ (fixed negative q).length := by
  have hpos : ∀ n, 0 < (digits n).length := fun n => List.length_pos_of_ne_nil (digits_ne_nil n)
  unfold fixed sixDigits
  simp only [List.length_append, List.length_cons, List.length_replicate]
  have hfirst := hpos ((nearest (q * 10 ^ 6)).toNat / 10 ^ 6)
  omega

end SelfTraining.Single
