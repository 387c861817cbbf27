import SelfTraining.Lib.Framing
import Mathlib.Data.Nat.Digits.Lemmas

/-!
Byte strings: literals, decimal numbers, and strings that end at the first zero byte.
-/

namespace SelfTraining.Text

/-- A byte string. -/
abbrev Bytes := List UInt8

/-- The bytes of an ASCII literal. -/
def bytes (s : String) : Bytes := s.toList.map fun c => c.toNat.toUInt8

/-- The string that starts at `b` in memory: what stands before the first zero byte. -/
def cstr (b : Bytes) : Bytes := Framing.upTo 0 b

/-! ### Decimal numbers -/

/-- The digits of `n`, most significant first. -/
def digits (n : ℕ) : Bytes :=
  if n = 0 then [48] else (Nat.digits 10 n).reverse.map fun d => 48 + d.toUInt8

/-- The number that a string of digits denotes. -/
def ofDigits (b : Bytes) : ℕ := Nat.ofDigits 10 (b.reverse.map fun c => c.toNat - 48)

/-- A number as it is printed. -/
def decimal (i : ℤ) : Bytes := if i < 0 then 45 :: digits i.natAbs else digits i.natAbs

lemma digit_toNat {d : ℕ} (h : d < 10) : (48 + d.toUInt8 : UInt8).toNat = 48 + d := by
  have hd : d.toUInt8.toNat = d := UInt8.toNat_ofNat_of_lt' (by
    change d < 256
    omega)
  rw [UInt8.toNat_add, hd]
  change (48 + d) % 256 = 48 + d
  omega

lemma mem_digits {n : ℕ} {c : UInt8} (h : c ∈ digits n) : 48 ≤ c.toNat ∧ c.toNat ≤ 57 := by
  unfold digits at h
  split at h
  · obtain rfl := List.mem_singleton.mp h
    decide
  · obtain ⟨d, hd, rfl⟩ := List.mem_map.mp h
    have hlt : d < 10 := Nat.digits_lt_base (by omega) (List.mem_reverse.mp hd)
    rw [digit_toNat hlt]
    omega

lemma digits_ne_nil (n : ℕ) : digits n ≠ [] := by
  unfold digits
  split
  · simp
  · next h => simpa [Nat.digits_eq_nil_iff_eq_zero] using h

lemma mem_decimal {i : ℤ} {c : UInt8} (h : c ∈ decimal i) :
    c = 45 ∨ (48 ≤ c.toNat ∧ c.toNat ≤ 57) := by
  unfold decimal at h
  split at h
  · rcases List.mem_cons.mp h with rfl | h
    · exact .inl rfl
    · exact .inr (mem_digits h)
  · exact .inr (mem_digits h)

lemma decimal_ne_nil (i : ℤ) : decimal i ≠ [] := by
  unfold decimal
  split
  · exact List.cons_ne_nil _ _
  · exact digits_ne_nil _

/-- Printing and reading back. -/
theorem ofDigits_digits (n : ℕ) : ofDigits (digits n) = n := by
  unfold digits
  split
  · subst n; rfl
  · unfold ofDigits
    rw [← List.map_reverse, List.reverse_reverse, List.map_map]
    have hmap : (Nat.digits 10 n).map ((fun c : UInt8 => c.toNat - 48) ∘
        fun d => 48 + d.toUInt8) = Nat.digits 10 n := by
      refine (List.map_congr_left fun d hd => ?_).trans (List.map_id _)
      have hlt : d < 10 := Nat.digits_lt_base (by omega) hd
      simp only [Function.comp_apply, digit_toNat hlt, id_eq]
      omega
    rw [hmap, Nat.ofDigits_digits]

end SelfTraining.Text
