import Mathlib.Data.Int.Log
import Mathlib.Data.Rat.Floor
import Mathlib.Tactic.NormNum
import Mathlib.Tactic.Ring

/-!
# Rounding to binary64 numbers

The numbers of JavaScript are binary64, with 53 binary digits.  A rational number is
rounded to the nearest of them, and to the even one of two that are as near.  Bounds on
the exponent are left to those who round.
-/

namespace DlcStack

namespace Binary64

/-- The nearest integer. -/
def roundTiesToEven (value : ℚ) : ℤ :=
  if Int.fract value < 1 / 2 ∨ Int.fract value = 1 / 2 ∧ ⌊value⌋ % 2 = 0 then ⌊value⌋
  else ⌊value⌋ + 1

/-- The distance between binary64 numbers of this size. -/
def ulp (value : ℚ) : ℚ :=
  2 ^ (Int.log 2 |value| - 52)

/-- The nearest binary64 number. -/
def nearest (value : ℚ) : ℚ :=
  roundTiesToEven (value / ulp value) * ulp value

/-- The nearest binary64 number of an integer, which is one. -/
def ofInt (value : ℤ) : ℤ :=
  ⌊nearest value⌋

/-- The nearest binary64 number of a natural number. -/
def ofNat (value : ℕ) : ℕ :=
  (ofInt value).toNat

@[simp]
theorem roundTiesToEven_intCast (value : ℤ) : roundTiesToEven value = value := by
  simp [roundTiesToEven]

theorem ulp_ne_zero (value : ℚ) : ulp value ≠ 0 :=
  zpow_ne_zero _ two_ne_zero

/-- What is a whole number of units is a binary64 number. -/
theorem nearest_of_eq_mul {value : ℚ} (units : ℤ) (whole : value = units * ulp value) :
    nearest value = value := by
  have quotient : value / ulp value = units :=
    (div_eq_iff (ulp_ne_zero value)).mpr whole
  rw [nearest, quotient, roundTiesToEven_intCast, ← whole]

/-- Small integers are whole numbers of units. -/
theorem exists_eq_mul_ulp {value : ℤ} (small : |value| < 2 ^ 53) :
    ∃ units : ℤ, (value : ℚ) = units * ulp value := by
  by_cases zero : value = 0
  · exact ⟨0, by simp [zero]⟩
  have positive : (0 : ℚ) < |(value : ℚ)| := by simpa using zero
  have bound : Int.log 2 |(value : ℚ)| < 53 :=
    (Int.lt_zpow_iff_log_lt one_lt_two positive).mp (by exact_mod_cast small)
  obtain ⟨places, isPlaces⟩ : ∃ places : ℕ, Int.log 2 |(value : ℚ)| - 52 = -places :=
    ⟨(52 - Int.log 2 |(value : ℚ)|).toNat, by omega⟩
  refine ⟨value * 2 ^ places, ?_⟩
  rw [ulp, isPlaces]
  push_cast
  rw [zpow_neg, zpow_natCast, mul_assoc, mul_inv_cancel₀ (by positivity), mul_one]

/-- Integers of 53 binary digits are binary64 numbers, and so is the next one. -/
theorem ofInt_of_abs_le {value : ℤ} (small : |value| ≤ 2 ^ 53) : ofInt value = value := by
  rcases small.lt_or_eq with small | same
  · obtain ⟨units, whole⟩ := exists_eq_mul_ulp small
    rw [ofInt, nearest_of_eq_mul units whole, Int.floor_intCast]
  · rcases eq_or_eq_neg_of_abs_eq same with rfl | rfl <;> decide +kernel

theorem ofNat_of_le {value : ℕ} (small : value ≤ 2 ^ 53) : ofNat value = value := by
  have exact : ofInt value = value :=
    ofInt_of_abs_le (by rw [abs_of_nonneg (by omega)]; exact_mod_cast small)
  rw [ofNat, exact, Int.toNat_natCast]

/-- Those that follow are rounded. -/
example : ofNat (2 ^ 53 + 1) = 2 ^ 53 ∧ ofNat (2 ^ 53 + 3) = 2 ^ 53 + 4 := by
  decide +kernel

end Binary64

end DlcStack
