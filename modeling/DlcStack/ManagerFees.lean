import DlcStack.ManagerMessages
import Mathlib.Algebra.Order.Floor.Semifield
import Mathlib.Data.Nat.Cast.Order.Field
import Mathlib.Data.Rat.Floor
import Mathlib.Tactic.FieldSimp
import Mathlib.Tactic.Linarith
import Mathlib.Tactic.NormNum

/-!
# The protocol fee of an offer

The fee is handed to the crate as a denominator: the fee is the collateral divided
by it.  Only a rate that divides the whole has an exact denominator; the truncated
denominator of any other rate is too small, and above the whole it is zero, for which
there is no fee.
-/

namespace DlcStack

namespace LinkManager

/-- `calculate_denominator_from_basis_points` in numbers that a `u64` is converted to
and from. -/
def denominatorIn {K : Type} [Div K] [Mul K] (hundred : K) (fromU64 : UInt64 → K)
    (truncate : K → UInt64) (basisPoints : UInt64) : UInt64 :=
  if basisPoints = 0 then 0
  else truncate (hundred / fromU64 basisPoints * hundred)

theorem calculateDenominatorFromBasisPoints_eq :
    calculateDenominatorFromBasisPoints =
      denominatorIn 100.0 UInt64.toFloat Float.toUInt64 :=
  rfl

/-- `as u64`, which saturates. -/
def truncateU64 (number : ℚ) : UInt64 :=
  UInt64.ofNat (min ⌊number⌋₊ (UInt64.size - 1))

/-- The denominator, before its truncation over the exact rationals. -/
def exactDenominator : UInt64 → UInt64 :=
  denominatorIn (100 : ℚ) (fun basisPoints => basisPoints.toNat) truncateU64

/-- The fee that the crate takes. -/
def protocolFee (denominator collateral : UInt64) : UInt64 :=
  if denominator = 0 then 0 else collateral / denominator

/-- The share of a collateral at a rate of basis points. -/
def share (basisPoints collateral : UInt64) : ℚ :=
  collateral.toNat * basisPoints.toNat / 10000

/-- The fee of any collateral is at most the rate's share, rounded up, and only the rate
zero has the denominator zero. -/
def KeepsRate (basisPoints : UInt64) : Prop :=
  (∀ collateral : UInt64,
    (protocolFee (exactDenominator basisPoints) collateral).toNat ≤
      ⌈share basisPoints collateral⌉₊) ∧
  (exactDenominator basisPoints = 0 → basisPoints = 0)

theorem exactDenominator_toNat (basisPoints : UInt64) :
    (exactDenominator basisPoints).toNat = 10000 / basisPoints.toNat := by
  unfold exactDenominator denominatorIn
  split_ifs with zero
  · simp [zero]
  · have quotient : (100 / (basisPoints.toNat : ℚ) * 100) =
        ((10000 : ℕ) : ℚ) / (basisPoints.toNat : ℕ) := by
      push_cast
      ring
    have small : 10000 / basisPoints.toNat ≤ 10000 := Nat.div_le_self _ _
    have fits : 10000 / basisPoints.toNat < UInt64.size := small.trans_lt (by decide)
    rw [quotient, truncateU64, Nat.floor_div_eq_div, min_eq_left (by omega),
      UInt64.toNat_ofNat_of_lt' fits]

theorem protocolFee_toNat (denominator collateral : UInt64) :
    (protocolFee denominator collateral).toNat =
      collateral.toNat / denominator.toNat := by
  unfold protocolFee
  split_ifs with zero
  · simp [zero]
  · rw [UInt64.toNat_div]

theorem share_nonneg (basisPoints collateral : UInt64) : 0 ≤ share basisPoints collateral := by
  unfold share
  positivity

/-- What is left of the whole by the truncated denominator is taken once for every
denominator in the collateral. -/
theorem protocolFee_le_share_iff (basisPoints collateral : UInt64) :
    (protocolFee (exactDenominator basisPoints) collateral).toNat ≤
        ⌈share basisPoints collateral⌉₊ ↔
      collateral.toNat / (10000 / basisPoints.toNat) * (10000 % basisPoints.toNat) <
        10000 + collateral.toNat % (10000 / basisPoints.toNat) * basisPoints.toNat := by
  rw [protocolFee_toNat, exactDenominator_toNat]
  have whole := Nat.div_add_mod 10000 basisPoints.toNat
  generalize 10000 / basisPoints.toNat = denominator at *
  generalize 10000 % basisPoints.toNat = left at *
  have parts := Nat.div_add_mod collateral.toNat denominator
  generalize collateral.toNat / denominator = fee at *
  generalize collateral.toNat % denominator = remainder at *
  have cross : fee ≤ ⌈share basisPoints collateral⌉₊ ↔
      fee * 10000 < collateral.toNat * basisPoints.toNat + 10000 := by
    rw [← Nat.lt_add_one_iff, ← Nat.ceil_add_one (share_nonneg _ _), Nat.lt_ceil, share,
      div_add_one (by norm_num), lt_div_iff₀ (by norm_num)]
    exact_mod_cast Iff.rfl
  rw [cross, ← parts]
  have expanded : fee * 10000 =
      denominator * fee * basisPoints.toNat + fee * left := by
    conv_lhs => rw [← whole]
    ring
  rw [expanded, Nat.add_mul]
  omega

/-- A rate that divides the whole has an exact denominator. -/
theorem protocolFee_le_share {basisPoints : UInt64} (divides : basisPoints.toNat ∣ 10000)
    (collateral : UInt64) :
    (protocolFee (exactDenominator basisPoints) collateral).toNat ≤
      ⌈share basisPoints collateral⌉₊ := by
  rw [protocolFee_le_share_iff, Nat.mod_eq_zero_of_dvd divides]
  omega

/-- A rate that is truncated takes too much of a multiple of its denominator. -/
theorem share_lt_protocolFee {basisPoints : UInt64}
    (small : basisPoints.toNat ≤ 10000) (positive : 0 < basisPoints.toNat)
    (truncated : ¬ basisPoints.toNat ∣ 10000) :
    ∃ collateral : UInt64, ⌈share basisPoints collateral⌉₊ <
      (protocolFee (exactDenominator basisPoints) collateral).toNat := by
  have bound : 10000 / basisPoints.toNat ≤ 10000 := Nat.div_le_self _ _
  have denominatorPositive := Nat.div_pos small positive
  have left : 0 < 10000 % basisPoints.toNat := by
    apply Nat.pos_of_ne_zero
    intro none
    exact truncated (Nat.dvd_of_mod_eq_zero none)
  have fits : 10000 / basisPoints.toNat * 10000 < UInt64.size :=
    (Nat.mul_le_mul_right 10000 bound).trans_lt (by decide)
  refine ⟨UInt64.ofNat (10000 / basisPoints.toNat * 10000), ?_⟩
  rw [← Nat.not_le, protocolFee_le_share_iff, UInt64.toNat_ofNat_of_lt' fits,
    Nat.mul_div_cancel_left _ denominatorPositive, Nat.mul_mod_right]
  omega

/-- The rates that are kept are zero and those that divide the whole. -/
theorem keepsRate_iff (basisPoints : UInt64) :
    KeepsRate basisPoints ↔ basisPoints = 0 ∨ basisPoints.toNat ∣ 10000 := by
  constructor
  · rintro ⟨bounded, charged⟩
    by_contra neither
    obtain ⟨nonzero, truncated⟩ := not_or.mp neither
    rcases Nat.lt_or_ge 10000 basisPoints.toNat with above | small
    · -- the denominator of a rate above the whole is zero
      apply nonzero
      apply charged
      rw [← UInt64.toNat_inj, exactDenominator_toNat]
      exact Nat.div_eq_of_lt above
    · have positive : 0 < basisPoints.toNat := by
        apply Nat.pos_of_ne_zero
        exact fun zero => nonzero (UInt64.toNat_inj.mp zero)
      obtain ⟨collateral, exceeds⟩ := share_lt_protocolFee small positive truncated
      exact Nat.not_lt_of_le (bounded collateral) exceeds
  · rintro (rfl | divides)
    · constructor
      · intro collateral
        have none : exactDenominator 0 = 0 := rfl
        simp [none, protocolFee]
      · exact fun _ => rfl
    · constructor
      · exact protocolFee_le_share divides
      · intro zero
        have quotient := exactDenominator_toNat basisPoints
        rw [zero, UInt64.toNat_zero] at quotient
        rcases Nat.div_eq_zero_iff.mp quotient.symm with none | above
        · exact UInt64.toNat_inj.mp none
        · exact absurd (Nat.le_of_dvd (by decide) divides) (Nat.not_le_of_lt above)

/-- At a rate of seven tenths the denominator is one, and all is taken. -/
theorem not_keepsRate :
    ¬ ∀ basisPoints collateral : UInt64,
      (protocolFee (exactDenominator basisPoints) collateral).toNat ≤
          ⌈share basisPoints collateral⌉₊ ∧
        (exactDenominator basisPoints = 0 → basisPoints = 0) := by
  intro always
  have bounded := (always 7000 10000).1
  have rate : (7000 : UInt64).toNat = 7000 := rfl
  have collateral : (10000 : UInt64).toNat = 10000 := rfl
  rw [protocolFee_toNat, exactDenominator_toNat, share, rate, collateral] at bounded
  norm_num at bounded

end LinkManager

end DlcStack
