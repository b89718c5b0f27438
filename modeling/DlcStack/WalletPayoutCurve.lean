import DlcStack.AttestorOutcomes
import DlcStack.DlcContract
import DlcStack.PiecewiseLinear
import Mathlib.Analysis.Normed.Field.Lemmas
import Mathlib.Data.Rat.Cast.Order

/-!
# The payout curve of an offer

The payout of a numerical contract rises from nothing to the whole collateral and
stays there up to the largest outcome that the digits can write.  The collateral is
summed in 64 bits, without a check that the sum fits.
-/

namespace DlcStack

namespace RouterWallet

open PiecewiseLinear

structure PayoutPoint where
  eventOutcome : UInt64
  outcomePayout : UInt64
  extraPrecision : UInt16
  deriving DecidableEq, Repr

/-- `PolynomialPayoutCurvePiece` of `dlc_manager`. -/
structure CurveLibrary where
  Piece : Type
  new : List PayoutPoint → Except DlcError Piece
  payoutPoints : Piece → List PayoutPoint

/-- A piece is made of two or more points with increasing outcomes, and keeps them. -/
structure CurveLibrary.Promises (library : CurveLibrary) : Prop where
  accepts : ∀ points, (∃ piece, library.new points = .ok piece) ↔
    2 ≤ points.length ∧
      points.IsChain fun left right => left.eventOutcome < right.eventOutcome
  keeps : ∀ points piece, library.new points = .ok piece →
    library.payoutPoints piece = points

/-- `max_value` -/
def maxValue : UInt32 :=
  UInt32.pow 2 nbDigits - 1

/-- `left + right` on `u64`.  An overflow panics where the build checks for it and
wraps around elsewhere. -/
def addU64 (overflowChecks : Bool) (left right : UInt64) : Option UInt64 :=
  if overflowChecks ∧ UInt64.size ≤ left.toNat + right.toNat then none
  else some (left + right)

/-- `get_polynomial_payout_curve_pieces`, where the build may check for overflows. -/
def getPolynomialPayoutCurvePieces (library : CurveLibrary) (overflowChecks : Bool)
    (acceptCollateral offerCollateral totalOutcomes : UInt64) :
    Option (Except DlcError (List library.Piece)) := do
  let totalCollateral ← addU64 overflowChecks acceptCollateral offerCollateral
  return do
    let rising ← library.new
      [⟨0, 0, 0⟩, ⟨totalOutcomes, totalCollateral, 0⟩]
    let level ← library.new
      [⟨totalOutcomes, totalCollateral, 0⟩, ⟨maxValue.toUInt64, totalCollateral, 0⟩]
    return [rising, level]

/-! ## The curve that is meant -/

/-- The place of a point, with the payout in satoshis. -/
def PayoutPoint.place (point : PayoutPoint) : ℚ × ℚ :=
  (point.eventOutcome.toNat, point.outcomePayout.toNat + point.extraPrecision.toNat / 65536)

/-- The segments between the points of some piece. -/
def OnCurve (library : CurveLibrary) (pieces : List library.Piece) (x y : ℚ) : Prop :=
  ∃ piece ∈ pieces, OnPath ((library.payoutPoints piece).map PayoutPoint.place) x y

/-- The outcomes that the digits can write. -/
def Outcomes : Set ℚ := Set.Icc 0 16383

/-- The curve is the graph of a payout that rises to the whole collateral at the total
of the outcomes. -/
structure Pays (library : CurveLibrary) (collateral total : ℚ)
    (pieces : List library.Piece) (payout : ℚ → ℚ) : Prop where
  drawn : ∀ x y, OnCurve library pieces x y ↔ x ∈ Outcomes ∧ y = payout x
  continuous : ContinuousOn payout Outcomes
  monotone : MonotoneOn payout Outcomes
  bounded : ∀ x ∈ Outcomes, 0 ≤ payout x ∧ payout x ≤ collateral
  zero : payout 0 = 0
  full : ∀ x ∈ Outcomes, total ≤ x → payout x = collateral

/-- No such curve can be made of numbers of 64 bits. -/
def Refused (acceptCollateral offerCollateral totalOutcomes : UInt64) : Prop :=
  totalOutcomes = 0 ∨ 16383 ≤ totalOutcomes.toNat ∨
    UInt64.size ≤ acceptCollateral.toNat + offerCollateral.toNat

/-- An error where no curve can be made, and else the pieces of one. -/
def RefusesOrPays (library : CurveLibrary)
    (acceptCollateral offerCollateral totalOutcomes : UInt64)
    (answer : Option (Except DlcError (List library.Piece))) : Prop :=
  (∃ error, answer = some (.error error)) ∧
      Refused acceptCollateral offerCollateral totalOutcomes ∨
    ∃ pieces, answer = some (.ok pieces) ∧
      ¬ Refused acceptCollateral offerCollateral totalOutcomes ∧
      ∃ payout, Pays library (acceptCollateral.toNat + offerCollateral.toNat)
        totalOutcomes.toNat pieces payout

/-! ## The pieces that are made -/

section Pieces

variable {library : CurveLibrary}

theorem CurveLibrary.Promises.new_pair (promises : library.Promises)
    (left right : PayoutPoint) :
    (left.eventOutcome < right.eventOutcome → ∃ piece,
      library.new [left, right] = .ok piece ∧
        library.payoutPoints piece = [left, right]) ∧
    (¬ left.eventOutcome < right.eventOutcome → ∃ error,
      library.new [left, right] = .error error) := by
  have accepts := promises.accepts [left, right]
  simp only [List.length_cons, List.length_nil, le_refl, true_and,
    List.isChain_cons_cons, List.isChain_singleton, and_true] at accepts
  constructor
  · intro less
    obtain ⟨piece, made⟩ := accepts.mpr less
    exact ⟨piece, made, promises.keeps _ _ made⟩
  · intro notLess
    cases made : library.new [left, right] with
    | error error => exact ⟨error, rfl⟩
    | ok piece => exact absurd (accepts.mp ⟨piece, made⟩) notLess

@[simp]
theorem maxValue_toNat : maxValue.toNat = 16383 := by
  decide

/-- For a sum of the collateral there is an error, or there are two pieces. -/
theorem getPolynomialPayoutCurvePieces_cases (promises : library.Promises)
    {overflowChecks : Bool} {acceptCollateral offerCollateral totalCollateral : UInt64}
    (totalOutcomes : UInt64)
    (summed : addU64 overflowChecks acceptCollateral offerCollateral =
      some totalCollateral) :
    (totalOutcomes = 0 ∨ 16383 ≤ totalOutcomes.toNat) ∧
      (∃ error, getPolynomialPayoutCurvePieces library overflowChecks acceptCollateral
        offerCollateral totalOutcomes = some (.error error)) ∨
    (0 < totalOutcomes.toNat ∧ totalOutcomes.toNat < 16383) ∧
      ∃ rising level, getPolynomialPayoutCurvePieces library overflowChecks
          acceptCollateral offerCollateral totalOutcomes = some (.ok [rising, level]) ∧
        library.payoutPoints rising =
          [⟨0, 0, 0⟩, ⟨totalOutcomes, totalCollateral, 0⟩] ∧
        library.payoutPoints level =
          [⟨totalOutcomes, totalCollateral, 0⟩,
            ⟨maxValue.toUInt64, totalCollateral, 0⟩] := by
  have first := promises.new_pair ⟨0, 0, 0⟩ ⟨totalOutcomes, totalCollateral, 0⟩
  have second := promises.new_pair ⟨totalOutcomes, totalCollateral, 0⟩
    ⟨maxValue.toUInt64, totalCollateral, 0⟩
  simp only [UInt64.lt_iff_toNat_lt, UInt32.toNat_toUInt64, maxValue_toNat]
    at first second
  unfold getPolynomialPayoutCurvePieces
  rw [summed, Option.bind_eq_bind, Option.bind_some]
  rcases Nat.eq_zero_or_pos totalOutcomes.toNat with zero | positive
  · obtain ⟨error, failed⟩ := first.2 (by simp [zero])
    exact .inl ⟨.inl (UInt64.toNat_inj.mp zero), error, by rw [failed]; rfl⟩
  · obtain ⟨rising, made, risingPoints⟩ := first.1 positive
    rcases Nat.lt_or_ge totalOutcomes.toNat 16383 with less | beyond
    · obtain ⟨level, madeLevel, levelPoints⟩ := second.1 less
      exact .inr ⟨⟨positive, less⟩, rising, level, by rw [made, madeLevel]; rfl,
        risingPoints, levelPoints⟩
    · obtain ⟨error, failed⟩ := second.2 (Nat.not_lt_of_le beyond)
      exact .inl ⟨.inr beyond, error, by rw [made, failed]; rfl⟩

/-- The points of the whole curve. -/
def wholeCurve (total collateral : Nat) : List (ℚ × ℚ) :=
  [(0, 0), (total, collateral), (16383, collateral)]

/-- Two pieces that meet draw the whole curve. -/
theorem onCurve_iff {totalOutcomes totalCollateral : UInt64} {rising level : library.Piece}
    (risingPoints : library.payoutPoints rising =
      [⟨0, 0, 0⟩, ⟨totalOutcomes, totalCollateral, 0⟩])
    (levelPoints : library.payoutPoints level =
      [⟨totalOutcomes, totalCollateral, 0⟩, ⟨maxValue.toUInt64, totalCollateral, 0⟩])
    (x y : ℚ) :
    OnCurve library [rising, level] x y ↔
      OnPath (wholeCurve totalOutcomes.toNat totalCollateral.toNat) x y := by
  have joined := onPath_append (K := ℚ) [(0, 0)] [(16383, totalCollateral.toNat)]
    (totalOutcomes.toNat, totalCollateral.toNat) x y
  simp only [List.cons_append, List.nil_append] at joined
  unfold OnCurve wholeCurve
  rw [joined]
  simp [risingPoints, levelPoints, PayoutPoint.place]

theorem rises_wholeCurve {total : Nat} (collateral : Nat) (positive : 0 < total)
    (less : total < 16383) : Rises (wholeCurve total collateral) := by
  have positive : (0 : ℚ) < total := by exact_mod_cast positive
  have less : (total : ℚ) < 16383 := by exact_mod_cast less
  unfold Rises wholeCurve
  simp [positive, less]

end Pieces

/-- The payout of the whole curve is as it is meant. -/
theorem pays_wholeCurve {library : CurveLibrary} {pieces : List library.Piece}
    {total collateral : Nat} (positive : 0 < total) (less : total < 16383)
    (drawn : ∀ x y, OnCurve library pieces x y ↔
      OnPath (wholeCurve total collateral) x y) :
    Pays library collateral total pieces (path (wholeCurve total collateral)) := by
  have rises := rises_wholeCurve collateral positive less
  have less : (total : ℚ) < 16383 := by exact_mod_cast less
  have onFirst : (0 : ℚ) ∈ Outcomes := by norm_num [Outcomes]
  have onLast : (16383 : ℚ) ∈ Outcomes := by norm_num [Outcomes]
  have zero : path (wholeCurve total collateral) 0 = 0 := path_first rises
  have full (x : ℚ) (beyond : (total : ℚ) ≤ x) :
      path (wholeCurve total collateral) x = collateral := by
    unfold wholeCurve
    rw [path_of_le rises beyond, path]
    split_ifs
    · exact line_of_level (by rfl) x
    · rfl
  have monotone : MonotoneOn (path (wholeCurve total collateral)) Outcomes :=
    (path_mono rises).mono Set.Icc_subset_Ici_self
  constructor
  case drawn =>
    intro x y
    rw [drawn]
    exact (onPath_iff rises).trans and_assoc.symm
  case continuous => exact (continuous_path rises).continuousOn
  case monotone => exact monotone
  case zero => exact zero
  case full => exact fun x _ beyond => full x beyond
  case bounded =>
    intro x onCurve
    constructor
    · rw [← zero]
      exact monotone onFirst onCurve onCurve.1
    · rw [← full 16383 less.le]
      exact monotone onCurve onLast onCurve.2

theorem addU64_of_lt (overflowChecks : Bool) {left right : UInt64}
    (fits : left.toNat + right.toNat < UInt64.size) :
    addU64 overflowChecks left right = some (left + right) ∧
      (left + right).toNat = left.toNat + right.toNat := by
  constructor
  · simp [addU64, fits]
  · rw [UInt64.toNat_add]
    exact Nat.mod_eq_of_lt fits

/-- The answer is as it is meant exactly when the collateral fits, or when the outcomes
are refused in a build that does not check for overflows. -/
theorem getPolynomialPayoutCurvePieces_refusesOrPays_iff (library : CurveLibrary)
    (promises : library.Promises) (overflowChecks : Bool)
    (acceptCollateral offerCollateral totalOutcomes : UInt64) :
    RefusesOrPays library acceptCollateral offerCollateral totalOutcomes
      (getPolynomialPayoutCurvePieces library overflowChecks acceptCollateral
        offerCollateral totalOutcomes) ↔
      acceptCollateral.toNat + offerCollateral.toNat < UInt64.size ∨
        overflowChecks = false ∧
          (totalOutcomes = 0 ∨ 16383 ≤ totalOutcomes.toNat) := by
  by_cases fits : acceptCollateral.toNat + offerCollateral.toNat < UInt64.size
  · obtain ⟨summed, sum⟩ := addU64_of_lt overflowChecks fits
    simp only [fits, true_or, iff_true]
    rcases getPolynomialPayoutCurvePieces_cases promises totalOutcomes summed with
      ⟨outside, error, refuses⟩ |
      ⟨⟨positive, less⟩, rising, level, made, risingPoints, levelPoints⟩
    · refine .inl ⟨⟨error, refuses⟩, ?_⟩
      exact outside.imp_right .inl
    · have pays := pays_wholeCurve positive less (onCurve_iff risingPoints levelPoints)
      rw [sum, Nat.cast_add] at pays
      refine .inr ⟨[rising, level], made, ?_, _, pays⟩
      rintro (rfl | beyond | overflow)
      · exact Nat.lt_irrefl _ positive
      · exact Nat.not_lt_of_le beyond less
      · exact Nat.not_lt_of_le overflow fits
  · have refused : Refused acceptCollateral offerCollateral totalOutcomes :=
      .inr (.inr (Nat.le_of_not_lt fits))
    -- no curve can be made, so only an error will do
    simp only [RefusesOrPays, refused, not_true_eq_false, false_and, and_false,
      exists_false, or_false, and_true, fits, false_or]
    cases overflowChecks with
    | true =>
        have panics : addU64 true acceptCollateral offerCollateral = none := by
          simp [addU64, Nat.le_of_not_lt fits]
        simp [getPolynomialPayoutCurvePieces, panics]
    | false =>
        have wraps : addU64 false acceptCollateral offerCollateral =
            some (acceptCollateral + offerCollateral) := by
          simp [addU64]
        rcases getPolynomialPayoutCurvePieces_cases promises totalOutcomes wraps with
          ⟨outside, refuses⟩ | ⟨⟨positive, less⟩, rising, level, made, -⟩
        · simp only [refuses, outside, and_self]
        · have inside : ¬ (totalOutcomes = 0 ∨ 16383 ≤ totalOutcomes.toNat) := by
            rintro (rfl | beyond)
            · exact Nat.lt_irrefl _ positive
            · exact Nat.not_lt_of_le beyond less
          simp [made, inside]

/-- The check of `PolynomialPayoutCurvePiece::new`. -/
def sampleLibrary : CurveLibrary where
  Piece := List PayoutPoint
  new points :=
    if 2 ≤ points.length ∧
        points.IsChain fun left right => left.eventOutcome < right.eventOutcome then
      .ok points
    else .error (.invalidParameters "Payout points must be ascending")
  payoutPoints points := points

instance : DecidableEq sampleLibrary.Piece :=
  inferInstanceAs (DecidableEq (List PayoutPoint))

theorem sampleLibrary_promises : sampleLibrary.Promises := by
  constructor
  case accepts =>
    intro points
    unfold sampleLibrary
    dsimp only
    split_ifs with ascending
    · simp [ascending]
    · simp [ascending]
  case keeps =>
    intro points piece made
    unfold sampleLibrary at made
    dsimp only at made
    split_ifs at made
    exact (Except.ok.inj made).symm

theorem getPolynomialPayoutCurvePieces_refusesOrPays_iff_sampleLibrary :
    RefusesOrPays sampleLibrary 100 200 50
      (getPolynomialPayoutCurvePieces sampleLibrary true 100 200 50) :=
  (getPolynomialPayoutCurvePieces_refusesOrPays_iff sampleLibrary sampleLibrary_promises
    true 100 200 50).mpr (.inl (by decide))

/-- A sum that wraps around makes a curve to a payout of one satoshi. -/
theorem getPolynomialPayoutCurvePieces_wraps :
    ¬ ∀ (library : CurveLibrary), library.Promises → ∀ (overflowChecks : Bool)
      (acceptCollateral offerCollateral totalOutcomes : UInt64),
      RefusesOrPays library acceptCollateral offerCollateral totalOutcomes
        (getPolynomialPayoutCurvePieces library overflowChecks acceptCollateral
          offerCollateral totalOutcomes) := by
  intro always
  have made : getPolynomialPayoutCurvePieces sampleLibrary false
        18446744073709551615 2 100 =
      some (.ok [[⟨0, 0, 0⟩, ⟨100, 1, 0⟩], [⟨100, 1, 0⟩, ⟨16383, 1, 0⟩]]) := by
    decide +kernel
  rcases always sampleLibrary sampleLibrary_promises false 18446744073709551615 2 100 with
    ⟨⟨error, failed⟩, -⟩ | ⟨pieces, -, accepted, -⟩
  · rw [made] at failed
    cases failed
  · exact accepted (.inr (.inr (by decide)))

end RouterWallet

end DlcStack
