import Mathlib.Analysis.Real.Sqrt
import Mathlib.Tactic.Linarith
import Mathlib.Tactic.NormNum
import Mathlib.Tactic.Positivity
import Mathlib.Tactic.Ring
import FisheyeDock.Plane

/-! # Exact arithmetic

    The real numbers as scalars.  Nothing is rounded, everything is finite, and no number is
    undefined: where a computation has no result, it gives zero.  So a position that is missing cannot
    be told from one at the origin, and what hangs on that is said in exact values instead, among which
    the undefined one stands apart (`Exact.Value`).

    A literal of the library is read by `literal`, and not by the way in which real numbers are
    written elsewhere, so that no statement mixes the two.  `ofScientific_real` leads from the one to
    the other. -/

namespace FisheyeDock

namespace Exact

/-- A literal of the library. -/
noncomputable def literal (mantissa : Nat) (negative : Bool) (exponent : Nat) : ℝ :=
  OfScientific.ofScientific mantissa negative exponent

/-- A number that is not negative, rounded half to even. -/
noncomputable def roundHalfEven (x : ℝ) : ℕ :=
  let whole := ⌊x⌋₊
  if x - whole < 1 / 2 ∨ (x - whole = 1 / 2 ∧ whole % 2 = 0) then whole else whole + 1

end Exact

noncomputable instance : Scalar ℝ where
  ofScientific := Exact.literal
  decLt := inferInstance
  decLe := inferInstance
  sqrt := Real.sqrt
  abs x := |x|
  floor x := (⌊x⌋ : ℝ)
  ofNat n := (n : ℝ)
  undefined := 0
  isUndefined _ := false
  isFinite _ := true
  roundPlaces places x := if 0 ≤ x then some (Exact.roundHalfEven (x * 10 ^ places)) else none

/-- Literals are the numbers that they write. -/
theorem ofScientific_real (mantissa : Nat) (negative : Bool) (exponent : Nat) :
    @OfScientific.ofScientific ℝ Scalar.toOfScientific mantissa negative exponent =
      @OfScientific.ofScientific ℝ NNRatCast.toOfScientific mantissa negative exponent := rfl

theorem one_real : (1.0 : ℝ) = 1 := by
  rw [ofScientific_real]
  norm_num

namespace Scalar

theorem isZero_real (x : ℝ) : isZero x = true ↔ x = 0 := by
  unfold isZero
  rw [Bool.and_eq_true, decide_eq_true_iff, decide_eq_true_iff]
  simp only [ofScientific_real]
  norm_num
  exact le_antisymm_iff.symm

end Scalar

/-! ## Distances -/

namespace Point

theorem distance_real (p q : Point ℝ) : p.distance q =
    Real.sqrt ((p.x - q.x) * (p.x - q.x) + (p.y - q.y) * (p.y - q.y)) := rfl

theorem distance_nonneg (p q : Point ℝ) : 0 ≤ p.distance q := by
  rw [distance_real]
  exact Real.sqrt_nonneg _

/-- On a line along an axis, distances are differences. -/
theorem distance_of_level {axis : Axis} {p q : Point ℝ}
    (h : axis.across.of p = axis.across.of q) : p.distance q = |axis.of p - axis.of q| := by
  rw [distance_real]
  cases axis with
  | x =>
      have hy : p.y - q.y = 0 := sub_eq_zero.mpr h
      rw [hy, mul_zero, add_zero, Real.sqrt_mul_self_eq_abs]
      rfl
  | y =>
      have hx : p.x - q.x = 0 := sub_eq_zero.mpr h
      rw [hx, mul_zero, zero_add, Real.sqrt_mul_self_eq_abs]
      rfl

end Point

end FisheyeDock
