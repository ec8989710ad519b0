import FisheyeDock.Scalar

/-! # Doubles that are not finite

    What is infinite or undefined stays so under the operations of the library: the result of a sum, a
    difference or a product is finite only if both operands are, that of a quotient or of `floor` only
    if what is divided or cut is. -/

namespace FisheyeDock.Double

open Float.Model

/-! ## On unpacked values -/

section Unpacked

variable {format : Format} {a b : UnpackedFloat}

/-- A finite product has finite factors. -/
theorem isFinite_of_unpacked_mul (h : (UnpackedFloat.mul format a b).isFinite = true) :
    a.isFinite = true ∧ b.isFinite = true := by
  cases a <;> cases b <;> first | exact ⟨rfl, rfl⟩ | exact absurd h Bool.false_ne_true

/-- A finite sum has finite terms. -/
theorem isFinite_of_unpacked_add (h : (UnpackedFloat.add format a b).isFinite = true) :
    a.isFinite = true ∧ b.isFinite = true := by
  cases a <;> cases b
  case infinity.infinity sign sign' =>
    cases sign <;> cases sign' <;> exact absurd h Bool.false_ne_true
  all_goals first | exact ⟨rfl, rfl⟩ | exact absurd h Bool.false_ne_true

theorem isFinite_of_unpacked_sub (h : (UnpackedFloat.sub format a b).isFinite = true) :
    a.isFinite = true ∧ b.isFinite = true := by
  cases a <;> cases b
  case infinity.infinity sign sign' =>
    cases sign <;> cases sign' <;> exact absurd h Bool.false_ne_true
  all_goals first | exact ⟨rfl, rfl⟩ | exact absurd h Bool.false_ne_true

/-- What is divided is finite where the quotient is. -/
theorem isFinite_of_unpacked_div (h : (UnpackedFloat.div format a b).isFinite = true) :
    a.isFinite = true := by
  cases a <;> cases b <;> first | rfl | exact absurd h Bool.false_ne_true

/-- Rounding makes nothing finite. -/
theorem isFinite_of_pack (h : (pack a).unpack.isFinite = true) : a.isFinite = true := by
  cases a with
  | notANumber => exact absurd h (by decide)
  | infinity sign =>
      cases sign with
      | positive => exact absurd h (by decide)
      | negative => exact absurd h (by decide)
  | zero | finite => rfl

end Unpacked

/-! ## On doubles -/

variable {x y : Float}

theorem isFinite_of_mul (h : (x * y).isFinite = true) : x.isFinite = true ∧ y.isFinite = true :=
  isFinite_of_unpacked_mul (isFinite_of_pack h)

theorem isFinite_of_add (h : (x + y).isFinite = true) : x.isFinite = true ∧ y.isFinite = true :=
  isFinite_of_unpacked_add (isFinite_of_pack h)

theorem isFinite_of_sub (h : (x - y).isFinite = true) : x.isFinite = true ∧ y.isFinite = true :=
  isFinite_of_unpacked_sub (isFinite_of_pack h)

theorem isFinite_of_div (h : (x / y).isFinite = true) : x.isFinite = true :=
  isFinite_of_unpacked_div (isFinite_of_pack h)

/-- Only what is finite is small enough not to be whole. -/
theorem isFinite_of_lt_wholeFrom (h : x.abs < wholeFrom) : x.isFinite = true := by
  show x.toModel.unpack.isFinite = true
  have hlt : (pack x.toModel.unpack.abs).unpack.lt wholeFrom.toModel.unpack = true :=
    of_decide_eq_true h
  cases hx : x.toModel.unpack with
  | zero | finite => rfl
  | notANumber =>
      rw [hx] at hlt
      exact absurd hlt (by decide)
  | infinity sign =>
      rw [hx, show (UnpackedFloat.infinity sign).abs = .infinity .positive from rfl] at hlt
      exact absurd hlt (by decide)

/-- What has a finite floor is finite. -/
theorem isFinite_of_floor (h : (floor x).isFinite = true) : x.isFinite = true := by
  by_cases hsmall : x.abs < wholeFrom
  · exact isFinite_of_lt_wholeFrom hsmall
  · rw [floor, if_neg hsmall] at h
    exact h

end FisheyeDock.Double
