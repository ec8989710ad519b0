import FisheyeDock.Proofs.Scalar.Real
import FisheyeDock.Cadence.Basic
import FisheyeDock.Tile.Motion

/-! # Exact values

    The real numbers together with one value more, that of what has none: the coordinates of an icon
    that is not laid out, a quotient by zero, the root of a negative number.  An operation on what is
    undefined is undefined, and no comparison with it holds.

    Where everything has a value, exact values do what the real numbers do.  Where a position is
    missing they do not: a tile without one takes its place at once, while among the real numbers it
    would have to come from somewhere. -/

namespace FisheyeDock

namespace Exact

/-- A real number, or the value of what has none. -/
inductive Value where
  | undefined
  | number (x : ℝ)

namespace Value

/-- An operation on a number. -/
def map (f : ℝ → ℝ) : Value → Value
  | number x => number (f x)
  | undefined => undefined

/-- An operation on two numbers. -/
def combine (f : ℝ → ℝ → ℝ) : Value → Value → Value
  | number x, number y => number (f x y)
  | _, _ => undefined

/-- A quotient, where there is one. -/
noncomputable def div : Value → Value → Value
  | number x, number y => if y = 0 then undefined else number (x / y)
  | _, _ => undefined

/-- A square root, where there is one. -/
noncomputable def sqrt : Value → Value
  | number x => if 0 ≤ x then number (Real.sqrt x) else undefined
  | undefined => undefined

/-- A relation between numbers, in which the undefined value does not take part. -/
def Related (r : ℝ → ℝ → Prop) : Value → Value → Prop
  | number x, number y => r x y
  | _, _ => False

noncomputable instance : Scalar Value where
  add := combine (· + ·)
  sub := combine (· - ·)
  mul := combine (· * ·)
  div := div
  neg := map (- ·)
  ofScientific mantissa negative exponent := number (literal mantissa negative exponent)
  lt := Related (· < ·)
  le := Related (· ≤ ·)
  decLt _ _ := Classical.propDecidable _
  decLe _ _ := Classical.propDecidable _
  sqrt := sqrt
  abs := map (|·|)
  floor := map fun x => (⌊x⌋ : ℝ)
  ofNat n := number n
  undefined := undefined
  isUndefined
    | number _ => false
    | undefined => true
  isFinite
    | number _ => true
    | undefined => false
  roundPlaces
    | places, number x => Scalar.roundPlaces places x
    | _, undefined => none

/-! ## Operations on numbers -/

variable {x y : ℝ}

/-- A quotient is a number where the divisor is not zero. -/
theorem div_number (h : y ≠ 0) : number x / number y = number (x / y) := if_neg h

/-- The root is a number where the radicand is not negative. -/
theorem sqrt_number (h : 0 ≤ x) : Scalar.sqrt (number x) = number (Scalar.sqrt x) := if_pos h

/-- A literal is the number that it is. -/
theorem literal_number (mantissa : Nat) (negative : Bool) (exponent : Nat) :
    (OfScientific.ofScientific mantissa negative exponent : Value) =
      number (OfScientific.ofScientific mantissa negative exponent) := rfl

theorem number_le : number x ≤ number y ↔ x ≤ y := Iff.rfl

/-- What is finite is a number. -/
theorem exists_number {value : Value} (h : Scalar.isFinite value = true) :
    ∃ x, value = number x := by
  cases value with
  | number x => exact ⟨x, rfl⟩
  | undefined => exact nomatch h

/-- A bound is kept among numbers as it is among the real ones. -/
theorem atLeast_number (bound x : ℝ) :
    Scalar.atLeast (number bound) (number x) = number (Scalar.atLeast bound x) := by
  unfold Scalar.atLeast
  by_cases h : bound ≤ x
  · rw [if_pos h, if_pos (number_le.mpr h)]
  · rw [if_neg h, if_neg (number_le.not.mpr h)]

/-- A blend of numbers is the number that their blend is. -/
theorem blend_number {coef : ℝ} (h : 0 < coef) (start goal : ℝ) :
    blend (number start) (number goal) (number coef) = number (blend start goal coef) := by
  have hcoef : coef + literal 10 true 1 ≠ 0 := by
    rw [show literal 10 true 1 = 1 from one_real]
    linarith
  exact div_number hcoef

end Value

end Exact

open Exact Value

namespace Point

/-- A point with numbers for coordinates. -/
def number (p : Point ℝ) : Point Value := ⟨.number p.x, .number p.y⟩

/-- The coordinates of a usable point are numbers. -/
theorem exists_number {p : Point Value} (h : p.isFinite = true) : ∃ q, p = number q := by
  obtain ⟨hx, hy⟩ := Bool.and_eq_true_iff.mp h
  obtain ⟨x, hx⟩ := Value.exists_number hx
  obtain ⟨y, hy⟩ := Value.exists_number hy
  exact ⟨⟨x, y⟩, congrArg₂ Point.mk hx hy⟩

/-- Two points have the distance that they have in the plane. -/
theorem distance_number (p q : Point ℝ) :
    (number p).distance (number q) = .number (p.distance q) :=
  sqrt_number (add_nonneg (mul_self_nonneg (p.x - q.x)) (mul_self_nonneg (p.y - q.y)))

theorem blend_number {coef : ℝ} (h : 0 < coef) (p q : Point ℝ) :
    blend (number p) (number q) (.number coef) = number (blend p q coef) :=
  congrArg₂ Point.mk (Value.blend_number h p.x q.x) (Value.blend_number h p.y q.y)

end Point

/-! ## Steps and intervals -/

/-- Motion over a distance is what it is in the plane. -/
theorem Motion.over_number (distance iconSize : ℝ) :
    Motion.over (Value.number distance) (.number iconSize) = Motion.over distance iconSize := by
  unfold Motion.over
  by_cases hnear : Value.number distance ≤ .number iconSize * 0.01
  · rw [if_pos hnear]
    exact (if_pos hnear).symm
  · rw [if_neg hnear]
    by_cases hfar : Value.number distance < .number iconSize * 3.0
    · rw [if_pos hfar]
      exact ((if_neg hnear).trans (if_pos hfar)).symm
    · rw [if_neg hfar]
      exact ((if_neg hnear).trans (if_neg hfar)).symm

namespace Tile

variable {tile : Tile Value} {p q : Point ℝ}

/-- Between two usable points a step is the one that is taken among the real numbers, over whatever
    size of an icon. -/
theorem smoothPosition_number (hposition : tile.position = .number p)
    (htarget : tile.target = .number q) (iconSize : Value) (retracting : Bool) :
    tile.smoothPosition iconSize retracting =
      match Motion.over (.number (p.distance q)) iconSize with
      | .glide => (.number (Point.blend p q (2.0 * leaveFactor retracting)), true)
      | .arrive | .jump => (.number q, false) := by
  have hcoef : (0 : ℝ) < 2.0 * leaveFactor retracting := by
    unfold leaveFactor
    simp only [ofScientific_real]
    cases retracting <;> norm_num
  have hleave : (2.0 * leaveFactor retracting : Value) =
      .number (2.0 * leaveFactor retracting) := by
    cases retracting <;> rfl
  unfold smoothPosition
  rw [htarget, hposition, Point.distance_number, hleave, Point.blend_number hcoef]
  rfl

/-- A tile without a place is put where it is heading, and does not glide there. -/
theorem smoothPosition_of_unplaced (hposition : tile.position.isFinite = false)
    (htarget : tile.target.isFinite = true) (iconSize : Value) (retracting : Bool) :
    tile.smoothPosition iconSize retracting = (tile.target, false) := by
  unfold smoothPosition
  rw [htarget, hposition]
  rfl

end Tile

namespace Cadence

/-- Where nothing slows the ticks down, the interval between them is the shortest one. -/
theorem intervalFor_zero : intervalFor (0 : ℝ) = .ok baseInterval := by
  have hrounded : ∀ x : ℝ, x = 0 → Scalar.roundPlaces 9 x = some 0 := by
    rintro x rfl
    show (if (0 : ℝ) ≤ 0 then some (Exact.roundHalfEven (0 * 10 ^ 9)) else none) = some 0
    rw [if_pos le_rfl]
    norm_num [Exact.roundHalfEven]
  have hatLeast : Scalar.atLeast (0 : ℝ) 0 = 0 := if_pos le_rfl
  unfold intervalFor
  simp only [ofScientific_real]
  norm_num
  rw [hatLeast, hrounded]
  · rfl
  · norm_num

/-- An interval is the same for a number of frames. -/
theorem intervalFor_number (fps : ℝ) :
    intervalFor (Value.number fps) = intervalFor fps := by
  unfold intervalFor
  rw [literal_number, atLeast_number]
  rfl

end Cadence

end FisheyeDock
