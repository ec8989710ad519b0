import FisheyeDock.Decimal.Rounding

/-! # Scalars

    Coordinates, scales and settings are of one numeric type `α`.  `Scalar α` lists what the
    library asks of it: the four operations, decimal literals, an order, a square root, and the
    tests that keep undefined and infinite values out.  The library runs on `Float`; a theorem that
    speaks of exact arithmetic takes another instance.

    The laws of a field are not part of the class, because rounding breaks them.  Every expression
    over scalars is therefore written in the one order in which it is to be evaluated. -/

namespace FisheyeDock

/-- A numeric type the library can compute with. -/
class Scalar (α : Type) extends
    Add α, Sub α, Mul α, Div α, Neg α, OfScientific α, LT α, LE α where
  decLt : DecidableLT α
  decLe : DecidableLE α
  sqrt : α → α
  abs : α → α
  /-- The largest whole number that is not above. -/
  floor : α → α
  ofNat : Nat → α
  /-- The value of what has none, such as a coordinate of an icon that is not laid out. -/
  undefined : α
  isUndefined : α → Bool
  isFinite : α → Bool
  /-- `roundPlaces places x` is `x * 10 ^ places` rounded to a whole number, half to even, for a
  finite `x` that is not negative. -/
  roundPlaces : Nat → α → Option Nat

namespace Scalar

variable {α : Type} [Scalar α]

instance : DecidableLT α := decLt

instance : DecidableLE α := decLe

/-- Either zero, of a type that has two. -/
def isZero (x : α) : Bool := decide (x ≤ 0.0) && decide ((0.0 : α) ≤ x)

/-- `x`, or `bound` where `x` is below it or undefined. -/
def atLeast (bound x : α) : α := if bound ≤ x then x else bound

end Scalar

/-! ## Doubles -/

namespace Double

/-- Doubles of this size and above are whole. -/
def wholeFrom : Float := 4503599627370496.0

/-- The largest whole double that is not above `x`.  Zeros, infinities and the undefined value
    stay as they are, and so does the sign of a zero. -/
def floor (x : Float) : Float :=
  if x.abs < wholeFrom then
    let whole := x.abs.toUInt64.toFloat
    if 0.0 < x then whole
    else if x < 0.0 then -(if whole < x.abs then whole + 1.0 else whole)
    else x
  else x

/-- `x * 10 ^ places` rounded half to even, computed from the exact value of `x`. -/
def roundPlaces (places : Nat) (x : Float) : Option Nat :=
  match x.toModel.unpack with
  | .finite .positive mantissa exponent _ => some (Decimal.roundBinary places mantissa exponent)
  | .zero _ => some 0
  | _ => none

end Double

instance : Scalar Float where
  decLt := inferInstance
  decLe := inferInstance
  sqrt := Float.sqrt
  abs := Float.abs
  floor := Double.floor
  ofNat := Float.ofNat
  undefined := 0.0 / 0.0
  isUndefined := Float.isNaN
  isFinite := Float.isFinite
  roundPlaces := Double.roundPlaces

end FisheyeDock
