import FisheyeDock.Decimal.Rounding

/-! # Decimal numbers

    A decimal number as it is written down, and the binary number nearest to it.  The nearest
    number is taken in one step from the exact decimal value, for single and for double precision
    alike, so nothing is rounded twice. -/

namespace FisheyeDock

/-- The number `digits * 10 ^ exponent`, with a sign of its own so that zero can be negative. -/
structure Decimal where
  negative : Bool
  digits : Nat
  exponent : Int
  deriving Repr, DecidableEq

namespace Decimal

/-- The number is below `10 ^ leadingPlace`, and unless it is zero not below a tenth of that. -/
def leadingPlace (d : Decimal) : Int := (Nat.toDigits 10 d.digits).length + d.exponent

/-- The double nearest to a number, the even one of two equally near.  Outside the range of doubles
    the powers of ten are not computed: the largest double is below `10 ^ 309` and half the smallest
    one above `10 ^ -324`. -/
def toFloat (d : Decimal) : Float :=
  let magnitude : Float :=
    if d.digits = 0 then 0.0
    else if 310 < d.leadingPlace then 1.0 / 0.0
    else if d.leadingPlace < -330 then 0.0
    else Float.ofScientific d.digits (decide (d.exponent < 0)) d.exponent.natAbs
  if d.negative then -magnitude else magnitude

/-- The single precision number nearest to a number, the even one of two equally near.  The largest
    one is below `10 ^ 39` and half the smallest one above `10 ^ -46`. -/
def toFloat32 (d : Decimal) : Float32 :=
  let magnitude : Float32 :=
    if d.digits = 0 then 0.0
    else if 40 < d.leadingPlace then 1.0 / 0.0
    else if d.leadingPlace < -60 then 0.0
    else Float32.ofScientific d.digits (decide (d.exponent < 0)) d.exponent.natAbs
  if d.negative then -magnitude else magnitude

/-- The value of a run of decimal digits. -/
def digitsValue (digits : List Char) : Nat :=
  digits.foldl (fun value c => 10 * value + (c.toNat - '0'.toNat)) 0

end Decimal

end FisheyeDock
