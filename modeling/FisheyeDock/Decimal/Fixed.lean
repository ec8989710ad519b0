import FisheyeDock.Scalar

/-! # Fixed decimal places

    Writes a number with a fixed count of decimal places.  The exact value is rounded, a half going
    to the even neighbour, and at least one digit stands before the point. -/

namespace FisheyeDock.Decimal

variable {α : Type} [Scalar α]

/-- `units` in units of `10 ^ -places`. -/
def fixedUnits (places units : Nat) : String :=
  let digits := Nat.toDigits 10 units
  let padded := List.replicate (places + 1 - digits.length) '0' ++ digits
  let whole := padded.length - places
  if places = 0 then String.ofList padded
  else String.ofList (padded.take whole ++ '.' :: padded.drop whole)

/-- A number with `places` decimal places. -/
def fixed (places : Nat) (x : α) : String :=
  if Scalar.isUndefined x then "NaN"
  else
    let sign := if x < 0.0 then "-" else ""
    match Scalar.roundPlaces places (Scalar.abs x) with
    | some units => sign ++ fixedUnits places units
    | none => sign ++ "inf"

end FisheyeDock.Decimal
