/-! # Rounding a quotient

    `roundHalfEven num den` is the whole number nearest to `num / den`; a quotient exactly between
    two whole numbers goes to the even one.  `roundBinary` rounds `mantissa * 2 ^ exponent` times a
    power of ten the same way, which is how a binary fraction is cut to decimal places. -/

namespace FisheyeDock.Decimal

/-- The whole number nearest to `num / den`, the even one of two equally near. -/
def roundHalfEven (num den : Nat) : Nat :=
  let low := num / den
  let rest := num % den
  if 2 * rest < den then low
  else if den < 2 * rest then low + 1
  else if low % 2 = 0 then low
  else low + 1

/-- `mantissa * 2 ^ exponent * 10 ^ places`, rounded half to even. -/
def roundBinary (places mantissa : Nat) : Int → Nat
  | .ofNat up => mantissa * Nat.pow 10 places * Nat.pow 2 up
  | .negSucc down => roundHalfEven (mantissa * Nat.pow 10 places) (Nat.pow 2 (down + 1))

end FisheyeDock.Decimal
