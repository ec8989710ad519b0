/-! # Single precision arithmetic

    What colors need beyond the four operations: clamping, and the exact remainder of a division. -/

namespace FisheyeDock.Single

open Float.Model Float.Model.UnpackedFloat

/-- `x` brought into the range from `low` to `high`.  What is undefined stays so. -/
def clamp (low high x : Float32) : Float32 :=
  if x < low then low else if high < x then high else x

/-- `x` brought into the range from zero to one. -/
def clampUnit (x : Float32) : Float32 := clamp 0.0 1.0 x

/-- What is left of `x` after taking away the largest whole multiple of `modulus` that is no
    farther from zero than `x`.  The remainder has the sign of `x` and is exact. -/
def remainder (x modulus : Float32) : Float32 :=
  match x.toModel.unpack, modulus.toModel.unpack with
  | .finite sign m e _, .finite _ m' e' _ =>
    let unit := min e e'
    let rest := (m <<< (e - unit).toNat) % (m' <<< (e' - unit).toNat)
    .ofModel (Float32.Model.pack
      (if rest = 0 then .zero sign else round .binary32 sign rest unit))
  | .zero _, .finite .. | .zero _, .infinity _ | .finite .., .infinity _ => x
  | _, _ => 0.0 / 0.0

/-- `x` moved by whole multiples of `modulus` into the range from zero up to `modulus`. -/
def wrap (modulus x : Float32) : Float32 := remainder (remainder x modulus + modulus) modulus

end FisheyeDock.Single
