import FisheyeDock.Single

/-! # Colors

    A color has three channels and an opacity, each from zero to one. -/

namespace FisheyeDock

/-- A color, not yet multiplied with its opacity. -/
structure Color where
  red : Float32
  green : Float32
  blue : Float32
  alpha : Float32
  deriving Repr, DecidableEq

namespace Color

/-- The channel that a byte stands for. -/
def channel (byte : UInt8) : Float32 := byte.toFloat32 / 255.0

/-- The color that four bytes stand for. -/
def ofBytes (red green blue alpha : UInt8) : Color :=
  ⟨channel red, channel green, channel blue, channel alpha⟩

def white : Color := ⟨1.0, 1.0, 1.0, 1.0⟩

def pureRed : Color := ⟨1.0, 0.0, 0.0, 1.0⟩

/-- Every channel brought into its range. -/
def clamp (c : Color) : Color :=
  ⟨Single.clampUnit c.red, Single.clampUnit c.green, Single.clampUnit c.blue,
    Single.clampUnit c.alpha⟩

end Color

end FisheyeDock
