import FisheyeDock.Color.Basic
import FisheyeDock.Fault

/-! # Colors of texts

    A color is read from a text by a reader of style sheets and brought into its range by the same
    (`Color.ofText`). -/

namespace FisheyeDock.Color

/-- Why a text is no color. -/
inductive ReadError where
  | hex
  | rgb
  | hsl
  | hwb
  | hsv
  | oklab
  | oklch
  /-- The function is unknown, or the number of its components or its opacity is wrong. -/
  | function
  | unknown
  deriving Repr, DecidableEq

def ReadError.message : ReadError → String
  | hex => "invalid hex format"
  | rgb => "invalid rgb format"
  | hsl => "invalid hsl format"
  | hwb => "invalid hwb format"
  | hsv => "invalid hsv format"
  | oklab => "invalid oklab format"
  | oklch => "invalid oklch format"
  | function => "invalid color function"
  | unknown => "invalid unknown format"

/-- What reads colors as written in style sheets. -/
structure Css where
  /-- The color of a text, whose channels may be out of range. -/
  parse : String → Except (Halt ReadError) Color
  /-- Brings the channels into their range. -/
  clamp : Color → Color

/-- The color a text stands for. -/
def ofText (css : Css) (text : String) : Except (Halt ReadError) Color :=
  (css.parse text).map css.clamp

end FisheyeDock.Color
