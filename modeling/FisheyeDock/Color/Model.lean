import FisheyeDock.Color.Basic

/-! # Color models

    The ways to give a color other than by its red, green and blue: by hue, saturation and
    lightness, by hue, whiteness and blackness, by hue, saturation and value, and by lightness and
    two opponent axes.  A hue is an angle in degrees. -/

namespace FisheyeDock.Color

/-- The three channels without the opacity. -/
structure Channels where
  red : Float32
  green : Float32
  blue : Float32

namespace Channels

/-- A gray. -/
def gray (level : Float32) : Channels := ⟨level, level, level⟩

def map (f : Float32 → Float32) (c : Channels) : Channels := ⟨f c.red, f c.green, f c.blue⟩

def withAlpha (c : Channels) (alpha : Float32) : Color := ⟨c.red, c.green, c.blue, alpha⟩

end Channels

/-- One channel at a hue counted in sixths of the circle: up from `low` to `high` over the first
    sixth, down again over the fourth. -/
def hueChannel (low high hue : Float32) : Float32 :=
  let h := Single.wrap 6.0 hue
  if h < 1.0 then low + ((high - low) * h)
  else if h < 3.0 then high
  else if h < 4.0 then low + ((high - low) * (4.0 - h))
  else low

/-- Hue, saturation and lightness. -/
def ofLightness (hue saturation lightness : Float32) : Channels :=
  if saturation == 0.0 then .gray lightness
  else
    let high :=
      if lightness < 0.5 then lightness * (1.0 + saturation)
      else lightness + saturation - (lightness * saturation)
    let low := 2.0 * lightness - high
    let h := hue / 60.0
    ⟨hueChannel low high (h + 2.0), hueChannel low high h, hueChannel low high (h - 2.0)⟩

/-- Hue, whiteness and blackness. -/
def ofWhiteness (hue white black : Float32) : Channels :=
  if 1.0 ≤ white + black then .gray (white / (white + black))
  else (ofLightness hue 1.0 0.5).map fun c => c * (1.0 - white - black) + white

/-- Hue, saturation and value. -/
def ofValue (hue saturation value : Float32) : Channels :=
  let lightness := (2.0 - saturation) * value / 2.0
  let saturation :=
    if lightness == 0.0 then saturation
    else if lightness == 1.0 then 0.0
    else if lightness < 0.5 then saturation * value / (lightness * 2.0)
    else saturation * value / (2.0 - lightness * 2.0)
  ofLightness hue saturation lightness

/-- The stored level of a channel from its share of light. -/
def encodeLight (light : Float32) : Float32 :=
  if 0.0031308 ≤ light then 1.055 * light.pow (1.0 / 2.4) - 0.055 else 12.92 * light

/-- Perceived lightness, with an axis from green to red and one from blue to yellow. -/
def ofOpponents (lightness a b : Float32) : Channels :=
  let cube (x : Float32) : Float32 := x * x * x
  let l := cube (lightness + 0.3963377774 * a + 0.2158037573 * b)
  let m := cube (lightness - 0.1055613458 * a - 0.0638541728 * b)
  let s := cube (lightness - 0.0894841775 * a - 1.2914855480 * b)
  Channels.map encodeLight
    ⟨4.0767416621 * l - 3.3077115913 * m + 0.2309699292 * s,
      -1.2684380046 * l + 2.6097574011 * m - 0.3413193965 * s,
      -0.0041960863 * l - 0.7034186147 * m + 1.7076147010 * s⟩

/-- Perceived lightness, chroma, and a hue in radians. -/
def ofChroma (lightness chroma hue : Float32) : Channels :=
  ofOpponents lightness (chroma * hue.cos) (chroma * hue.sin)

end FisheyeDock.Color
