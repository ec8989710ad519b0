import FisheyeDock.Color.Model
import FisheyeDock.Color.Named
import FisheyeDock.Color.Text
import FisheyeDock.Decimal.Numeral
import FisheyeDock.Text.Blank
import FisheyeDock.Text.Cut

/-! # Colors as written in style sheets

    A color is written as hexadecimal digits, as a function of three components and an opacity that
    may be left out, or as a name.  The reader that comes with the dock (`Css.builtIn`) tries the forms
    in this order. -/

namespace FisheyeDock.Color

/-! ## Hexadecimal digits -/

/-- The value of a hexadecimal digit of either case. -/
def hexDigit? (c : Char) : Option UInt8 :=
  if '0' ≤ c ∧ c ≤ '9' then some (c.toNat - '0'.toNat).toUInt8
  else if 'a' ≤ c ∧ c ≤ 'f' then some (c.toNat - 'a'.toNat + 10).toUInt8
  else if 'A' ≤ c ∧ c ≤ 'F' then some (c.toNat - 'A'.toNat + 10).toUInt8
  else none

/-- A channel of one digit, which stands for the digit written twice. -/
def shortByte? (c : Char) : Option UInt8 := (hexDigit? c).map fun n => n * 16 + n

/-- A channel of two digits, of which the first may be a plus sign. -/
def longByte? (high low : Char) : Option UInt8 :=
  if high = '+' then hexDigit? low
  else do pure ((← hexDigit? high) * 16 + (← hexDigit? low))

/-- Three or four channels of one digit each, or of two digits each. -/
def hex? : List Char → Option Color
  | [r, g, b] => do pure (ofBytes (← shortByte? r) (← shortByte? g) (← shortByte? b) 255)
  | [r, g, b, a] => do
    pure (ofBytes (← shortByte? r) (← shortByte? g) (← shortByte? b) (← shortByte? a))
  | [r, r', g, g', b, b'] => do
    pure (ofBytes (← longByte? r r') (← longByte? g g') (← longByte? b b') 255)
  | [r, r', g, g', b, b', a, a'] => do
    pure (ofBytes (← longByte? r r') (← longByte? g g') (← longByte? b b') (← longByte? a a'))
  | _ => none

/-! ## Components of functions -/

/-- A component: its value, and whether it was written as a percentage. -/
structure Component where
  value : Float32
  percent : Bool

def number? (text : List Char) : Option Float32 := (Numeral.read? text).map Numeral.toFloat32

/-- A percentage, or a plain number that is divided by `whole`. -/
def component? (whole : Float32) (text : List Char) : Option Component :=
  if text.getLast? = some '%' then
    (number? text.dropLast).map fun value => ⟨value / 100.0, true⟩
  else (number? text).map fun value => ⟨value / whole, false⟩

/-- The text before a unit, which may be in any case.  The text is cut as many bytes from its end as
    the unit has, before the two are compared. -/
def beforeUnit? (unit : String) (text : List Char) : Except Fault (Option (List Char)) :=
  if Text.byteLength text < unit.length then pure none
  else do
    let (number, rest) ← Text.cutAt (Text.byteLength text - unit.length) text
    pure (if Text.lower rest = unit.toList then some number else none)

/-- The units of an angle, with what turns them into degrees. -/
def angleUnits : List (String × (Float32 → Float32)) :=
  [("deg", id), ("grad", (· * 360.0 / 400.0)), ("rad", (· * 57.29577951308232)),
    ("turn", (· * 360.0))]

/-- An angle in degrees, written with the first of some units that fits, or without. -/
def angleIn? (text : List Char) :
    List (String × (Float32 → Float32)) → Except Fault (Option Float32)
  | [] => pure (number? text)
  | (unit, toDegrees) :: units => do
    match (← beforeUnit? unit text).bind number? with
    | some value => pure (some (toDegrees value))
    | none => angleIn? text units

/-- An angle in degrees. -/
def angle? (text : List Char) : Except Fault (Option Float32) := angleIn? text angleUnits

/-! ## Functions -/

/-- A function by its three components and its opacity, which is in range already. -/
abbrev Reader := List Char → List Char → List Char → Float32 → Except Fault (Option Color)

/-- Red, green and blue, all as percentages or all up to 255. -/
def readRgb : Reader := fun r g b alpha => pure do
  let r ← component? 255.0 r
  let g ← component? 255.0 g
  let b ← component? 255.0 b
  if r.percent = g.percent ∧ g.percent = b.percent then
    pure ⟨Single.clampUnit r.value, Single.clampUnit g.value, Single.clampUnit b.value, alpha⟩
  else none

/-- A hue and two components, both as percentages or both plain. -/
def readHue (toChannels : Float32 → Float32 → Float32 → Channels) : Reader := fun h x y alpha => do
  let hue ← angle? h
  pure do
    let hue ← hue
    let x ← component? 1.0 x
    let y ← component? 1.0 y
    if x.percent = y.percent then
      pure ((toChannels (Single.wrap 360.0 hue) (Single.clampUnit x.value)
        (Single.clampUnit y.value)).withAlpha alpha)
    else none

/-- A lightness that is not negative. -/
def lightness? (text : List Char) : Option Float32 :=
  (component? 1.0 text).map fun c => if 0.0 ≤ c.value then c.value else 0.0

/-- A chroma that is not negative, of which a hundred percent are 0.4. -/
def chroma? (text : List Char) : Option Float32 :=
  (component? 1.0 text).map fun c =>
    let chroma := if c.percent then c.value * 0.4 else c.value
    if 0.0 ≤ chroma then chroma else 0.0

/-- A position on an axis that goes to 0.4 on both sides.  A percentage is counted from the lower
    end of the axis, so that one which makes no difference there means the middle. -/
def opponent? (text : List Char) : Option Float32 :=
  (component? 1.0 text).map fun c => if c.percent then (c.value + 1.0) * 0.4 - 0.4 else c.value

def readOklab : Reader := fun l a b alpha => pure do
  pure ((ofOpponents (← lightness? l) (← opponent? a) (← opponent? b)).withAlpha alpha)

def readOklch : Reader := fun l c h alpha => do
  let hue ← angle? h
  pure do
    let l ← lightness? l
    let c ← chroma? c
    let hue ← hue
    pure ((ofChroma l c (hue * 0.017453292519943295)).withAlpha alpha)

/-- The functions by name, with what is wrong where the components are. -/
def functions : List (List String × Reader × ReadError) :=
  [(["rgb", "rgba"], readRgb, .rgb),
    (["hwb", "hwba"], readHue ofWhiteness, .hwb),
    (["hsl", "hsla"], readHue ofLightness, .hsl),
    (["hsv", "hsva"], readHue ofValue, .hsv),
    (["oklab"], readOklab, .oklab),
    (["oklch"], readOklch, .oklch)]

/-- The opacity in range: a percentage or a number, one where none is given. -/
def alpha? : List (List Char) → Option Float32
  | [] => some 1.0
  | [text] => (component? 1.0 text).map fun c => Single.clampUnit c.value
  | _ => none

/-- A function by its name and its components. -/
def apply (name : List Char) (components : List (List Char)) : Except (Halt ReadError) Color :=
  match components with
  | x :: y :: z :: rest =>
    match alpha? rest with
    | none => .error (.report .function)
    | some alpha =>
      match functions.find? (fun entry => entry.1.contains (String.ofList (Text.lower name))) with
      | none => .error (.report .function)
      | some (_, reader, failure) =>
        match reader x y z alpha with
        | .ok (some color) => .ok color
        | .ok none => .error (.report failure)
        | .error fault => .error (.fault fault)
  | _ => .error (.report .function)

/-- The components between the parentheses of a function, which end at commas, slashes and
    blanks. -/
def components (text : List Char) : List (List Char) :=
  Text.words (fun c => c == ',' || c == '/' || Text.isSeparator c) text

/-! ## Whole texts -/

/-- The color of the digits behind a `#`. -/
def readHex (digits : List Char) : Except (Halt ReadError) Color :=
  match hex? digits with
  | some color => .ok color
  | none => .error (.report .hex)

/-- A color without a leading `#` and without parentheses. -/
def readWord (word : List Char) : Except (Halt ReadError) Color :=
  match hex? word with
  | some color => .ok color
  | none =>
    match named? (String.ofList (Text.lower word)) with
    | some color => .ok color
    | none => .error (.report .unknown)

/-- A color in any of its forms, before it is clamped. -/
def readForm (text : List Char) : Except (Halt ReadError) Color :=
  if Text.lower text = "transparent".toList then .ok ⟨0.0, 0.0, 0.0, 0.0⟩
  else match text with
    | '#' :: digits => readHex digits
    | _ =>
      if text.contains '(' ∧ text.getLast? = some ')' then
        let name := text.takeWhile (· ≠ '(')
        let inner := (text.drop (name.length + 1)).dropLast
        apply (Text.trimEnd name) (components inner)
      else readWord text

/-- The reader that comes with the dock. -/
def Css.builtIn : Css where
  parse text := readForm (Text.trim text.toList)
  clamp := Color.clamp

/-- The color a text stands for. -/
def read (text : String) : Except (Halt ReadError) Color := ofText .builtIn text

end FisheyeDock.Color
