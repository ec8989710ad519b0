import FisheyeDock.Geometry
import FisheyeDock.Settings.Basic

/-! # Markers

    Marks drawn on icons: a dot under an icon with windows, a badge with a count on an icon with
    notifications.  Both sit near a corner or side of the icon and follow its position and scale. -/

namespace FisheyeDock

/-- What a marker tells. -/
inductive Marker.Kind where
  | dot
  | badge
  deriving Repr, DecidableEq

/-- The identity of a marker in the scene. -/
structure Marker.Id where
  val : UInt64
  deriving Repr, DecidableEq

inductive Dot.Style where
  | standard
  | dots
  | dot
  | dashes
  | dash
  | squares
  | square
  | segmented
  | solid
  | triangles
  | triangle
  | diamonds
  | diamond
  | binary
  deriving Repr, DecidableEq

/-- The styles of dots by their number. -/
def Dot.Style.all : List Dot.Style :=
  [.standard, .dots, .dot, .dashes, .dash, .squares, .square, .segmented, .solid, .triangles,
    .triangle, .diamonds, .diamond, .binary]

/-- The style with a number, the first one if there is none. -/
def Dot.Style.ofNumber (n : UInt8) : Dot.Style := Dot.Style.all.getD n.toNat .standard

inductive Badge.Style where
  | standard
  | dot
  | dash
  | square
  | triangle
  | diamond
  deriving Repr, DecidableEq

/-- The styles of badges by their number. -/
def Badge.Style.all : List Badge.Style :=
  [.standard, .dot, .dash, .square, .triangle, .diamond]

/-- The style with a number, the first one if there is none. -/
def Badge.Style.ofNumber (n : UInt8) : Badge.Style := Badge.Style.all.getD n.toNat .standard

/-- A dot to be drawn. -/
structure Dot (α : Type) where
  position : Point α
  scale : α
  /-- The number of windows. -/
  count : UInt32
  color : Color
  style : Dot.Style

/-- A badge to be drawn. -/
structure Badge (α : Type) where
  position : Point α
  scale : α
  /-- The number of notifications. -/
  count : UInt32
  color : Color
  /-- In degrees. -/
  rotation : α
  /-- In sizes of the icon. -/
  shift : Point α
  style : Badge.Style

variable {α : Type} [Scalar α]

/-- The dot of an icon: a little below it. -/
def Dot.ofIcon (position : Point α) (scale : α) (count : UInt32) (g : Geometry α)
    (settings : MarkerSettings) : Dot α where
  position := position + ⟨0.0, g.iconSize * 0.08 * g.scaleFactor⟩
  scale
  count
  color := settings.color
  style := .ofNumber settings.style

/-- The badge of an icon: a little up and to the right. -/
def Badge.ofIcon (position : Point α) (scale : α) (count : UInt32) (g : Geometry α)
    (settings : MarkerSettings) : Badge α :=
  let offset := g.iconSize * 0.04 * g.scaleFactor
  { position := position + ⟨offset, -offset⟩
    scale
    count
    color := settings.color
    rotation := 180.0
    shift := ⟨0.4, 0.0⟩
    style := .ofNumber settings.style }

end FisheyeDock
