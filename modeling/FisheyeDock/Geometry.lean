import FisheyeDock.Plane

/-! # Where the dock is

    The screen edge that carries the dock, and what the host tells about the dock at one moment. -/

namespace FisheyeDock

/-- The screen edge that carries the dock. -/
inductive Edge where
  | top
  | right
  | bottom
  | left
  deriving Repr, DecidableEq

namespace Edge

/-- The axis the icons are laid out on. -/
def inlineAxis : Edge → Axis
  | top | bottom => .x
  | left | right => .y

/-- The axis that leads away from the edge. -/
def perpendicularAxis : Edge → Axis
  | top | bottom => .y
  | left | right => .x

/-- The sign of the perpendicular direction that leads into the screen. -/
def awaySign {α : Type} [Scalar α] : Edge → α
  | top | left => 1.0
  | bottom | right => -1.0

def isVertical (edge : Edge) : Bool := edge.inlineAxis == .y

/-- The two axes of an edge are the two axes of the screen. -/
theorem perpendicularAxis_eq_across (edge : Edge) :
    edge.perpendicularAxis = edge.inlineAxis.across := by
  cases edge <;> rfl

end Edge

/-- The dock as the host sees it at one moment. -/
structure Geometry (α : Type) where
  edge : Edge
  /-- The size of an icon as set by the user, before the scale factor of the display. -/
  nominalSize : α
  scaleFactor : α
  pointer : Point α
  /-- The corner of the dock from which the icons are counted. -/
  anchor : Point α
  /-- Whether a coordinate of the anchor that is undefined has a negative sign. -/
  anchorNegative : Bool := false
  inFullscreen : Bool
  /-- Whether auto-hide keeps the dock off the screen. -/
  autohideHidden : Bool

namespace Geometry

variable {α : Type} [Scalar α]

/-- A bottom dock of icons of 48, with no pointer on the screen. -/
def standard : Geometry α where
  edge := .bottom
  nominalSize := 48.0
  scaleFactor := 1.0
  pointer := Point.undefined
  anchor := Point.zero
  inFullscreen := false
  autohideHidden := false

/-- The size of an icon, a multiple of two. -/
def iconSize (g : Geometry α) : α := evenFloor g.nominalSize

/-- The size of an icon in pixels of the display. -/
def scaledIconSize (g : Geometry α) : α := g.iconSize * g.scaleFactor

end Geometry

end FisheyeDock
