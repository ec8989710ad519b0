import FisheyeDock.Geometry

/-! # Labels

    An icon has a label, which goes beyond the icon as seen from the screen edge. -/

namespace FisheyeDock

/-- Where the label of an icon goes. -/
structure Label (α : Type) where
  /-- The axis that leads away from the screen edge. -/
  axis : Axis
  /-- The coordinate on that axis. -/
  value : α
  /-- The coordinate along the dock, unless the host is to choose it. -/
  along : Option α
  /-- The part of its own width by which the label is moved back. -/
  widthShift : α

variable {α : Type} [Scalar α]

/-- Where the label goes for an icon at a position: beyond the icon as seen from the edge. -/
def Label.ofIcon (position : Point α) (scale : α) (g : Geometry α) : Label α :=
  let size := g.iconSize * scale * g.scaleFactor
  { axis := g.edge.perpendicularAxis
    value := match g.edge with
      | .bottom => position.y - size * 0.9
      | .top => position.y + size * 0.9
      | .left => position.x + size * 1.1
      | .right => position.x - size * 1.1
    along := if g.edge.isVertical then some position.y else none
    widthShift := if g.edge = .right then 1.0 / 1.8 else 0.0 }

end FisheyeDock
