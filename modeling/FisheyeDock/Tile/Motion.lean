import FisheyeDock.Tile.Basic

/-! # How tiles move

    At every tick a tile goes one step toward its target.  Its scale is blended with the target
    scale.  Its position glides over a moderate distance, and is set at once where the distance is
    too short or too long to glide.  What is not finite is never taken over. -/

namespace FisheyeDock

variable {α : Type} [Scalar α]

/-- How a tile moves over a distance. -/
inductive Motion where
  /-- It has as good as arrived. -/
  | arrive
  | glide
  /-- The way is too far to glide. -/
  | jump
  deriving Repr, DecidableEq

/-- The motion over a distance, which is measured in icon sizes. -/
def Motion.over (distance iconSize : α) : Motion :=
  if distance ≤ iconSize * 0.01 then arrive
  else if distance < iconSize * 3.0 then glide
  else jump

namespace Tile

/-- How much gentler tiles move while none is magnified. -/
def leaveFactor (retracting : Bool) : α := if retracting then 1.4 else 1.0

/-- The scale one step nearer to the target, at least one.  A step that leads to no finite scale is
    not taken. -/
def smoothScale (tile : Tile α) (retracting : Bool) : α :=
  let scale := blend tile.scale tile.targetScale (2.5 * leaveFactor retracting)
  if Scalar.isFinite scale then Scalar.atLeast 1.0 scale else tile.scale

/-- The position one step nearer to the target, and whether the tile glided there.  A step that
    leads to no finite position is not taken. -/
def smoothPosition (tile : Tile α) (iconSize : α) (retracting : Bool) : Point α × Bool :=
  if !tile.target.isFinite then (tile.position, false)
  else if !tile.position.isFinite then (tile.target, false)
  else match Motion.over (Point.distance tile.position tile.target) iconSize with
    | .glide =>
      let position := Point.blend tile.position tile.target (2.0 * leaveFactor retracting)
      if position.isFinite then (position, true) else (tile.position, false)
    | .arrive | .jump => (tile.target, false)

/-- Moves a tile one step toward its target, and tells whether its position glided. -/
def step (tile : Tile α) (iconSize : α) (retracting : Bool) : Tile α × Bool :=
  let (position, glided) := smoothPosition tile iconSize retracting
  ({ tile with scale := smoothScale tile retracting, position }, glided)

end Tile

end FisheyeDock
