import FisheyeDock.Scene

/-! # Tiles

    A tile stands in for one icon while the engine is enabled.  It has its own position and scale,
    which move toward a target that is set anew at every tick. -/

namespace FisheyeDock

/-- The moving image of one icon. -/
structure Tile (α : Type) where
  id : Tile.Id
  key : Icon.Key
  /-- The top left corner as drawn. -/
  position : Point α
  /-- Where the position is heading. -/
  target : Point α
  /-- The top left corner at rest, as laid out by the host. -/
  fixed : Point α
  scale : α
  targetScale : α
  /-- The distance to the pointer, on the magnified tile alone. -/
  distance : Option α
  /-- The way from the pointer to the center of the icon, on the magnified tile alone. -/
  pointerOffset : Point α
  /-- Whether the host has given the icon a usable position. -/
  visible : Bool
  windows : UInt32
  notifications : UInt32
  /-- The markers of this frame. -/
  dot : Option Marker.Id
  badge : Option Marker.Id

namespace Tile

variable {α : Type} [Scalar α]

/-- A new tile, at rest on its icon. -/
def ofIcon (id : Tile.Id) (icon : Icon α) : Tile α :=
  let position := icon.restingPosition.getD Point.undefined
  { id
    key := icon.key
    position
    target := position
    fixed := position
    scale := 1.0
    targetScale := 1.0
    distance := none
    pointerOffset := Point.zero
    visible := icon.restingPosition.isSome
    windows := icon.windows
    notifications := icon.notifications
    dot := none
    badge := none }

/-- Takes over what the host owns.  The position is taken over only where the tile has none. -/
def refresh (tile : Tile α) (icon : Icon α) : Tile α :=
  let tile := { tile with windows := icon.windows, notifications := icon.notifications }
  match icon.restingPosition with
  | some resting =>
    { tile with
      fixed := resting
      position := if tile.position.isFinite then tile.position else resting
      visible := true }
  | none => { tile with visible := false }

/-- Sends the tile back to rest. -/
def reset (tile : Tile α) : Tile α :=
  { tile with
    target := tile.fixed
    targetScale := 1.0
    distance := none
    pointerOffset := Point.zero }

/-- The commands that let go of a tile and bring its icon back. -/
def releases (tile : Tile α) : List (Scene.Command α) :=
  [.releaseTile tile.id, .setIconOpacity tile.key 255]

/-- The commands that put a tile in the place of its icon. -/
def creations (size : α) (tile : Tile α) : List (Scene.Command α) :=
  [.createTile tile.id tile.key size, .setIconOpacity tile.key 0]

end Tile

end FisheyeDock
