import FisheyeDock.Icon
import FisheyeDock.Label
import FisheyeDock.Marker.Basic

/-! # What the engine draws

    The engine draws nothing itself.  Each of its operations returns commands, in order, for the
    host to carry out: on tiles, which stand in for icons while the engine is enabled, on markers,
    on labels, and on the host's own icons. -/

namespace FisheyeDock

/-- The identity of a tile in the scene. -/
structure Tile.Id where
  val : UInt64
  deriving Repr, DecidableEq

/-- A command to the host. -/
inductive Scene.Command (α : Type) where
  /-- Run the layout of the dock. -/
  | relayout
  | createTile (id : Tile.Id) (key : Icon.Key) (size : α)
  | releaseTile (id : Tile.Id)
  | showTile (id : Tile.Id) (visible : Bool)
  /-- Whether the tile takes clicks. -/
  | activateTile (id : Tile.Id) (reactive : Bool)
  | transformTile (id : Tile.Id) (position : Point α) (scale : α)
  | placeLabel (key : Icon.Key) (label : Label α)
  /-- Set the opacity of the host's own icon, which a tile hides. -/
  | setIconOpacity (key : Icon.Key) (opacity : UInt8)
  | createMarker (id : Marker.Id) (kind : Marker.Kind)
  | releaseMarker (id : Marker.Id)
  | hideMarker (id : Marker.Id)
  | showDot (id : Marker.Id) (dot : Dot α)
  | showBadge (id : Marker.Id) (badge : Badge α)
  /-- Show or hide the layers that hold the tiles and the markers. -/
  | showLayers (visible : Bool)

/-- What the host tells the engine at one moment. -/
structure Host (α : Type) where
  settings : Settings α
  geometry : Geometry α
  /-- The icons in the order of the dock. -/
  icons : List (Icon α)

end FisheyeDock
