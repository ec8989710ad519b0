import FisheyeDock.Marker.Pool
import FisheyeDock.Row
import FisheyeDock.Tile.Motion

/-! # Frames

    A frame is what one tick shows.  Every tile is moved and written to the scene with the label of
    its icon and its markers.  The markers are taken from the pool tile by tile, a badge before a
    dot. -/

namespace FisheyeDock

variable {α : Type} [Scalar α]

/-- The tiles of a frame, and the commands that show it. -/
structure Frame (α : Type) where
  pool : Marker.Pool
  tiles : List (Tile α)
  commands : List (Scene.Command α)
  /-- Whether a tile has glided. -/
  glided : Bool

namespace Frame

open Marker

/-- How many dots and badges a frame can need. -/
def demand (settings : Settings α) (tiles : List (Tile α)) : Nat × Nat :=
  (if settings.dot.off then 0 else (tiles.filter fun tile => decide (0 < tile.windows)).length,
    if settings.badge.off then 0 else tiles.length)

/-- Gives a tile its badge, if it is to have one and there is one. -/
def placeBadge (g : Geometry α) (settings : Settings α) (pool : Pool) (tile : Tile α) :
    Pool × Tile α × List (Scene.Command α) :=
  if !settings.badge.off && decide (0 < tile.notifications) then
    match pool.take .badge with
    | (some id, pool) =>
      (pool, { tile with badge := some id },
        [.showBadge id
          (Badge.ofIcon tile.position tile.scale tile.notifications g settings.badge)])
    | (none, pool) => (pool, tile, [])
  else (pool, tile, [])

/-- Gives a tile its dot, if it is to have one and there is one. -/
def placeDot (g : Geometry α) (settings : Settings α) (pool : Pool) (tile : Tile α) :
    Pool × Tile α × List (Scene.Command α) :=
  if !settings.dot.off && decide (0 < tile.windows) then
    match pool.take .dot with
    | (some id, pool) =>
      (pool, { tile with dot := some id },
        [.showDot id (Dot.ofIcon tile.position tile.scale tile.windows g settings.dot)])
    | (none, pool) => (pool, tile, [])
  else (pool, tile, [])

/-- A tile as placed. -/
structure Placed (α : Type) where
  /-- The pool with what the tile has left. -/
  pool : Pool
  tile : Tile α
  commands : List (Scene.Command α)
  glided : Bool

/-- Writes a tile with a usable position to the scene. -/
def writeTile (g : Geometry α) (settings : Settings α) (pool : Pool) (tile : Tile α) :
    Pool × Tile α × List (Scene.Command α) :=
  let (pool, tile, badge) := placeBadge g settings pool tile
  let (pool, tile, dot) := placeDot g settings pool tile
  (pool, tile,
    .transformTile tile.id tile.position tile.scale
      :: .placeLabel tile.key (Label.ofIcon tile.position tile.scale g)
      :: (badge ++ dot))

/-- Moves one tile and writes it to the scene. -/
def placeTile (g : Geometry α) (settings : Settings α) (retracting : Bool) (pool : Pool)
    (tile : Tile α) : Placed α :=
  let tile := { tile with dot := none, badge := none }
  let visibility : Scene.Command α := .showTile tile.id tile.visible
  if tile.visible then
    let (tile, glided) := tile.step g.iconSize retracting
    if tile.position.isFinite then
      let (pool, tile, commands) := writeTile g settings pool tile
      { pool, tile, commands := visibility :: commands, glided }
    else { pool, tile, commands := [visibility], glided }
  else { pool, tile, commands := [visibility], glided := false }

/-- Places tiles one after the other. -/
def placeTiles (g : Geometry α) (settings : Settings α) (retracting : Bool) :
    Pool → List (Tile α) → Frame α
  | pool, [] => { pool, tiles := [], commands := [], glided := false }
  | pool, tile :: rest =>
    let first := placeTile g settings retracting pool tile
    let others := placeTiles g settings retracting first.pool rest
    { pool := others.pool
      tiles := first.tile :: others.tiles
      commands := first.commands ++ others.commands
      glided := first.glided || others.glided }

/-- Places all tiles of a frame.  The pool is grown to what the frame can need before it begins, and
    what is left at its end is hidden. -/
def build (g : Geometry α) (settings : Settings α) (retracting : Bool) (pool : Pool)
    (tiles : List (Tile α)) : Frame α :=
  let (dots, badges) := demand settings tiles
  let (pool, creations) := pool.grow dots badges
  let frame := placeTiles g settings retracting pool.freeAll tiles
  let (pool, hidings) := frame.pool.hideIdle
  { frame with pool, commands := creations ++ frame.commands ++ hidings }

end Frame

end FisheyeDock
