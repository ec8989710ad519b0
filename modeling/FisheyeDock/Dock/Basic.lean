import FisheyeDock.Cadence.Basic
import FisheyeDock.Lens
import FisheyeDock.Frame

/-! # The dock

    The engine as a whole.  While it is enabled it keeps a tile for every icon and draws the tiles in
    place of the icons, which are made transparent.

    A tick reconciles the row with the icons and sorts it, finds the tile under the pointer, puts
    the lens on it, and places all tiles.  What moved keeps the cadence running for another quiet
    period.

    Enabling and disabling bracket everything the engine puts into the scene.  A drag has the same
    effect on the scene as disabling, but the engine comes back on its own after the drag. -/

namespace FisheyeDock

structure Dock (α τ : Type) where
  enabled : Bool
  row : Row α
  pool : Marker.Pool
  cadence : Cadence τ
  /-- How long the preview still lasts. -/
  previewLeft : Option Nat
  /-- The number of tiles at the last tick. -/
  tileCount : Nat
  layersShown : Bool

namespace Dock

open Scene (Command)

variable {α τ : Type} [Scalar α] [TimerService τ]

/-- How long a preview keeps the middle tile magnified. -/
def previewPeriod : Nat := milliseconds 1200

/-- A dock that is not enabled. -/
def new (timers : τ) : Dock α τ where
  enabled := false
  row := Row.empty
  pool := Marker.Pool.empty
  cadence := Cadence.idle timers
  previewLeft := none
  tileCount := 0
  layersShown := false

/-! ## Enabling and disabling -/

/-- Enables the engine, unless the user has turned it off. -/
def enable (dock : Dock α τ) (settings : Settings α) : Dock α τ :=
  if dock.enabled || settings.magnification.off then dock
  else
    { dock with
      enabled := true
      cadence := dock.cadence.orderLayouts Cadence.longLayout }

/-- Shows or hides the layers, where that changes anything. -/
def showLayers (dock : Dock α τ) (visible : Bool) : Dock α τ × List (Command α) :=
  if dock.layersShown = visible then (dock, [])
  else ({ dock with layersShown := visible }, [.showLayers visible])

/-- Takes everything out of the scene. -/
def withdraw (dock : Dock α τ) : Dock α τ × List (Command α) :=
  let (row, released) := dock.row.clear
  let (pool, removed) := dock.pool.clear
  let (dock, layers) := showLayers { dock with row, pool, tileCount := 0 } false
  (dock, released ++ removed ++ layers)

def disable (dock : Dock α τ) : Dock α τ × List (Command α) :=
  if dock.enabled then
    withdraw { dock with
      enabled := false
      cadence := dock.cadence.reset
      previewLeft := none }
  else (dock, [])

/-! ## Events -/

/-- Starts the cadence, and lets it stop after a quiet period. -/
def wake (dock : Dock α τ) (settings : Settings α) : Except Fault (Dock α τ) :=
  if dock.enabled then do
    let cadence ← dock.cadence.start settings.magnification.fps
    pure { dock with cadence := cadence.rearm }
  else pure dock

/-- Keeps running until the tiles have settled. -/
def pointerLeave (dock : Dock α τ) : Dock α τ :=
  { dock with cadence := dock.cadence.rearm }

/-- Starts afresh, with a few ticks that run the layout. -/
def focusChanged (dock : Dock α τ) (settings : Settings α) : Except Fault (Dock α τ) :=
  if dock.enabled then do
    let dock ← wake { dock with cadence := dock.cadence.halt } settings
    pure { dock with cadence := dock.cadence.orderLayouts Cadence.shortLayout }
  else pure dock

/-- Hides the layers while a window fills the screen. -/
def fullscreenChanged (dock : Dock α τ) (g : Geometry α) : Dock α τ × List (Command α) :=
  if dock.enabled then showLayers dock (!g.inFullscreen) else (dock, [])

def dragBegin (dock : Dock α τ) : Dock α τ × List (Command α) :=
  if dock.enabled then
    let dock := { dock with cadence := dock.cadence.beginDrag }
    if dock.cadence.phase = .suspended then withdraw dock else (dock, [])
  else (dock, [])

def dragEnd (dock : Dock α τ) : Dock α τ × List (Command α) :=
  if dock.enabled then
    let before := dock.cadence.phase
    let dock := { dock with cadence := dock.cadence.endDrag }
    if before ≠ .suspended ∧ dock.cadence.phase = .suspended then withdraw dock else (dock, [])
  else (dock, [])

/-- Shows the effect on the middle tile for a moment, or ends that. -/
def preview (dock : Dock α τ) (on : Bool) (settings : Settings α) : Except Fault (Dock α τ) :=
  if on then wake { dock with previewLeft := some previewPeriod } settings
  else pure { dock with previewLeft := none }

/-- Lets the next ticks run the layout. -/
def relayout (dock : Dock α τ) (settings : Settings α) : Except Fault (Dock α τ) :=
  wake { dock with cadence := dock.cadence.orderLayouts Cadence.longLayout } settings

/-! ## Ticks -/

/-- The middle tile as the one that a preview magnifies, if it is visible. -/
def previewFocus (tiles : List (Tile α)) : Option (Focus α) :=
  let index := tiles.length / 2
  (tiles[index]?.filter (·.visible)).map fun _ =>
    { index, distance := 0.0, offset := Point.zero }

/-- The tile under the pointer, unless the settings keep it from being magnified. -/
def pointerFocus (host : Host α) (tiles : List (Tile α)) : Option (Focus α) :=
  let g := host.geometry
  let settings := host.settings
  if settings.magnification.isInert || (g.autohideHidden && !settings.peekHiddenIcons) then none
  else Lens.nearest? g tiles

/-- The tile that this tick magnifies, and how long the preview lasts after it. -/
def focus (dock : Dock α τ) (host : Host α) (tiles : List (Tile α)) :
    Option (Focus α) × Option Nat :=
  match dock.previewLeft with
  | some (left + 1) => (previewFocus tiles, some (left + 1 - dock.cadence.interval))
  | _ => (pointerFocus host tiles, none)

/-- Counts a tick of the layout down, and runs the layout. -/
def takeLayout (dock : Dock α τ) : Dock α τ × List (Command α) :=
  let (due, cadence) := dock.cadence.takeLayout
  ({ dock with cadence }, if due then [.relayout] else [])

/-- Brings the row in line with the icons and puts it in order.  A change in the number of tiles
    calls for a few layouts. -/
def updateRow (dock : Dock α τ) (host : Host α) : Dock α τ × List (Command α) :=
  let g := host.geometry
  let (row, changes, _) := dock.row.reconcile host.icons host.settings.favoritesOnly g.iconSize
  let cadence :=
    if row.size = dock.tileCount then dock.cadence
    else dock.cadence.orderLayouts Cadence.shortLayout
  ({ dock with row := row.arrangeFor g, tileCount := row.size, cadence }, changes)

/-- The tiles after the lens, and whether it was put on one. -/
def magnify (host : Host α) (focus : Option (Focus α)) (tiles : List (Tile α)) :
    Except Fault (List (Tile α) × Bool) :=
  match focus with
  | some focus =>
    Lens.magnify host.geometry (.ofMagnification host.settings.magnification) focus tiles
  | none => pure (tiles, false)

/-- Moves the tiles of an up-to-date row, and tells whether anything is animated. -/
def animate (dock : Dock α τ) (host : Host α) :
    Except Fault (Dock α τ × List (Command α) × Bool) := do
  let g := host.geometry
  let activations := dock.row.tiles.map fun tile => .activateTile tile.id (!g.autohideHidden)
  let resting := dock.row.reset.tiles
  let (focus, previewLeft) := dock.focus host resting
  let (tiles, magnified) ← magnify host focus resting
  let frame := Frame.build g host.settings focus.isNone dock.pool tiles
  let dock := { dock with row := { dock.row with tiles := frame.tiles }, pool := frame.pool
                          previewLeft }
  let (dock, layers) := if g.inFullscreen then (dock, []) else dock.showLayers true
  let animated := magnified || frame.glided
  let cadence := if animated then dock.cadence.rearm else dock.cadence
  pure ({ dock with cadence }, activations ++ frame.commands ++ layers, animated)

/-- Runs one step of the animation, and tells whether anything is animated.  A drag that has begun
    since the last tick and settings that turn the engine off take effect here. -/
def tick (dock : Dock α τ) (host : Host α) :
    Except Fault (Dock α τ × List (Command α) × Bool) :=
  if !dock.enabled then pure (dock, [], false)
  else
    match dock.cadence.applyDrag with
    | (true, cadence) =>
      let (dock, commands) := withdraw { dock with cadence }
      pure (dock, commands, false)
    | (false, _) =>
      if host.settings.magnification.off then
        let (dock, commands) := disable dock
        pure (dock, commands, false)
      else do
        let (dock, relayout) := takeLayout dock
        let (dock, changes) := updateRow dock host
        let (dock, commands, animated) ← animate dock host
        pure (dock, relayout ++ changes ++ commands, animated)

/-- The pause after a drag has passed: starts again. -/
def resume (dock : Dock α τ) (settings : Settings α) : Except Fault (Dock α τ) :=
  match dock.cadence.resume with
  | (true, cadence) =>
    wake { dock with cadence := cadence.orderLayouts Cadence.longLayout } settings
  | (false, cadence) => pure { dock with cadence }

/-- Does what a timer is for. -/
def handleAlarm (dock : Dock α τ) (host : Host α) :
    Alarm → Except Fault (Dock α τ × List (Command α))
  | .tick => do
    let (dock, commands, _) ← dock.tick host
    pure (dock, commands)
  | .quiet => pure ({ dock with cadence := dock.cadence.quietPassed }, [])
  | .resume => do
    let dock ← dock.resume host.settings
    pure (dock, [])

end Dock

end FisheyeDock
