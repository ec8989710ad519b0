import FisheyeDock.Scene

/-! # A host in memory

    A screen with one dock on it, and a pointer that can be swept along the dock.  It holds the
    tiles and markers it was told to create, and draws nothing. -/

namespace FisheyeDock.Demo

variable {α : Type} [Scalar α]

/-- The size of the screen. -/
def screen : Point α := ⟨1920.0, 1080.0⟩

def iconSize : α := 48.0

/-- The gap between two icons. -/
def iconSpacing : α := 8.0

/-- The gap between the icons and the screen edge. -/
def edgeMargin : α := 8.0

structure Shell (α : Type) where
  edge : Edge
  /-- The number of icons. -/
  count : Nat
  icons : List (Icon α)
  pointer : Point α
  tiles : List (Tile.Id × Icon.Key)
  markers : List (Marker.Id × Marker.Kind)

/-- The length of a dock of so many icons. -/
def dockLength (count : Nat) : α :=
  let count : α := Scalar.ofNat (max count 1)
  count * iconSize + (count - 1.0) * iconSpacing

/-- The top left corner of the first icon. -/
def startCorner (edge : Edge) (count : Nat) : Point α :=
  let length : α := dockLength count
  let far (extent : α) : α := extent - iconSize - edgeMargin
  match edge with
  | .top => ⟨(screen.x - length) / 2.0, edgeMargin⟩
  | .bottom => ⟨(screen.x - length) / 2.0, far screen.y⟩
  | .left => ⟨edgeMargin, (screen.y - length) / 2.0⟩
  | .right => ⟨far screen.x, (screen.y - length) / 2.0⟩

/-- The icon with the given number.  The icons differ in their windows and notifications. -/
def icon (edge : Edge) (count i : Nat) : Icon α :=
  let step : Point α := edge.inlineAxis.vector (iconSize + iconSpacing)
  { Icon.favorite (UInt64.ofNat i) (startCorner edge count + step.scale (Scalar.ofNat i)) with
    windows := UInt32.ofNat (i % 3)
    notifications := if i % 4 = 1 then 1 else 0 }

namespace Shell

/-- A screen with a dock of so many icons. -/
def new (edge : Edge) (count : Nat) : Shell α where
  edge
  count
  icons := (List.range count).map (icon edge count)
  pointer := Point.undefined
  tiles := []
  markers := []

/-- Puts the pointer at a part of the way along the dock, which begins and ends one icon beyond the
    dock. -/
def sweep (shell : Shell α) (progress : α) : Shell α :=
  let inlineAxis := shell.edge.inlineAxis
  let center := startCorner shell.edge shell.count + Point.splat (iconSize / 2.0)
  let span := dockLength shell.count + iconSize
  { shell with pointer := center + inlineAxis.vector (progress * span - iconSize) }

/-- Takes the pointer off the screen. -/
def leave (shell : Shell α) : Shell α := { shell with pointer := Point.undefined }

def geometry (shell : Shell α) : Geometry α where
  edge := shell.edge
  nominalSize := iconSize
  scaleFactor := 1.0
  pointer := shell.pointer
  anchor := startCorner shell.edge shell.count
  inFullscreen := false
  autohideHidden := false

/-- What the shell tells the engine. -/
def host (shell : Shell α) (settings : Settings α) : Host α :=
  ⟨settings, shell.geometry, shell.icons⟩

/-- Carries a command out. -/
def apply (shell : Shell α) : Scene.Command α → Shell α
  | .createTile id key _ => { shell with tiles := shell.tiles ++ [(id, key)] }
  | .releaseTile id => { shell with tiles := shell.tiles.filter (·.1 ≠ id) }
  | .createMarker id kind => { shell with markers := shell.markers ++ [(id, kind)] }
  | .releaseMarker id => { shell with markers := shell.markers.filter (·.1 ≠ id) }
  | _ => shell

/-- The number of markers of a kind. -/
def markerCount (shell : Shell α) (kind : Marker.Kind) : Nat :=
  (shell.markers.filter (·.2 == kind)).length

end Shell

end FisheyeDock.Demo
