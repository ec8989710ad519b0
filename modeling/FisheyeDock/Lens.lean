import FisheyeDock.Fault
import FisheyeDock.Row

/-! # The lens

    The tile nearest to the pointer grows and rises.  From there a wave runs outward on both sides:
    each tile is pulled toward its inner neighbor and pushed away from it, and takes the scale of the
    wave, with weights that decay from tile to tile. -/

namespace FisheyeDock

/-- How strong the effects are, each from zero to one. -/
structure Strengths (α : Type) where
  rise : α
  magnify : α
  spread : α

namespace Strengths

variable {α : Type} [Scalar α]

def ofMagnification (m : Magnification α) : Strengths α := ⟨m.rise, m.magnify, m.spread⟩

/-- The factor by which the scale of the wave shrinks from tile to tile. -/
def decay (s : Strengths α) : α := 0.8 - 0.2 * (1.0 - s.spread)

/-- Whether tiles leave their place along the dock. -/
def spreads (s : Strengths α) : Bool := !(Scalar.isZero s.spread)

end Strengths

/-- The tile that the lens is on. -/
structure Focus (α : Type) where
  index : Nat
  distance : α
  /-- The way from the pointer to the center of the icon. -/
  offset : Point α

namespace Lens

variable {α : Type} [Scalar α]

/-! ## The nearest tile -/

/-- The center of the icon of a tile, at rest. -/
def restingCenter (g : Geometry α) (tile : Tile α) : Point α :=
  Point.centerOfSquare tile.fixed g.scaledIconSize

/-- The distance of the pointer from the center of an icon, at rest. -/
def pointerDistance (g : Geometry α) (tile : Tile α) : α :=
  Point.distance g.pointer (restingCenter g tile)

/-- How near the pointer has to come to the center of an icon. -/
def hitRadius (g : Geometry α) : α := g.iconSize * 1.25 * g.scaleFactor

/-- The lens on a tile. -/
def focusOn (g : Geometry α) (index : Nat) (tile : Tile α) : Focus α where
  index
  distance := pointerDistance g tile
  offset := restingCenter g tile - g.pointer

/-- Whether a tile is within reach and nearer than the best one so far. -/
def improves (g : Geometry α) (tile : Tile α) (best : Option (Focus α)) : Bool :=
  tile.visible && decide (pointerDistance g tile < hitRadius g) &&
    match best with
    | none => true
    | some focus => decide (pointerDistance g tile < focus.distance)

/-- Goes on with a search at a tile with the given index. -/
def nearestFrom (g : Geometry α) (best : Option (Focus α)) :
    Nat → List (Tile α) → Option (Focus α)
  | _, [] => best
  | index, tile :: tiles =>
    nearestFrom g (if improves g tile best then some (focusOn g index tile) else best)
      (index + 1) tiles

/-- The visible tile within reach whose icon is nearest to the pointer, the first of those equally
    near. -/
def nearest? (g : Geometry α) (tiles : List (Tile α)) : Option (Focus α) :=
  nearestFrom g none 0 tiles

/-- The index of the nearest tile is the index of a tile. -/
theorem index_lt_of_nearestFrom {g : Geometry α} {best : Option (Focus α)} {index : Nat}
    {tiles : List (Tile α)} {focus : Focus α}
    (hbest : ∀ known, best = some known → known.index < index)
    (h : nearestFrom g best index tiles = some focus) : focus.index < index + tiles.length := by
  induction tiles generalizing best index with
  | nil => exact hbest focus h
  | cons tile rest ih =>
    simp only [nearestFrom] at h
    have hstep : ∀ known, (if improves g tile best then some (focusOn g index tile) else best)
        = some known → known.index < index + 1 := by
      intro known hknown
      split at hknown
      · obtain rfl := Option.some.inj hknown
        exact Nat.lt_succ_self index
      · exact Nat.lt_succ_of_lt (hbest known hknown)
    have hlt := ih hstep h
    simp only [List.length_cons]
    omega

/-- What is nearest is one of the tiles. -/
theorem index_lt_of_nearest? {g : Geometry α} {tiles : List (Tile α)} {focus : Focus α}
    (h : nearest? g tiles = some focus) : focus.index < tiles.length := by
  have hlt := index_lt_of_nearestFrom (by intro _ hknown; cases hknown) h
  omega

/-! ## The magnified tile -/

/-- How far a tile rises away from the edge. -/
def riseOffset (g : Geometry α) (s : Strengths α) : α :=
  g.edge.awaySign * g.iconSize * 0.25 * s.rise * g.scaleFactor

/-- The target of the magnified tile: raised, moved a little along the dock with the pointer, and
    lowered the farther the pointer is from its center.  Without spread it keeps its place. -/
def centerTarget (g : Geometry α) (s : Strengths α) (focus : Focus α) (tile : Tile α) : Point α :=
  let inlineAxis := g.edge.inlineAxis
  let perpendicular := g.edge.perpendicularAxis
  let raised := perpendicular.modify tile.target (· + riseOffset g s)
  if s.spreads then
    let offset := inlineAxis.of focus.offset / 4.0
    let moved := inlineAxis.modify raised (· + offset)
    perpendicular.modify moved (· - g.edge.awaySign * Scalar.abs offset / 2.0)
  else inlineAxis.set raised (inlineAxis.of tile.fixed)

/-- The magnified tile. -/
def magnifyCenter (g : Geometry α) (s : Strengths α) (focus : Focus α) (tile : Tile α) : Tile α :=
  { tile with
    distance := some focus.distance
    pointerOffset := focus.offset
    targetScale := 1.0 + 0.9 * s.magnify
    target := centerTarget g s focus tile }

/-! ## The wave -/

/-- The state of a wave between two tiles. -/
structure Wave (α : Type) where
  scale : α
  /-- The weight of the inner neighbor. -/
  pull : α
  /-- The target of the inner neighbor along the dock. -/
  inner : α

/-- The wave as it leaves the magnified tile. -/
def Wave.start (g : Geometry α) (center : Tile α) : Wave α :=
  ⟨center.targetScale, 1.8, g.edge.inlineAxis.of center.target⟩

/-- Where a wave of a scale moves a tile along the dock. -/
def neighborInline (g : Geometry α) (s : Strengths α) (direction : α) (wave : Wave α) (scale : α)
    (tile : Tile α) : α :=
  let inlineAxis := g.edge.inlineAxis
  if s.spreads then
    (inlineAxis.of tile.target + wave.inner * wave.pull) / (wave.pull + 1.0)
      + direction * (g.iconSize * (scale + 0.2) * g.scaleFactor)
  else inlineAxis.of tile.fixed

/-- Runs a wave outward over at most `reach` tiles. -/
def spreadOut (g : Geometry α) (s : Strengths α) (direction : α) :
    (reach : Nat) → Wave α → List (Tile α) → List (Tile α)
  | 0, _, tiles => tiles
  | _ + 1, _, [] => []
  | reach + 1, wave, tile :: tiles =>
    let scale := wave.scale * s.decay
    let place := neighborInline g s direction wave scale tile
    { tile with
      target := g.edge.inlineAxis.set tile.target place
      targetScale := if 1.0 < scale then scale else tile.targetScale }
    :: spreadOut g s direction reach ⟨scale, wave.pull * 0.9, place⟩ tiles

/-- How many tiles a wave reaches on one side. -/
def waveReach : Nat := 80

/-- Puts the lens on a tile that stands between others.  The wave runs over the tiles before it from
    the last to the first. -/
def magnifyAt (g : Geometry α) (s : Strengths α) (focus : Focus α) (before : List (Tile α))
    (tile : Tile α) (after : List (Tile α)) : List (Tile α) :=
  let center := magnifyCenter g s focus tile
  let wave := Wave.start g center
  (spreadOut g s (-1.0) waveReach wave before.reverse).reverse
    ++ center :: spreadOut g s 1.0 waveReach wave after

/-- Whether the pointer is near enough for the lens. -/
def isNear (g : Geometry α) (focus : Focus α) : Bool := !decide (g.iconSize * 2.0 ≤ focus.distance)

/-- Puts the lens on the tile with the index of the focus, unless the pointer is too far away.  Tells
    whether it did. -/
def magnify (g : Geometry α) (s : Strengths α) (focus : Focus α) (tiles : List (Tile α)) :
    Except Fault (List (Tile α) × Bool) :=
  if isNear g focus then
    match tiles.drop focus.index with
    | tile :: after => .ok (magnifyAt g s focus (tiles.take focus.index) tile after, true)
    | [] => .error (.indexOutOfBounds tiles.length focus.index)
  else .ok (tiles, false)

@[simp] theorem length_spreadOut (g : Geometry α) (s : Strengths α) (direction : α) (reach : Nat)
    (wave : Wave α) (tiles : List (Tile α)) :
    (spreadOut g s direction reach wave tiles).length = tiles.length := by
  induction tiles generalizing reach wave with
  | nil => cases reach <;> rfl
  | cons tile rest ih =>
    cases reach with
    | zero => rfl
    | succ reach => simp [spreadOut, ih]

/-- The lens on a tile that stands between others. -/
theorem magnify_append {g : Geometry α} {s : Strengths α} (focus : Focus α)
    {before after : List (Tile α)} {tile : Tile α} (hindex : focus.index = before.length) :
    magnify g s focus (before ++ tile :: after) =
      if isNear g focus then .ok (magnifyAt g s focus before tile after, true)
      else .ok (before ++ tile :: after, false) := by
  unfold magnify
  rw [hindex, List.drop_left, List.take_left]

/-- The lens can be put on every tile there is. -/
theorem magnify_eq_ok (g : Geometry α) (s : Strengths α) {focus : Focus α} {tiles : List (Tile α)}
    (h : focus.index < tiles.length) : ∃ result, magnify g s focus tiles = .ok result := by
  have hdrop := List.drop_eq_getElem_cons h
  simp only [magnify, hdrop]
  split
  · exact ⟨_, rfl⟩
  · exact ⟨_, rfl⟩

end Lens

end FisheyeDock
