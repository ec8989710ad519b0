import FisheyeDock.Proofs.Lens.Ends
import FisheyeDock.Proofs.Row.Sorting
import FisheyeDock.Tile.Motion

/-! # The four edges

    A dock at the right edge is a dock at the bottom with the axes of the screen exchanged, and a dock
    at the top is one at the bottom upside down.  Both are a `View` of a dock: they keep distances,
    places along the dock, and heights over the edge.  What the lens does to a dock, it does to every
    view of it (`nearest?_through`, `magnify_through`).

    A corner is the top left one at every edge.  Upside down it is the bottom left corner that comes
    to lie there, so that corners are mirrored at another line than the pointer is (`View.across`). -/

namespace FisheyeDock

/-! ## Edges and points -/

namespace Edge

/-- The edge with the axes of the screen exchanged. -/
def turned : Edge → Edge
  | top => left
  | left => top
  | bottom => right
  | right => bottom

/-- The edge on the other side of the screen. -/
def opposite : Edge → Edge
  | top => bottom
  | bottom => top
  | left => right
  | right => left

end Edge

namespace Point

/-- A point with the axes of the screen exchanged. -/
def swap {α : Type} (p : Point α) : Point α := ⟨p.y, p.x⟩

/-- A point that much higher over an edge. -/
def raise {α : Type} [Scalar α] (edge : Edge) (p : Point α) (height : α) : Point α :=
  edge.perpendicularAxis.modify p (· + edge.awaySign * height)

theorem distance_swap (p q : Point ℝ) : p.swap.distance q.swap = p.distance q :=
  congrArg Real.sqrt (add_comm _ _)

end Point

/-! ## Views -/

/-- Another way to look at a dock, from which it is at another edge, and all else about it is the
    same. -/
structure View (g : Geometry ℝ) where
  edge : Edge
  /-- Where the pointer and the anchor are seen, and how the way between two points is. -/
  point : Point ℝ → Point ℝ
  /-- Where the corner of an icon is seen, at rest and where it is heading. -/
  corner : Point ℝ → Point ℝ
  /-- Where the corner of an icon is seen as it is drawn. -/
  drawn : Point ℝ → Point ℝ
  point_zero : point .zero = .zero
  point_sub : ∀ p q, point p - point q = point (p - q)
  length_point : ∀ p, (point p).length = p.length
  /-- Icons are seen around the centers that they have. -/
  center_corner : ∀ p, (corner p).centerOfSquare g.scaledIconSize =
    point (p.centerOfSquare g.scaledIconSize)
  /-- Along the dock nothing changes. -/
  inline_point : ∀ p, edge.inlineAxis.of (point p) = g.edge.inlineAxis.of p
  inline_corner : ∀ p, edge.inlineAxis.of (corner p) = g.edge.inlineAxis.of p
  set_corner : ∀ p place, edge.inlineAxis.set (corner p) place =
    corner (g.edge.inlineAxis.set p place)
  /-- What rises over the edge is seen to rise over the edge. -/
  raise_corner : ∀ p height, (corner p).raise edge height = corner (p.raise g.edge height)

namespace View

/-- The dock with the axes of the screen exchanged. -/
def turned (g : Geometry ℝ) : View g where
  edge := g.edge.turned
  point := Point.swap
  corner := Point.swap
  drawn := Point.swap
  point_zero := rfl
  point_sub _ _ := rfl
  length_point _ := congrArg Real.sqrt (add_comm _ _)
  center_corner _ := rfl
  inline_point _ := by cases g.edge <;> rfl
  inline_corner _ := by cases g.edge <;> rfl
  set_corner _ _ := by cases g.edge <;> rfl
  raise_corner _ _ := by cases g.edge <;> rfl

/-- The dock on the other side of the screen, with the edge in the middle.  The tiles stay drawn where
    they are. -/
noncomputable def across (g : Geometry ℝ) : View g where
  edge := g.edge.opposite
  point p := g.edge.perpendicularAxis.modify p (-·)
  corner p := g.edge.perpendicularAxis.modify p (-· - g.scaledIconSize)
  drawn := id
  point_zero := by
    have hzero : -(0.0 : ℝ) = 0.0 := by
      rw [ofScientific_real]
      norm_num
    cases g.edge
    case top | bottom => exact congrArg (Point.mk 0.0) hzero
    case left | right => exact congrArg (Point.mk · 0.0) hzero
  point_sub p q := by
    cases g.edge
    case top | bottom => exact congrArg (Point.mk (p.x - q.x)) (neg_sub' p.y q.y).symm
    case left | right => exact congrArg (Point.mk · (p.y - q.y)) (neg_sub' p.x q.x).symm
  length_point p := by
    cases g.edge
    case top | bottom => exact congrArg (fun y => Real.sqrt (p.x * p.x + y)) (neg_mul_neg p.y p.y)
    case left | right => exact congrArg (fun x => Real.sqrt (x + p.y * p.y)) (neg_mul_neg p.x p.x)
  center_corner p := by
    -- the corner is mirrored at its own line, so that the center is mirrored at the edge
    have hcenter : ∀ place : ℝ, -place - g.scaledIconSize + g.scaledIconSize / 2.0 =
        -(place + g.scaledIconSize / 2.0) := by
      intro place
      rw [ofScientific_real]
      norm_num
      ring
    cases g.edge
    case top | bottom => exact congrArg (Point.mk _) (hcenter p.y)
    case left | right => exact congrArg (Point.mk · _) (hcenter p.x)
  inline_point _ := by cases g.edge <;> rfl
  inline_corner _ := by cases g.edge <;> rfl
  set_corner _ _ := by cases g.edge <;> rfl
  raise_corner p height := by
    -- away from one edge is toward the other
    have hraise : ∀ place sign : ℝ, -place - g.scaledIconSize + -sign * height =
        -(place + sign * height) - g.scaledIconSize := by
      intro place sign
      ring
    have hlower : ∀ place sign : ℝ, -place - g.scaledIconSize + sign * height =
        -(place + -sign * height) - g.scaledIconSize := by
      intro place sign
      ring
    cases g.edge
    case top => exact congrArg (Point.mk _) (hraise p.y 1.0)
    case bottom => exact congrArg (Point.mk _) (hlower p.y 1.0)
    case left => exact congrArg (Point.mk · _) (hraise p.x 1.0)
    case right => exact congrArg (Point.mk · _) (hlower p.x 1.0)

end View

section Through

variable {g : Geometry ℝ} (view : View g)

/-- A dock as seen. -/
def Geometry.through : Geometry ℝ :=
  { g with
    edge := view.edge
    pointer := view.point g.pointer
    anchor := view.point g.anchor }

def Tile.through (tile : Tile ℝ) : Tile ℝ :=
  { tile with
    position := view.drawn tile.position
    target := view.corner tile.target
    fixed := view.corner tile.fixed
    pointerOffset := view.point tile.pointerOffset }

/-- A tile that the host has moved to where it is seen at rest.  The rest of it is not as seen. -/
def Tile.moved (tile : Tile ℝ) : Tile ℝ := { tile with fixed := view.corner tile.fixed }

def Row.through (row : Row ℝ) : Row ℝ := { row with tiles := row.tiles.map (Tile.through view) }

def Row.moved (row : Row ℝ) : Row ℝ := { row with tiles := row.tiles.map (Tile.moved view) }

def Focus.through (focus : Focus ℝ) : Focus ℝ := { focus with offset := view.point focus.offset }

end Through

/-! ## Tiles at rest -/

namespace Tile

variable {g : Geometry ℝ} (view : View g)

/-- A tile seen through a view is reset as it is. -/
theorem reset_through (tile : Tile ℝ) : (tile.through view).reset = tile.reset.through view := by
  have hoffset : (Point.zero : Point ℝ) = view.point .zero := view.point_zero.symm
  exact congrArg (fun offset => { (tile.through view).reset with pointerOffset := offset }) hoffset

/-- To send a tile to rest, it is enough to know where it rests. -/
theorem reset_moved (hdrawn : ∀ p, view.drawn p = p) (tile : Tile ℝ) :
    (tile.moved view).reset = tile.reset.through view := by
  rw [← reset_through]
  show { (tile.moved view).reset with position := tile.position } =
    { (tile.moved view).reset with position := view.drawn tile.position }
  rw [hdrawn]

end Tile

/-! ## The lens -/

namespace Lens

variable {g : Geometry ℝ} {s : Strengths ℝ} (view : View g)

section Nearest

variable {tile tile' : Tile ℝ}

/-- The center of a tile is where the view shows it. -/
theorem restingCenter_through (h : tile'.fixed = view.corner tile.fixed) :
    restingCenter (g.through view) tile' = view.point (restingCenter g tile) := by
  unfold restingCenter
  rw [h]
  exact view.center_corner tile.fixed

/-- No view changes how far the pointer is. -/
theorem pointerDistance_through (h : tile'.fixed = view.corner tile.fixed) :
    pointerDistance (g.through view) tile' = pointerDistance g tile := by
  unfold pointerDistance Point.distance
  rw [restingCenter_through view h]
  show (view.point g.pointer - view.point (restingCenter g tile)).length = _
  rw [view.point_sub, view.length_point]

/-- What is found on a tile is found on it through a view. -/
theorem focusOn_through (index : Nat) (h : tile'.fixed = view.corner tile.fixed) :
    focusOn (g.through view) index tile' = (focusOn g index tile).through view := by
  have hoffset : restingCenter (g.through view) tile' - (g.through view).pointer =
      view.point (restingCenter g tile - g.pointer) := by
    rw [restingCenter_through view h]
    exact view.point_sub _ _
  unfold focusOn Focus.through
  rw [pointerDistance_through view h, hoffset]

theorem improves_through (hvisible : tile'.visible = tile.visible)
    (h : tile'.fixed = view.corner tile.fixed) (best : Option (Focus ℝ)) :
    improves (g.through view) tile' (best.map (Focus.through view)) = improves g tile best := by
  unfold improves
  rw [hvisible, pointerDistance_through view h]
  cases best <;> rfl

/-- A search depends on where tiles rest and on what is shown of them, and on nothing else. -/
theorem nearestFrom_through (f : Tile ℝ → Tile ℝ)
    (hvisible : ∀ tile, (f tile).visible = tile.visible)
    (hfixed : ∀ tile, (f tile).fixed = view.corner tile.fixed) (best : Option (Focus ℝ))
    (index : Nat) (tiles : List (Tile ℝ)) :
    nearestFrom (g.through view) (best.map (Focus.through view)) index (tiles.map f) =
      (nearestFrom g best index tiles).map (Focus.through view) := by
  induction tiles generalizing best index with
  | nil => rfl
  | cons tile rest ih =>
      rw [List.map_cons, nearestFrom, nearestFrom,
        improves_through view (hvisible tile) (hfixed tile), focusOn_through view _ (hfixed tile)]
      by_cases himproves : improves g tile best = true
      · rw [if_pos himproves, if_pos himproves]
        exact ih (some (focusOn g index tile)) (index + 1)
      · rw [if_neg himproves, if_neg himproves]
        exact ih best (index + 1)

/-- The lens is on the same tile in every view. -/
theorem nearest?_through (tiles : List (Tile ℝ)) :
    nearest? (g.through view) (tiles.map (Tile.through view)) =
      (nearest? g tiles).map (Focus.through view) :=
  nearestFrom_through view (Tile.through view) (fun _ => rfl) (fun _ => rfl) none 0 tiles

/-- To search, it is enough to know where the tiles rest. -/
theorem nearest?_moved (tiles : List (Tile ℝ)) :
    nearest? (g.through view) (tiles.map (Tile.moved view)) =
      (nearest? g tiles).map (Focus.through view) :=
  nearestFrom_through view (Tile.moved view) (fun _ => rfl) (fun _ => rfl) none 0 tiles

end Nearest

section Magnify

/-- How far a tile rises, whatever the edge is. -/
noncomputable def riseHeight (g : Geometry ℝ) (s : Strengths ℝ) : ℝ :=
  g.iconSize * 0.25 * s.rise * g.scaleFactor

/-- To rise is to be raised, away from the edge. -/
theorem raise_riseHeight (g : Geometry ℝ) (p : Point ℝ) :
    g.edge.perpendicularAxis.modify p (· + riseOffset g s) = p.raise g.edge (riseHeight g s) := by
  have hrise : ∀ place : ℝ, place + riseOffset g s =
      place + g.edge.awaySign * riseHeight g s := by
    intro place
    unfold riseOffset riseHeight
    ring
  exact congrArg (g.edge.perpendicularAxis.modify p) (funext hrise)

/-- And to sink is to be raised by less than nothing. -/
theorem raise_sink (edge : Edge) (p : Point ℝ) (offset : ℝ) :
    edge.perpendicularAxis.modify p (· - edge.awaySign * Scalar.abs offset / 2.0) =
      p.raise edge (-Scalar.abs offset / 2.0) := by
  have hsink : ∀ place : ℝ, place - edge.awaySign * Scalar.abs offset / 2.0 =
      place + edge.awaySign * (-Scalar.abs offset / 2.0) := by
    intro place
    ring
  exact congrArg (edge.perpendicularAxis.modify p) (funext hsink)

/-- The tile in the center is raised through a view as it is without. -/
theorem centerTarget_through (focus : Focus ℝ) (tile : Tile ℝ) :
    centerTarget (g.through view) s (focus.through view) (tile.through view) =
      view.corner (centerTarget g s focus tile) := by
  have hraised : (view.corner tile.target).raise view.edge (riseHeight (g.through view) s) =
      view.corner (tile.target.raise g.edge (riseHeight g s)) := view.raise_corner _ _
  have hoffset : view.edge.inlineAxis.of (focus.through view).offset =
      g.edge.inlineAxis.of focus.offset := view.inline_point _
  have hfixed : view.edge.inlineAxis.of (tile.through view).fixed =
      g.edge.inlineAxis.of tile.fixed := view.inline_corner _
  have hmodify : ∀ p (f : ℝ → ℝ), view.edge.inlineAxis.modify (view.corner p) f =
      view.corner (g.edge.inlineAxis.modify p f) := by
    intro p f
    unfold Axis.modify
    rw [view.inline_corner, view.set_corner]
  unfold centerTarget
  dsimp only
  rw [raise_riseHeight, raise_riseHeight, raise_sink, raise_sink]
  rw [show (g.through view).edge = view.edge from rfl,
    show (tile.through view).target = view.corner tile.target from rfl, hraised, hoffset, hfixed,
    hmodify, view.raise_corner, view.set_corner]
  -- whether there is a spread or not is the same in every view
  split <;> rfl

theorem magnifyCenter_through (focus : Focus ℝ) (tile : Tile ℝ) :
    magnifyCenter (g.through view) s (focus.through view) (tile.through view) =
      (magnifyCenter g s focus tile).through view := by
  unfold magnifyCenter
  rw [centerTarget_through]
  rfl

/-- A neighbor is pushed along the edge by the same. -/
theorem neighborInline_through (direction scale : ℝ) (wave : Wave ℝ) (tile : Tile ℝ) :
    neighborInline (g.through view) s direction wave scale (tile.through view) =
      neighborInline g s direction wave scale tile := by
  have htarget : view.edge.inlineAxis.of (tile.through view).target =
      g.edge.inlineAxis.of tile.target := view.inline_corner _
  have hfixed : view.edge.inlineAxis.of (tile.through view).fixed =
      g.edge.inlineAxis.of tile.fixed := view.inline_corner _
  unfold neighborInline
  dsimp only
  rw [show (g.through view).edge = view.edge from rfl, htarget, hfixed]
  rfl

/-- A wave runs alike in every view. -/
theorem spreadOut_through (direction : ℝ) (reach : Nat) (wave : Wave ℝ) (tiles : List (Tile ℝ)) :
    spreadOut (g.through view) s direction reach wave (tiles.map (Tile.through view)) =
      (spreadOut g s direction reach wave tiles).map (Tile.through view) := by
  induction tiles generalizing reach wave with
  | nil => cases reach <;> rfl
  | cons tile rest ih =>
      cases reach with
      | zero => rfl
      | succ reach =>
          -- the wave is handed on by the places along the dock, which are the same
          have htarget : (g.through view).edge.inlineAxis.set (tile.through view).target
              (neighborInline g s direction wave (wave.scale * s.decay) tile) =
              view.corner (g.edge.inlineAxis.set tile.target
                (neighborInline g s direction wave (wave.scale * s.decay) tile)) :=
            view.set_corner _ _
          rw [List.map_cons, spreadOut, spreadOut, List.map_cons, neighborInline_through, htarget,
            ih]
          rfl

theorem magnifyAt_through (focus : Focus ℝ) (before : List (Tile ℝ)) (tile : Tile ℝ)
    (after : List (Tile ℝ)) :
    magnifyAt (g.through view) s (focus.through view) (before.map (Tile.through view))
        (tile.through view) (after.map (Tile.through view)) =
      (magnifyAt g s focus before tile after).map (Tile.through view) := by
  have hstart : Wave.start (g.through view) ((magnifyCenter g s focus tile).through view) =
      Wave.start g (magnifyCenter g s focus tile) :=
    congrArg (Wave.mk _ _) (view.inline_corner _)
  unfold magnifyAt
  dsimp only
  rw [magnifyCenter_through, hstart, ← List.map_reverse, spreadOut_through, spreadOut_through,
    List.map_append, List.map_cons, List.map_reverse]

/-- Every view has the lens do the same to its tiles. -/
theorem magnify_through (focus : Focus ℝ) (tiles : List (Tile ℝ)) :
    magnify (g.through view) s (focus.through view) (tiles.map (Tile.through view)) =
      (magnify g s focus tiles).map fun result => (result.1.map (Tile.through view), result.2) := by
  have hnear : isNear (g.through view) (focus.through view) = isNear g focus := rfl
  exact magnify_map (Tile.through view) hnear rfl (magnifyAt_through view focus) tiles

end Magnify

end Lens

/-! ## The order of the row and the steps of the tiles -/

section Turned

variable {g : Geometry ℝ}

/-- With the axes exchanged, the tiles are as far from the anchor. -/
theorem Row.reach_turned (anchor : Point ℝ) (tile : Tile ℝ) :
    reach anchor.swap (tile.through (.turned g)) = reach anchor tile := by
  unfold reach
  dsimp only
  rw [show (tile.through (.turned g)).fixed = tile.fixed.swap from rfl, Point.distance_swap]
  rfl

/-- A row turned by a quarter is arranged as it was. -/
theorem Row.arrange_turned (anchor : Point ℝ) (row : Row ℝ) :
    (row.through (.turned g)).arrange anchor.swap = (row.arrange anchor).through (.turned g) := by
  have hsorted : sortTiles anchor.swap (row.tiles.map (Tile.through (.turned g))) =
      (sortTiles anchor row.tiles).map (Tile.through (.turned g)) :=
    sortTiles_map _ (reach_turned anchor) row.tiles
  exact congrArg (fun tiles => { row with tiles }) hsorted

/-- A tile steps along either axis as along the other. -/
theorem Tile.step_turned (tile : Tile ℝ) (iconSize : ℝ) (retracting : Bool) :
    (tile.through (.turned g)).step iconSize retracting =
      ((tile.step iconSize retracting).1.through (.turned g),
        (tile.step iconSize retracting).2) := by
  have hway : (tile.through (.turned g)).position.distance (tile.through (.turned g)).target =
      tile.position.distance tile.target := Point.distance_swap _ _
  unfold step smoothPosition
  rw [hway]
  cases Motion.over (tile.position.distance tile.target) iconSize <;> rfl

end Turned

/-! ## One law for all edges -/

section Law

variable {g : Geometry ℝ} (view : View g) (s : Strengths ℝ) (row : Row ℝ)

/-- The lens does the same to a dock and to what a view shows of it. -/
structure LensThrough : Prop where
  reset_eq : (row.through view).reset = row.reset.through view
  nearest_eq : Lens.nearest? (g.through view) (row.through view).tiles =
    (Lens.nearest? g row.tiles).map (Focus.through view)
  magnify_eq : ∀ focus,
    Lens.magnify (g.through view) s (focus.through view) (row.through view).tiles =
      (Lens.magnify g s focus row.tiles).map fun result =>
        (result.1.map (Tile.through view), result.2)

/-- It is enough that the host moves the tiles: sent to rest they are as seen, and the lens does the
    same to them from there. -/
structure LensMoved : Prop where
  reset_eq : (row.moved view).reset = row.reset.through view
  nearest_eq : Lens.nearest? (g.through view) (row.moved view).tiles =
    (Lens.nearest? g row.tiles).map (Focus.through view)
  magnify_eq : ∀ focus,
    Lens.magnify (g.through view) s (focus.through view) (row.moved view).reset.tiles =
      (Lens.magnify g s focus row.reset.tiles).map fun result =>
        (result.1.map (Tile.through view), result.2)

/-- The lens sees rows through views. -/
theorem lensThrough : LensThrough view s row where
  reset_eq := by
    have hreset : (row.tiles.map (Tile.through view)).map Tile.reset =
        (row.tiles.map Tile.reset).map (Tile.through view) := by
      rw [List.map_map, List.map_map]
      exact List.map_congr_left fun tile _ => tile.reset_through view
    exact congrArg (fun tiles => { row with tiles }) hreset
  nearest_eq := Lens.nearest?_through view row.tiles
  magnify_eq focus := Lens.magnify_through view focus row.tiles

theorem lensMoved (hdrawn : ∀ p, view.drawn p = p) : LensMoved view s row := by
  have hreset : (row.tiles.map (Tile.moved view)).map Tile.reset =
      (row.tiles.map Tile.reset).map (Tile.through view) := by
    rw [List.map_map, List.map_map]
    exact List.map_congr_left fun tile _ => tile.reset_moved view hdrawn
  refine ⟨congrArg (fun tiles => { row with tiles }) hreset, ?_, ?_⟩
  · exact Lens.nearest?_moved view row.tiles
  · intro focus
    show Lens.magnify _ s _ ((row.tiles.map (Tile.moved view)).map Tile.reset) = _
    rw [hreset]
    exact Lens.magnify_through view focus (row.tiles.map Tile.reset)

end Law

/-- **ALL FOUR EDGES FOLLOW ONE LAW.**  With the axes of the screen exchanged, a dock at the bottom is
    one at the right and a dock at the top one at the left: the row is put in order, sent to rest,
    searched, magnified and moved on alike.  On the other side of the screen it is sent to rest,
    searched and magnified alike, and for this only its places at rest have to be moved there. -/
theorem edges_alike (g : Geometry ℝ) (s : Strengths ℝ) (row : Row ℝ) :
    (LensThrough (.turned g) s row ∧
      (∀ anchor : Point ℝ, (row.through (.turned g)).arrange anchor.swap =
        (row.arrange anchor).through (.turned g)) ∧
      ∀ (tile : Tile ℝ) (iconSize : ℝ) (retracting : Bool),
        (tile.through (.turned g)).step iconSize retracting =
          ((tile.step iconSize retracting).1.through (.turned g),
            (tile.step iconSize retracting).2)) ∧
    LensThrough (.across g) s row ∧ LensMoved (.across g) s row :=
  ⟨⟨lensThrough _ s row, fun anchor => Row.arrange_turned anchor row, Tile.step_turned⟩,
    lensThrough _ s row, lensMoved _ s row fun _ => rfl⟩

end FisheyeDock
