import FisheyeDock.Proofs.Frame.Step
import FisheyeDock.Proofs.Lens.Crossing
import FisheyeDock.Proofs.Row.Sorting

/-! # Displays of other densities

    On a display that is `k` times as dense, the same dock has all its coordinates `k` times as large
    and a scale factor of `k` (`Geometry.zoom`, `Row.zoom`).  The order of the row, the nearest tile,
    the waves and the steps of the scales do not notice.

    Three lengths are measured in icon sizes before the scale factor, though: how far the pointer may
    be for the lens, and between which two distances a tile glides.  `round_zoom` says what follows:
    the dock looks the same if and only if none of the three is passed on one of the displays
    alone. -/

namespace FisheyeDock

/-! ## Zooming -/

section Zoom

variable {α : Type} [Scalar α] (k : α)

/-- A tile with all its lengths multiplied. -/
def Tile.zoom (tile : Tile α) : Tile α :=
  { tile with
    position := tile.position.scale k
    target := tile.target.scale k
    fixed := tile.fixed.scale k
    distance := tile.distance.map (· * k)
    pointerOffset := tile.pointerOffset.scale k }

/-- The same dock on a display that is `k` times as dense. -/
def Geometry.zoom (g : Geometry α) : Geometry α :=
  { g with
    scaleFactor := g.scaleFactor * k
    pointer := g.pointer.scale k
    anchor := g.anchor.scale k }

def Row.zoom (row : Row α) : Row α := { row with tiles := row.tiles.map (Tile.zoom k) }

def Row.Reach.zoom : Row.Reach α → Row.Reach α
  | .at distance => .at (distance * k)
  | reach => reach

def Focus.zoom (focus : Focus α) : Focus α where
  index := focus.index
  distance := focus.distance * k
  offset := focus.offset.scale k

def Lens.Wave.zoom (wave : Lens.Wave α) : Lens.Wave α := { wave with inner := wave.inner * k }

end Zoom

/-! ## Points -/

section Points

variable {k : ℝ} (axis : Axis) (p q : Point ℝ)

theorem Axis.of_scale : axis.of (p.scale k) = axis.of p * k := by
  cases axis <;> rfl

theorem Axis.set_scale (value : ℝ) :
    axis.set (p.scale k) (value * k) = (axis.set p value).scale k := by
  cases axis <;> rfl

/-- What changes a coordinate in proportion changes the point in proportion. -/
theorem Axis.modify_scale {f f' : ℝ → ℝ} (h : ∀ value, f' (value * k) = f value * k) :
    axis.modify (p.scale k) f' = (axis.modify p f).scale k := by
  unfold Axis.modify
  rw [axis.of_scale, h, axis.set_scale]

namespace Point

theorem scale_sub : p.scale k - q.scale k = (p - q).scale k := by
  show Point.mk (p.x * k - q.x * k) (p.y * k - q.y * k) =
    Point.mk ((p.x - q.x) * k) ((p.y - q.y) * k)
  rw [sub_mul, sub_mul]

theorem scale_zero : (zero : Point ℝ).scale k = zero := by
  have hzero : (0.0 : ℝ) = 0 := by
    rw [ofScientific_real]
    norm_num
  show Point.mk ((0.0 : ℝ) * k) ((0.0 : ℝ) * k) = Point.mk (0.0 : ℝ) (0.0 : ℝ)
  rw [hzero, zero_mul]

/-- A point is zoomed to one other point only. -/
theorem scale_injective (hk : 0 < k) (h : p.scale k = q.scale k) : p = q := by
  obtain ⟨hx, hy⟩ := Point.mk.inj h
  exact congrArg₂ Point.mk (mul_right_cancel₀ hk.ne' hx) (mul_right_cancel₀ hk.ne' hy)

/-- Distances are zoomed as points are. -/
theorem distance_scale (hk : 0 < k) : (p.scale k).distance (q.scale k) = p.distance q * k := by
  have hsquares : (p.x * k - q.x * k) * (p.x * k - q.x * k)
      + (p.y * k - q.y * k) * (p.y * k - q.y * k) =
      ((p.x - q.x) * (p.x - q.x) + (p.y - q.y) * (p.y - q.y)) * (k * k) := by
    ring
  rw [distance_real, distance_real]
  show Real.sqrt ((p.x * k - q.x * k) * (p.x * k - q.x * k)
      + (p.y * k - q.y * k) * (p.y * k - q.y * k)) = _
  rw [hsquares, Real.sqrt_mul' _ (mul_self_nonneg k), Real.sqrt_mul_self hk.le]

theorem centerOfSquare_scale (size : ℝ) :
    centerOfSquare (p.scale k) (size * k) = (centerOfSquare p size).scale k := by
  show Point.mk (p.x * k + size * k / 2.0) (p.y * k + size * k / 2.0) =
    Point.mk ((p.x + size / 2.0) * k) ((p.y + size / 2.0) * k)
  rw [add_mul, add_mul, div_mul_eq_mul_div]

theorem blend_scale (coef : ℝ) :
    Point.blend (p.scale k) (q.scale k) coef = (Point.blend p q coef).scale k := by
  have hblend : ∀ start goal : ℝ,
      FisheyeDock.blend (start * k) (goal * k) coef = FisheyeDock.blend start goal coef * k := by
    intro start goal
    unfold FisheyeDock.blend
    ring
  exact congrArg₂ Point.mk (hblend _ _) (hblend _ _)

end Point

end Points

/-! ## The order of the row -/

namespace Row

variable {k : ℝ} (hk : 0 < k)
include hk

/-- The reach of a zoomed tile is zoomed. -/
theorem reach_zoom (anchor : Point ℝ) (tile : Tile ℝ) :
    reach (anchor.scale k) (tile.zoom k) = (reach anchor tile).zoom k := by
  have hdistance : (anchor.scale k).distance (tile.zoom k).fixed =
      anchor.distance tile.fixed * k := Point.distance_scale _ _ hk
  unfold reach
  rw [hdistance]
  show (if !tile.visible then Reach.beyond else Reach.at _) =
    (if !tile.visible then Reach.beyond else Reach.at _).zoom k
  cases tile.visible <;> rfl

theorem Reach.le_zoom (a b : Reach ℝ) : (a.zoom k).le (b.zoom k) = a.le b := by
  cases a with
  | «at» d =>
      cases b with
      | «at» e => exact decide_eq_decide.mpr (mul_le_mul_iff_left₀ hk)
      | beyond | unmeasured => rfl
  | beyond | unmeasured => cases b <;> rfl

/-- A denser display has the tiles in the same order. -/
theorem sortTiles_zoom (anchor : Point ℝ) (tiles : List (Tile ℝ)) :
    sortTiles (anchor.scale k) (tiles.map (Tile.zoom k)) =
      (sortTiles anchor tiles).map (Tile.zoom k) :=
  sortTiles_map_of_le (Reach.le_zoom hk) (Tile.zoom k) (reach_zoom hk anchor) tiles

/-- A zoomed row is arranged and reset as the row is. -/
theorem resting_zoom (anchor : Point ℝ) (row : Row ℝ) :
    ((row.zoom k).arrange (anchor.scale k)).reset.tiles =
      (row.arrange anchor).reset.tiles.map (Tile.zoom k) := by
  have hreset : ∀ tile : Tile ℝ, (tile.zoom k).reset = tile.reset.zoom k := by
    intro tile
    show { (tile.zoom k).reset with pointerOffset := Point.zero } = { tile.reset.zoom k with
      pointerOffset := Point.zero.scale k }
    rw [Point.scale_zero]
    rfl
  show (sortTiles (anchor.scale k) (row.tiles.map (Tile.zoom k))).map Tile.reset =
    ((sortTiles anchor row.tiles).map Tile.reset).map (Tile.zoom k)
  rw [sortTiles_zoom hk, List.map_map, List.map_map]
  exact List.map_congr_left fun tile _ => hreset tile

end Row

/-! ## The lens -/

namespace Lens

variable {k : ℝ} {g : Geometry ℝ} {s : Strengths ℝ}

section Nearest

variable (hk : 0 < k)

theorem restingCenter_zoom (tile : Tile ℝ) :
    restingCenter (g.zoom k) (tile.zoom k) = (restingCenter g tile).scale k := by
  have hsize : (g.zoom k).scaledIconSize = g.scaledIconSize * k := (mul_assoc _ _ _).symm
  unfold restingCenter
  rw [hsize]
  exact Point.centerOfSquare_scale _ _

theorem hitRadius_zoom : hitRadius (g.zoom k) = hitRadius g * k := (mul_assoc _ _ _).symm

include hk

theorem pointerDistance_zoom (tile : Tile ℝ) :
    pointerDistance (g.zoom k) (tile.zoom k) = pointerDistance g tile * k := by
  unfold pointerDistance
  rw [restingCenter_zoom]
  exact Point.distance_scale _ _ hk

/-- What is found on a zoomed tile is what is found on the tile, zoomed. -/
theorem focusOn_zoom (index : Nat) (tile : Tile ℝ) :
    focusOn (g.zoom k) index (tile.zoom k) = (focusOn g index tile).zoom k := by
  have hoffset : restingCenter (g.zoom k) (tile.zoom k) - (g.zoom k).pointer =
      (restingCenter g tile - g.pointer).scale k := by
    rw [restingCenter_zoom]
    exact Point.scale_sub _ _
  unfold focusOn Focus.zoom
  rw [pointerDistance_zoom hk, hoffset]

/-- A zoomed tile improves on the best exactly if it did before. -/
theorem improves_zoom (tile : Tile ℝ) (best : Option (Focus ℝ)) :
    improves (g.zoom k) (tile.zoom k) (best.map (Focus.zoom k)) = improves g tile best := by
  have hlt : ∀ distance : ℝ, decide (pointerDistance g tile * k < distance * k) =
      decide (pointerDistance g tile < distance) :=
    fun distance => decide_eq_decide.mpr (mul_lt_mul_iff_left₀ hk)
  unfold improves
  rw [pointerDistance_zoom hk, hitRadius_zoom, hlt]
  cases best with
  | none => rfl
  | some focus => exact congrArg (tile.visible && _ && ·) (hlt focus.distance)

/-- So the nearest of zoomed tiles is the nearest one, zoomed. -/
theorem nearestFrom_zoom (best : Option (Focus ℝ)) (index : Nat) (tiles : List (Tile ℝ)) :
    nearestFrom (g.zoom k) (best.map (Focus.zoom k)) index (tiles.map (Tile.zoom k)) =
      (nearestFrom g best index tiles).map (Focus.zoom k) := by
  induction tiles generalizing best index with
  | nil => rfl
  | cons tile rest ih =>
      rw [List.map_cons, nearestFrom, nearestFrom, improves_zoom hk, focusOn_zoom hk]
      by_cases himproves : improves g tile best = true
      · rw [if_pos himproves, if_pos himproves]
        exact ih (some (focusOn g index tile)) (index + 1)
      · rw [if_neg himproves, if_neg himproves]
        exact ih best (index + 1)

/-- A denser display has the lens on the same tile. -/
theorem nearest?_zoom (tiles : List (Tile ℝ)) :
    nearest? (g.zoom k) (tiles.map (Tile.zoom k)) = (nearest? g tiles).map (Focus.zoom k) :=
  nearestFrom_zoom hk none 0 tiles

end Nearest

section Magnify

/-- Rise is in proportion to icons. -/
theorem riseOffset_zoom : riseOffset (g.zoom k) s = riseOffset g s * k :=
  (mul_assoc (g.edge.awaySign * g.iconSize * 0.25 * s.rise) g.scaleFactor k).symm

/-- The tile in the center aims at the same place, zoomed. -/
theorem centerTarget_zoom (hk : 0 < k) (focus : Focus ℝ) (tile : Tile ℝ) :
    centerTarget (g.zoom k) s (focus.zoom k) (tile.zoom k) =
      (centerTarget g s focus tile).scale k := by
  have hraised : (g.zoom k).edge.perpendicularAxis.modify (tile.zoom k).target
      (· + riseOffset (g.zoom k) s) =
      (g.edge.perpendicularAxis.modify tile.target (· + riseOffset g s)).scale k := by
    refine Axis.modify_scale _ _ fun value => ?_
    rw [riseOffset_zoom, add_mul]
  have hoffset : (g.zoom k).edge.inlineAxis.of (focus.zoom k).offset / 4.0 =
      g.edge.inlineAxis.of focus.offset / 4.0 * k := by
    show g.edge.inlineAxis.of (focus.offset.scale k) / 4.0 = _
    rw [Axis.of_scale, div_mul_eq_mul_div]
  have habs : ∀ offset : ℝ, Scalar.abs (offset * k) = Scalar.abs offset * k := by
    intro offset
    show |offset * k| = |offset| * k
    rw [abs_mul, abs_of_pos hk]
  unfold centerTarget
  dsimp only
  rw [hraised, hoffset, habs]
  -- where nothing is spread, the tile keeps its place on the edge
  by_cases hspreads : s.spreads = true
  · rw [if_pos hspreads, if_pos hspreads]
    have hmoved : (g.zoom k).edge.inlineAxis.modify
        ((g.edge.perpendicularAxis.modify tile.target (· + riseOffset g s)).scale k)
        (· + g.edge.inlineAxis.of focus.offset / 4.0 * k) =
        (g.edge.inlineAxis.modify
          (g.edge.perpendicularAxis.modify tile.target (· + riseOffset g s))
          (· + g.edge.inlineAxis.of focus.offset / 4.0)).scale k :=
      Axis.modify_scale _ _ fun value => (add_mul _ _ _).symm
    rw [hmoved]
    refine Axis.modify_scale _ _ fun value => ?_
    show value * k - g.edge.awaySign * (_ * k) / 2.0 = _
    ring
  · rw [if_neg hspreads, if_neg hspreads]
    show g.edge.inlineAxis.set _ (g.edge.inlineAxis.of (tile.fixed.scale k)) = _
    rw [Axis.of_scale, Axis.set_scale]

theorem magnifyCenter_zoom (hk : 0 < k) (focus : Focus ℝ) (tile : Tile ℝ) :
    magnifyCenter (g.zoom k) s (focus.zoom k) (tile.zoom k) =
      (magnifyCenter g s focus tile).zoom k := by
  unfold magnifyCenter
  rw [centerTarget_zoom hk]
  rfl

/-- A neighbor is pushed in proportion. -/
theorem neighborInline_zoom (direction scale : ℝ) (wave : Wave ℝ) (tile : Tile ℝ) :
    neighborInline (g.zoom k) s direction (wave.zoom k) scale (tile.zoom k) =
      neighborInline g s direction wave scale tile * k := by
  unfold neighborInline
  by_cases hspreads : s.spreads = true
  · rw [if_pos hspreads, if_pos hspreads]
    show (g.edge.inlineAxis.of (tile.target.scale k) + wave.inner * k * wave.pull) /
      (wave.pull + 1.0) + direction * (g.iconSize * (scale + 0.2) * (g.scaleFactor * k)) = _
    rw [Axis.of_scale]
    ring
  · rw [if_neg hspreads, if_neg hspreads]
    exact Axis.of_scale _ _

/-- The waves run alike. -/
theorem spreadOut_zoom (direction : ℝ) (reach : Nat) (wave : Wave ℝ) (tiles : List (Tile ℝ)) :
    spreadOut (g.zoom k) s direction reach (wave.zoom k) (tiles.map (Tile.zoom k)) =
      (spreadOut g s direction reach wave tiles).map (Tile.zoom k) := by
  induction tiles generalizing reach wave with
  | nil => cases reach <;> rfl
  | cons tile rest ih =>
      cases reach with
      | zero => rfl
      | succ reach =>
          have hplace := neighborInline_zoom (k := k) (g := g) (s := s) direction
            (wave.scale * s.decay) wave tile
          have htarget : (g.zoom k).edge.inlineAxis.set (tile.zoom k).target
              (neighborInline g s direction wave (wave.scale * s.decay) tile * k) =
              (g.edge.inlineAxis.set tile.target
                (neighborInline g s direction wave (wave.scale * s.decay) tile)).scale k :=
            Axis.set_scale _ _ _
          have hrest := ih reach ⟨wave.scale * s.decay, wave.pull * 0.9,
            neighborInline g s direction wave (wave.scale * s.decay) tile⟩
          rw [List.map_cons, spreadOut, spreadOut, List.map_cons, ← hrest]
          rw [show (wave.zoom k).scale = wave.scale from rfl, hplace, htarget]
          rfl

/-- The lens and its waves leave the tiles alike. -/
theorem magnifyAt_zoom (hk : 0 < k) (focus : Focus ℝ) (before : List (Tile ℝ)) (tile : Tile ℝ)
    (after : List (Tile ℝ)) :
    magnifyAt (g.zoom k) s (focus.zoom k) (before.map (Tile.zoom k)) (tile.zoom k)
        (after.map (Tile.zoom k)) =
      (magnifyAt g s focus before tile after).map (Tile.zoom k) := by
  have hstart : Wave.start (g.zoom k) ((magnifyCenter g s focus tile).zoom k) =
      (Wave.start g (magnifyCenter g s focus tile)).zoom k :=
    congrArg (Wave.mk _ _) (Axis.of_scale _ _)
  rw [magnifyAt_real, magnifyAt_real, magnifyCenter_zoom hk, hstart, ← List.map_reverse,
    spreadOut_zoom, spreadOut_zoom, List.map_append, List.map_cons, List.map_reverse]

/-- The lens is put on the same tiles, where the pointer is near enough on both displays or on
    neither. -/
theorem magnify_zoom (hk : 0 < k) {focus : Focus ℝ}
    (hnear : isNear (g.zoom k) (focus.zoom k) = isNear g focus) (tiles : List (Tile ℝ)) :
    magnify (g.zoom k) s (focus.zoom k) (tiles.map (Tile.zoom k)) =
      (magnify g s focus tiles).map fun result => (result.1.map (Tile.zoom k), result.2) :=
  magnify_map (Tile.zoom k) hnear rfl (magnifyAt_zoom hk focus) tiles

end Magnify

/-! ## A round of the lens -/

section Round

variable (hk : 0 < k) {tiles : List (Tile ℝ)} {focus : Focus ℝ}

/-- On a display `k` times as dense, the pointer is near enough for the lens on the nearest tile, if
    there is one.  On the display itself it always is. -/
structure NearAt (k : ℝ) (g : Geometry ℝ) (tiles : List (Tile ℝ)) : Prop where
  near : ∀ focus, nearest? g tiles = some focus → focus.distance * k < g.iconSize * 2

/-- A pointer within reach of a tile is near enough for the lens up to a density of eight fifths. -/
theorem nearAt_of_le (hfactor : g.scaleFactor = 1) (hlow : k ≤ 8 / 5) : NearAt k g tiles := by
  refine ⟨fun focus hfocus => ?_⟩
  obtain ⟨i, tile, -, -, hhit, rfl⟩ := focus_of_nearest? hfocus
  have hradius : hitRadius g = 5 / 4 * g.iconSize := by
    unfold hitRadius
    rw [hfactor, mul_one, ofScientific_real]
    norm_num
    ring
  rw [hradius] at hhit
  have hdistance : 0 ≤ pointerDistance g tile := Point.distance_nonneg _ _
  have hscaled := mul_le_mul_of_nonneg_left hlow hdistance
  show pointerDistance g tile * k < g.iconSize * 2
  linarith

include hk

/-- Where the pointer is near enough on both displays, the lens aims the tiles alike. -/
theorem aim_zoom_of_near (hfactor : g.scaleFactor = 1) (hnear : NearAt k g tiles) :
    aim (g.zoom k) s (tiles.map (Tile.zoom k)) =
      (aim g s tiles).map fun result => (result.1.map (Tile.zoom k), result.2) := by
  unfold aim
  rw [nearest?_zoom hk]
  cases hfocus : nearest? g tiles with
  | none => rfl
  | some focus =>
      refine magnify_zoom hk ?_ tiles
      have hplain : NearAt 1 g tiles := nearAt_of_le hfactor (by norm_num)
      have hnearer := hplain.near focus hfocus
      rw [mul_one] at hnearer
      rw [(isNear_real _ _).mpr (hnear.near focus hfocus), (isNear_real _ _).mpr hnearer]

/-- Where it is too far away on the denser one, the tiles rest there. -/
theorem aim_zoom_of_far (hfar : ¬ NearAt k g tiles) :
    aim (g.zoom k) s (tiles.map (Tile.zoom k)) = .ok (tiles.map (Tile.zoom k), false) := by
  have hfound : ∃ focus, nearest? g tiles = some focus ∧
      ¬ focus.distance * k < g.iconSize * 2 := by
    by_contra hnone
    exact hfar ⟨fun focus hfocus => by_contra fun hlt => hnone ⟨focus, hfocus, hlt⟩⟩
  obtain ⟨focus, hfocus, hfocusFar⟩ := hfound
  unfold aim
  rw [nearest?_zoom hk, hfocus]
  exact if_neg fun hlens => hfocusFar ((isNear_real _ _).mp hlens)

end Round

end Lens

/-! ## A step of a tile -/

namespace Tile

variable {k : ℝ} {tile : Tile ℝ} {iconSize : ℝ} {retracting : Bool}

/-- No zoom makes a way of none. -/
theorem not_glides_of_eq (h : tile.position = tile.target) (iconSize : ℝ) :
    ¬ Glides iconSize (tile.way * k) := by
  rw [way_of_eq h, zero_mul]
  exact not_glides_zero iconSize

theorem way_zoom (hk : 0 < k) (tile : Tile ℝ) : (tile.zoom k).way = tile.way * k :=
  Point.distance_scale _ _ hk

/-- The positions stay alike as long as the tile glides on both displays or on neither. -/
theorem smoothPosition_zoom_iff (hk : 0 < k) :
    ((tile.zoom k).smoothPosition iconSize retracting).1 =
        (tile.smoothPosition iconSize retracting).1.scale k ↔
      (Glides iconSize (tile.way * k) ↔ Glides iconSize tile.way) := by
  have hway := way_zoom hk tile
  by_cases hdense : Glides iconSize (tile.way * k)
  · rw [smoothPosition_of_glides (hway ▸ hdense)]
    by_cases hplain : Glides iconSize tile.way
    · rw [smoothPosition_of_glides hplain]
      exact iff_of_true (Point.blend_scale _ _ _) (iff_of_true hdense hplain)
    · rw [smoothPosition_of_not_glides hplain]
      refine iff_of_false ?_ fun hsame => hplain (hsame.mp hdense)
      intro hmoved
      have hthere : (tile.zoom k).position = (tile.zoom k).target := eq_of_blend_eq hmoved
      exact not_glides_of_eq (Point.scale_injective _ _ hk hthere) iconSize hdense
  · rw [smoothPosition_of_not_glides (hway ▸ hdense)]
    by_cases hplain : Glides iconSize tile.way
    · rw [smoothPosition_of_glides hplain]
      refine iff_of_false ?_ fun hsame => hdense (hsame.mpr hplain)
      intro hmoved
      have hthere := eq_of_blend_eq (Point.scale_injective _ _ hk hmoved.symm)
      exact not_glides_of_eq (k := 1) hthere iconSize (by rwa [mul_one])
    · rw [smoothPosition_of_not_glides hplain]
      exact iff_of_true rfl (iff_of_false hdense hplain)

end Tile

/-! ## Two displays -/

namespace Lens

variable {k : ℝ} {g : Geometry ℝ} {s : Strengths ℝ} {row : Row ℝ} {anchor : Point ℝ}

/-- How a dock on a display of scale factor one compares with the same dock on a display `k` times as
    dense: the tiles at rest, and those that a round of the lens has aimed on one display and on the
    other. -/
structure DensityCompare (k : ℝ) (g : Geometry ℝ) (resting tiles resting' tiles' : List (Tile ℝ))
    (magnified magnified' : Bool) : Prop where
  resting_eq : resting' = resting.map (Tile.zoom k)
  /-- The nearest tile is the same. -/
  focus_eq : nearest? (g.zoom k) resting' = (nearest? g resting).map (Focus.zoom k)
  /-- The lens is put on it alike, as long as the pointer is near enough. -/
  aimed : NearAt k g resting → tiles' = tiles.map (Tile.zoom k) ∧ magnified' = magnified
  near : k ≤ 8 / 5 → NearAt k g resting
  /-- Otherwise the tiles of the denser display rest. -/
  rests : ¬ NearAt k g resting → tiles' = resting' ∧ magnified' = false
  /-- A step makes the scales alike. -/
  scale_eq : ∀ tile ∈ tiles, ∀ retracting,
    ((tile.zoom k).advance g.iconSize retracting).1.scale =
      (tile.advance g.iconSize retracting).1.scale
  /-- It makes the positions alike just where a tile glides on both displays or on neither. -/
  position_iff : ∀ tile ∈ tiles, ∀ retracting,
    ((tile.zoom k).advance g.iconSize retracting).1.position =
        (tile.advance g.iconSize retracting).1.position.scale k ↔
      (tile.visible = true →
        (Tile.Glides g.iconSize (tile.way * k) ↔ Tile.Glides g.iconSize tile.way))

/-- A step makes the scales alike, whether a tile is visible or not. -/
theorem scale_advance_zoom (iconSize : ℝ) (tile : Tile ℝ) (retracting : Bool) :
    ((tile.zoom k).advance iconSize retracting).1.scale =
      (tile.advance iconSize retracting).1.scale := by
  unfold Tile.advance
  show (if tile.visible then _ else _ : Tile ℝ × Bool).1.scale = _
  split <;> rfl

/-- A step makes the positions alike unless a visible tile glides on one display only. -/
theorem position_advance_zoom_iff (hk : 0 < k) (iconSize : ℝ) (tile : Tile ℝ) (retracting : Bool) :
    ((tile.zoom k).advance iconSize retracting).1.position =
        (tile.advance iconSize retracting).1.position.scale k ↔
      (tile.visible = true →
        (Tile.Glides iconSize (tile.way * k) ↔ Tile.Glides iconSize tile.way)) := by
  unfold Tile.advance
  by_cases hvisible : tile.visible = true
  · rw [if_pos hvisible, if_pos (show (tile.zoom k).visible = true from hvisible)]
    have hsmooth : ((tile.bare.zoom k).smoothPosition iconSize retracting).1 =
          (tile.bare.smoothPosition iconSize retracting).1.scale k ↔
        (Tile.Glides iconSize (tile.way * k) ↔ Tile.Glides iconSize tile.way) :=
      Tile.smoothPosition_zoom_iff hk
    exact hsmooth.trans ⟨fun halike _ => halike, fun halike => halike hvisible⟩
  · rw [if_neg hvisible, if_neg (show ¬ (tile.zoom k).visible = true from hvisible)]
    exact iff_of_true rfl fun hshown => absurd hshown hvisible

/-- **THE DOCK LOOKS ALIKE ON A DENSER DISPLAY**, unless a length passes one of the three limits that
    are not measured on the display: with the pointer less than two icon sizes away, the lens aims the
    tiles alike, and they step alike where they glide on both displays or on neither. -/
theorem round_zoom (hk : 0 < k) (hfactor : g.scaleFactor = 1) (s : Strengths ℝ) (anchor : Point ℝ)
    (row : Row ℝ) : ∃ tiles magnified tiles' magnified',
      round g s anchor row = .ok (tiles, magnified) ∧
      round (g.zoom k) s (anchor.scale k) (row.zoom k) = .ok (tiles', magnified') ∧
      DensityCompare k g (row.arrange anchor).reset.tiles tiles
        ((row.zoom k).arrange (anchor.scale k)).reset.tiles tiles' magnified magnified' := by
  have hresting := Row.resting_zoom hk anchor row
  obtain ⟨result, haim⟩ : ∃ result, aim g s (row.arrange anchor).reset.tiles = .ok result := by
    obtain haim | ⟨before, center, after, -, -, -, haim⟩ :=
      aim_cases g s (row.arrange anchor).reset.tiles
    · exact ⟨_, haim⟩
    · exact ⟨_, haim⟩
  -- the denser display puts its lens on the same tile, or on none where the pointer is too far
  by_cases hnear : NearAt k g (row.arrange anchor).reset.tiles
  · have hdense := aim_zoom_of_near (s := s) hk hfactor hnear
    rw [haim, ← hresting] at hdense
    refine ⟨result.1, result.2, _, _, haim, hdense, hresting, ?_, ?_, ?_, ?_, ?_, ?_⟩
    · rw [hresting]
      exact nearest?_zoom hk _
    · exact fun _ => ⟨rfl, rfl⟩
    · exact fun _ => hnear
    · exact fun hfar => absurd hnear hfar
    · exact fun tile _ => scale_advance_zoom g.iconSize tile
    · exact fun tile _ => position_advance_zoom_iff hk g.iconSize tile
  · have hdense := aim_zoom_of_far (s := s) hk hnear
    rw [← hresting] at hdense
    refine ⟨result.1, result.2, _, _, haim, hdense, hresting, ?_, ?_, ?_, ?_, ?_, ?_⟩
    · rw [hresting]
      exact nearest?_zoom hk _
    · exact fun hclose => absurd hclose hnear
    · exact fun hlow => nearAt_of_le hfactor hlow
    · exact fun _ => ⟨rfl, rfl⟩
    · exact fun tile _ => scale_advance_zoom g.iconSize tile
    · exact fun tile _ => position_advance_zoom_iff hk g.iconSize tile

/-! ### A pointer at the edge of the reach

    One icon of 48 with its center at 24, and a pointer 55 below the center.  That is within reach of
    the icon, which ends at 60 there and at 120 on a display twice as dense.  The lens asks for less
    than 96 on both. -/

noncomputable def offCenter : Geometry ℝ := { onFirst with pointer := ⟨onFirst.pointer.x, 79⟩ }

/-- The pointer is fifty-five away from the center of the tile. -/
private theorem pointerDistance_offCenter : pointerDistance offCenter firstTile.reset = 55 := by
  have hhalf : offCenter.iconSize * 1 / 2.0 = 24 := by
    rw [show offCenter.iconSize = 48 from iconSize_onFirst, ofScientific_real]
    norm_num
  have hlevel : Axis.y.across.of offCenter.pointer =
      Axis.y.across.of (restingCenter offCenter firstTile.reset) := by
    show (24 : ℝ) = 0 + offCenter.iconSize * 1 / 2.0
    rw [hhalf, zero_add]
  unfold pointerDistance
  rw [Point.distance_of_level hlevel]
  show |(79 : ℝ) - (0 + offCenter.iconSize * 1 / 2.0)| = 55
  rw [hhalf]
  norm_num

private theorem nearest?_offCenter : nearest? offCenter [firstTile.reset] =
    some (focusOn offCenter 0 firstTile.reset) := by
  have hhit : pointerDistance offCenter firstTile.reset < hitRadius offCenter := by
    rw [pointerDistance_offCenter]
    show (55 : ℝ) < offCenter.iconSize * 1.25 * 1
    rw [show offCenter.iconSize = 48 from iconSize_onFirst, ofScientific_real]
    norm_num
  have hnearest : nearest? offCenter ([] ++ firstTile.reset :: []) =
      some (focusOn offCenter (0 + 0) firstTile.reset) :=
    nearestFrom_append rfl hhit nofun nofun nofun
  exact hnearest

private theorem aim_offCenter : aim offCenter ⟨1, 1, 1⟩ [firstTile.reset] =
    .ok ([magnifyCenter offCenter ⟨1, 1, 1⟩ (focusOn offCenter 0 firstTile.reset) firstTile.reset],
      true) := by
  have hnear : isNear offCenter (focusOn offCenter 0 firstTile.reset) = true := by
    rw [isNear_iff, pointerDistance_offCenter, show offCenter.iconSize = 48 from iconSize_onFirst]
    norm_num
  rw [aim_of_nearest? nearest?_offCenter]
  exact if_pos hnear

/-- Twice as dense, the display does without the lens that is on the icon here. -/
theorem round_zoom_offCenter : ∃ tiles tiles',
    round offCenter ⟨1, 1, 1⟩ ⟨0, 0⟩ ⟨[firstTile], 1⟩ = .ok (tiles, true) ∧
    round (offCenter.zoom 2) ⟨1, 1, 1⟩ (Point.scale ⟨0, 0⟩ 2) (Row.zoom 2 ⟨[firstTile], 1⟩) =
      .ok (tiles', false) ∧
    tiles.map Tile.targetScale = [19 / 10] ∧ tiles'.map Tile.targetScale = [1] := by
  have hfar : ¬ NearAt 2 offCenter [firstTile.reset] := by
    intro hnear
    have hlt := hnear.near _ nearest?_offCenter
    change pointerDistance offCenter firstTile.reset * 2 < offCenter.iconSize * 2 at hlt
    rw [pointerDistance_offCenter, show offCenter.iconSize = 48 from iconSize_onFirst] at hlt
    norm_num at hlt
  have hdense := aim_zoom_of_far (s := ⟨1, 1, 1⟩) two_pos hfar
  have hresting := Row.resting_zoom (k := 2) two_pos ⟨0, 0⟩ ⟨[firstTile], 1⟩
  refine ⟨_, _, aim_offCenter, (congrArg (aim _ _) hresting).trans hdense, ?_, ?_⟩
  · show [1.0 + 0.9 * (1 : ℝ)] = [19 / 10]
    simp only [ofScientific_real]
    norm_num
  · show [(1.0 : ℝ)] = [1]
    rw [one_real]

/-- Half as dense again, the display has the lens on the icon as it is here. -/
theorem round_zoom_threeHalves : ∃ tiles,
    round offCenter ⟨1, 1, 1⟩ ⟨0, 0⟩ ⟨[firstTile], 1⟩ = .ok (tiles, true) ∧
    round (offCenter.zoom (3 / 2)) ⟨1, 1, 1⟩ (Point.scale ⟨0, 0⟩ (3 / 2))
      (Row.zoom (3 / 2) ⟨[firstTile], 1⟩) = .ok (tiles.map (Tile.zoom (3 / 2)), true) := by
  have hk : (0 : ℝ) < 3 / 2 := by norm_num
  obtain ⟨tiles, magnified, tiles', magnified', hround, hround', h⟩ :=
    round_zoom (g := offCenter) hk rfl ⟨1, 1, 1⟩ ⟨0, 0⟩ ⟨[firstTile], 1⟩
  obtain ⟨rfl, rfl⟩ := h.aimed (h.near (by norm_num))
  obtain ⟨rfl, rfl⟩ := Prod.mk.inj (Except.ok.inj (hround.symm.trans aim_offCenter))
  exact ⟨_, hround, hround'⟩

end Lens

end FisheyeDock
