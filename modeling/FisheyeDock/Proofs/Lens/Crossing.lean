import Mathlib.Data.List.Chain
import Mathlib.Tactic.FieldSimp
import Mathlib.Tactic.LinearCombination
import FisheyeDock.Proofs.Lens.Scale

/-! # Tiles do not cross

    In a row whose tiles rest at least an icon size apart, the lens sends no tile past another: along
    the edge the targets lie in the order of the row (`aim_ascending`).

    A wave moves a tile by a part of what it has moved the tile before, and by a push that fades with
    its scale.  What has to be watched is by how many icon sizes the tile behind the wave has come
    past the place of the next one.  `Leaves` bounds that by the scale of the wave.  It holds where a
    wave starts, every step keeps it (`Leaves.step`), and it leaves the next tile room: both to be
    moved on, and to stay where it is once the wave is at its end. -/

namespace FisheyeDock

/-- Where a tile is heading along the edge. -/
def Tile.heading (edge : Edge) (tile : Tile ℝ) : ℝ := edge.inlineAxis.of tile.target

namespace Lens

/-- Puts the lens on the nearest tile, if there is one. -/
def aim {α : Type} [Scalar α] (g : Geometry α) (s : Strengths α) (tiles : List (Tile α)) :
    Except Fault (List (Tile α) × Bool) :=
  match nearest? g tiles with
  | some focus => magnify g s focus tiles
  | none => .ok (tiles, false)

/-- The lens is applied to what is nearest. -/
theorem aim_of_nearest? {α : Type} [Scalar α] {g : Geometry α} {s : Strengths α}
    {tiles : List (Tile α)} {focus : Focus α} (h : nearest? g tiles = some focus) :
    aim g s tiles = magnify g s focus tiles := by
  unfold aim
  rw [h]

/-- Tiles in the order in which they rest along the edge, each at least an icon size from the
    next. -/
structure Spaced (g : Geometry ℝ) (tiles : List (Tile ℝ)) : Prop where
  ascending : (tiles.map (Tile.place g.edge)).IsChain (· < ·)
  apart : (tiles.map (Tile.place g.edge)).IsChain fun place next =>
    place + g.scaledIconSize ≤ next

/-! ## How far a wave carries a tile -/

/-- A wave has carried a tile `excess` icon sizes past the place of the next one, and this leaves the
    next one room.  The last of the bounds is reached after two steps: at first the tile is where the
    lens has put it, then the wave has moved it once. -/
structure Leaves (scale excess : ℝ) : Prop where
  scale_nonneg : 0 ≤ scale
  /-- The push of the next step is longer than that. -/
  room : excess ≤ 3 / 5 * scale + 1 / 5
  /-- A wave that has faded carries no tile that far. -/
  spent : excess ≤ 33 / 20 * scale - 67 / 100
  early : (scale ≤ 19 / 10 ∧ excess ≤ 0) ∨ (scale ≤ 38 / 25 ∧ excess ≤ scale - 4 / 5) ∨
    scale ≤ 152 / 125

theorem Leaves.of_start {scale excess : ℝ} (hone : 1 ≤ scale) (hlargest : scale ≤ 19 / 10)
    (hexcess : excess ≤ 0) : Leaves scale excess where
  scale_nonneg := by linarith
  room := by linarith
  spent := by linarith
  early := .inl ⟨hlargest, hexcess⟩

/-- A scale fades by the decay, which is between three and four fifths. -/
theorem Leaves.fades {scale excess decay : ℝ} (h : Leaves scale excess) (hdecay : 3 / 5 ≤ decay)
    (hdecay' : decay ≤ 4 / 5) :
    3 / 5 * scale ≤ scale * decay ∧ scale * decay ≤ 4 / 5 * scale := by
  rw [mul_comm scale decay]
  exact ⟨mul_le_mul_of_nonneg_right hdecay h.scale_nonneg,
    mul_le_mul_of_nonneg_right hdecay' h.scale_nonneg⟩

/-- A step keeps at most nine fourteenths of the excess, and what the fading push adds is an icon
    size less. -/
theorem Leaves.step {scale excess kept decay excess' : ℝ} (h : Leaves scale excess)
    (hdecay : 3 / 5 ≤ decay) (hdecay' : decay ≤ 4 / 5) (hkept : 0 ≤ kept) (hkept' : kept ≤ 9 / 14)
    (hexcess : excess' ≤ kept * excess + (scale * decay - 4 / 5)) :
    Leaves (scale * decay) excess' := by
  obtain ⟨hslow, hfades⟩ := h.fades hdecay hdecay'
  obtain ⟨hscale, hroom, -, hearly⟩ := h
  -- a tile that has not come as far as the next place does not carry the next one on
  have hcarried : kept * excess ≤ 0 ∨ kept * excess ≤ 9 / 14 * excess := by
    rcases le_total excess 0 with hbehind | hahead
    · exact .inl (mul_nonpos_of_nonneg_of_nonpos hkept hbehind)
    · exact .inr (mul_le_mul_of_nonneg_right hkept' hahead)
  have hlargest : scale ≤ 19 / 10 := by
    rcases hearly with ⟨hscale', -⟩ | ⟨hscale', -⟩ | hscale' <;> linarith
  refine ⟨by linarith, ?_, ?_, ?_⟩
  · rcases hcarried with hcarried | hcarried
    · linarith
    · rcases hearly with ⟨-, hexcess'⟩ | ⟨hscale', hexcess'⟩ | hscale' <;> linarith
  · rcases hcarried with hcarried | hcarried <;> linarith
  · rcases hearly with ⟨-, hbehind⟩ | ⟨hscale', -⟩ | hscale'
    · have hnothing := mul_nonpos_of_nonneg_of_nonpos hkept hbehind
      exact .inr (.inl ⟨by linarith, by linarith⟩)
    · exact .inr (.inr (by linarith))
    · exact .inr (.inr (by linarith))

/-! ## The run of a wave -/

section Waves

variable {g : Geometry ℝ} {s : Strengths ℝ} {direction : ℝ}

/-- Along the way of a wave, one coordinate comes after another. -/
def Passes (direction place next : ℝ) : Prop := 0 < direction * (next - place)

/-- Along the way of a wave, a tile rests at least an icon size after another. -/
def Follows (g : Geometry ℝ) (direction : ℝ) (tile next : Tile ℝ) : Prop :=
  g.scaledIconSize ≤ direction * (next.place g.edge - tile.place g.edge)

/-- By how many icon sizes a wave has carried the tile behind it past the place of the next one. -/
noncomputable def excess (g : Geometry ℝ) (direction : ℝ) (wave : Wave ℝ) (next : Tile ℝ) : ℝ :=
  direction * (wave.inner - next.place g.edge) / g.scaledIconSize

/-- The part of the excess that a wave keeps. -/
noncomputable def Wave.kept (wave : Wave ℝ) : ℝ := wave.pull / (wave.pull + 1)

/-- A neighbor keeps at most nine fourteenths of what it is pulled by. -/
theorem kept_le {wave : Wave ℝ} (hpull : 0 < wave.pull) (hpull' : wave.pull ≤ 9 / 5) :
    0 ≤ wave.kept ∧ wave.kept ≤ 9 / 14 := by
  unfold Wave.kept
  refine ⟨by positivity, ?_⟩
  rw [div_le_iff₀ (by linarith)]
  linarith

/-- Tiles that rest in order, behind a wave that has not come to the first of them. -/
theorem resting_ordered (hsize : 0 < g.scaledIconSize) {wave : Wave ℝ} {tiles : List (Tile ℝ)}
    (hresting : ∀ tile ∈ tiles, tile.heading g.edge = tile.place g.edge)
    (hfollows : tiles.IsChain (Follows g direction))
    (hbehind : ∀ next ∈ tiles.head?, excess g direction wave next < 0) :
    (wave.inner :: tiles.map (Tile.heading g.edge)).IsChain (Passes direction) := by
  rw [List.map_congr_left hresting, List.isChain_cons, List.isChain_map]
  refine ⟨?_, hfollows.imp fun tile next hnext => lt_of_lt_of_le hsize hnext⟩
  intro place hplace
  rw [List.head?_map] at hplace
  obtain ⟨next, hnext, rfl⟩ := Option.map_eq_some_iff.mp hplace
  have hneg := hbehind next hnext
  rw [excess, div_lt_iff₀ hsize, zero_mul] at hneg
  unfold Passes
  linarith

variable (hsize : 0 < g.scaledIconSize) (hdirection : direction * direction = 1)
variable (hspreads : s.spreads = true) (mild : s.Mild)
include hdirection hspreads

/-- A step of a wave moves a tile on from its place by what is kept of the excess, and by the push. -/
theorem way_step {wave : Wave ℝ} (hpull : 0 < wave.pull) (scale : ℝ) {tile : Tile ℝ}
    (hresting : tile.heading g.edge = tile.place g.edge) :
    direction * (neighborInline g s direction wave scale tile - tile.place g.edge) =
      wave.kept * (direction * (wave.inner - tile.place g.edge))
        + (scale + 1 / 5) * g.scaledIconSize := by
  have hpush : g.iconSize * (scale + 0.2) * g.scaleFactor = (scale + 1 / 5) * g.scaledIconSize := by
    unfold Geometry.scaledIconSize
    simp only [ofScientific_real]
    norm_num
    ring
  have hpulled : (tile.place g.edge + wave.inner * wave.pull) / (wave.pull + 1) =
      tile.place g.edge + wave.kept * (wave.inner - tile.place g.edge) := by
    have hne : wave.pull + 1 ≠ 0 := by positivity
    unfold Wave.kept
    field_simp
    ring
  have hmoved : neighborInline g s direction wave scale tile =
      (tile.heading g.edge + wave.inner * wave.pull) / (wave.pull + 1)
        + direction * ((scale + 1 / 5) * g.scaledIconSize) := by
    unfold neighborInline
    rw [if_pos hspreads, one_real, hpush]
    rfl
  rw [hmoved, hresting, hpulled]
  linear_combination ((scale + 1 / 5) * g.scaledIconSize) * hdirection

include hsize

/-- The tile that a step moves comes after the one before it. -/
theorem passes_step {wave : Wave ℝ} (hpull : 0 < wave.pull) {scale : ℝ} {tile : Tile ℝ}
    (hscale : 0 ≤ scale) (hresting : tile.heading g.edge = tile.place g.edge)
    (hroom : excess g direction wave tile ≤ scale + 1 / 5) :
    Passes direction wave.inner (neighborInline g s direction wave scale tile) := by
  have hway := way_step hdirection hspreads hpull scale hresting
  have hpush : 0 < (scale + 1 / 5) * g.scaledIconSize := by positivity
  have hbehind : direction * (wave.inner - tile.place g.edge) ≤
      (scale + 1 / 5) * g.scaledIconSize := (div_le_iff₀ hsize).mp hroom
  have hkept : 0 < wave.kept := div_pos hpull (by linarith)
  have hkept' : wave.kept < 1 := (div_lt_one (by linarith)).mpr (by linarith)
  have hlost := mul_le_mul_of_nonneg_left hbehind (sub_nonneg.mpr hkept'.le)
  have hgained := mul_pos hkept hpush
  unfold Passes
  linarith

/-- What a step makes of the excess, at the tile after the one that it moves. -/
theorem excess_step {wave : Wave ℝ} (hpull : 0 < wave.pull) {scale pull : ℝ} {tile next : Tile ℝ}
    (hresting : tile.heading g.edge = tile.place g.edge) (hnext : Follows g direction tile next) :
    excess g direction ⟨scale, pull, neighborInline g s direction wave scale tile⟩ next ≤
      wave.kept * excess g direction wave tile + (scale - 4 / 5) := by
  have hway := way_step hdirection hspreads hpull scale hresting
  unfold Follows at hnext
  unfold excess
  rw [div_le_iff₀ hsize, add_mul, mul_assoc, div_mul_cancel₀ _ hsize.ne']
  linarith

include mild

/-- A wave keeps the order of the tiles it runs over, and leaves those beyond its reach room to stay
    where they are. -/
theorem spreadOut_ordered {reach : Nat} {wave : Wave ℝ} {tiles : List (Tile ℝ)}
    (hresting : ∀ tile ∈ tiles, tile.heading g.edge = tile.place g.edge)
    (hfollows : tiles.IsChain (Follows g direction)) (hpull : 0 < wave.pull)
    (hpull' : wave.pull ≤ 9 / 5) (hfades : wave.scale ≤ 1 / 10 * (5 / 4) ^ reach)
    (hleaves : ∀ next ∈ tiles.head?, Leaves wave.scale (excess g direction wave next)) :
    (wave.inner :: (spreadOut g s direction reach wave tiles).map (Tile.heading g.edge)).IsChain
      (Passes direction) := by
  induction tiles generalizing reach wave with
  | nil => cases reach <;> exact List.isChain_singleton _
  | cons first rest ih =>
      have hfirst := hresting first List.mem_cons_self
      have hlater : ∀ tile ∈ rest, tile.heading g.edge = tile.place g.edge :=
        fun tile hmem => hresting tile (List.mem_cons_of_mem _ hmem)
      have hroom := hleaves first rfl
      cases reach with
      | zero =>
          -- the wave is at its end, and what it has carried is not past the next place
          refine resting_ordered hsize hresting hfollows ?_
          intro next hnext
          linarith [(hleaves next hnext).spent, hfades, pow_zero (5 / 4 : ℝ)]
      | succ reach =>
          obtain ⟨hdecay, hdecay'⟩ := decay_bounds mild
          obtain ⟨hslow, hfast⟩ := hroom.fades hdecay hdecay'
          have hpasses : Passes direction wave.inner
              (neighborInline g s direction wave (wave.scale * s.decay) first) := by
            refine passes_step hsize hdirection hspreads hpull ?_ hfirst ?_
            · exact mul_nonneg hroom.scale_nonneg (by linarith)
            · linarith [hroom.room]
          have hnine : @OfScientific.ofScientific ℝ Scalar.toOfScientific 9 true 1 = 9 / 10 := by
            rw [ofScientific_real]
            norm_num
          have hrest := @ih reach
            ⟨wave.scale * s.decay, wave.pull * 0.9,
              neighborInline g s direction wave (wave.scale * s.decay) first⟩
            hlater (List.isChain_cons.mp hfollows).2 ?_ ?_ ?_ ?_
          · unfold spreadOut
            rw [List.map_cons]
            refine List.isChain_cons_cons.mpr ⟨?_, ?_⟩
            · unfold Tile.heading
              rw [Axis.of_set]
              exact hpasses
            · unfold Tile.heading
              rw [Axis.of_set]
              exact hrest
          · show 0 < wave.pull * 0.9
            rw [hnine]
            positivity
          · show wave.pull * 0.9 ≤ 9 / 5
            rw [hnine]
            linarith
          · show wave.scale * s.decay ≤ 1 / 10 * (5 / 4) ^ reach
            rw [pow_succ] at hfades
            linarith
          · intro next hnext
            obtain ⟨hkept, hkept'⟩ := kept_le hpull hpull'
            exact hroom.step hdecay hdecay' hkept hkept'
              (excess_step hsize hdirection hspreads hpull hfirst
                ((List.isChain_cons.mp hfollows).1 next hnext))

end Waves

/-! ## The lens -/

section Aim

variable {g : Geometry ℝ} {s : Strengths ℝ} {focus : Focus ℝ}
variable {before after tiles : List (Tile ℝ)} {center : Tile ℝ}

/-- A coordinate is no farther than the point. -/
theorem abs_sub_le_distance (axis : Axis) (p q : Point ℝ) :
    |axis.of p - axis.of q| ≤ p.distance q := by
  rw [Point.distance_real]
  refine Real.abs_le_sqrt ?_
  cases axis with
  | x =>
      show (p.x - q.x) ^ 2 ≤ _
      linarith [mul_self_nonneg (p.y - q.y), sq (p.x - q.x)]
  | y =>
      show (p.y - q.y) ^ 2 ≤ _
      linarith [mul_self_nonneg (p.x - q.x), sq (p.y - q.y)]

/-- The lens moves its tile along the edge by a quarter of the way from the pointer. -/
theorem heading_magnifyCenter (hspreads : s.spreads = true) :
    (magnifyCenter g s focus center).heading g.edge =
      center.heading g.edge + g.edge.inlineAxis.of focus.offset / 4 := by
  have hfour : @OfScientific.ofScientific ℝ Scalar.toOfScientific 40 true 1 = 4 := by
    rw [ofScientific_real]
    norm_num
  have hacross : ∀ (p : Point ℝ) (f : ℝ → ℝ),
      g.edge.inlineAxis.of (g.edge.perpendicularAxis.modify p f) = g.edge.inlineAxis.of p := by
    intro p f
    cases g.edge <;> rfl
  unfold Tile.heading magnifyCenter centerTarget
  dsimp only
  rw [if_pos hspreads, hacross, Axis.modify, Axis.of_set, hacross, hfour]

/-- Without spread, the lens leaves every tile at its place along the edge. -/
theorem heading_magnifyAt_pinned (hspread : s.spread = 0)
    (hresting : ∀ tile ∈ before ++ center :: after, tile.heading g.edge = tile.place g.edge) :
    (magnifyAt g s focus before center after).map (Tile.heading g.edge) =
      (before ++ center :: after).map (Tile.place g.edge) := by
  have hspreads : ¬ s.spreads = true := fun hspreads => spreads_iff.mp hspreads hspread
  have hwave : ∀ (direction : ℝ) (reach : Nat) (wave : Wave ℝ) (tiles : List (Tile ℝ)),
      (∀ tile ∈ tiles, tile.heading g.edge = tile.place g.edge) →
      (spreadOut g s direction reach wave tiles).map (Tile.heading g.edge) =
        tiles.map (Tile.place g.edge) := by
    intro direction reach wave tiles hall
    induction tiles generalizing reach wave with
    | nil => cases reach <;> rfl
    | cons first rest ih =>
        cases reach with
        | zero => exact List.map_congr_left hall
        | succ reach =>
            refine congrArg₂ List.cons ?_ (ih _ _ fun tile hmem =>
              hall tile (List.mem_cons_of_mem _ hmem))
            unfold Tile.heading
            rw [Axis.of_set]
            exact neighborInline_pinned hspread
  have hcenter : (magnifyCenter g s focus center).heading g.edge = center.place g.edge := by
    unfold Tile.heading magnifyCenter centerTarget
    dsimp only
    rw [if_neg hspreads, Axis.of_set]
    rfl
  rw [magnifyAt_real, List.map_append, List.map_reverse, List.map_cons, hcenter, hwave, hwave,
    List.map_reverse, List.reverse_reverse, List.map_append, List.map_cons]
  · intro tile hmem
    exact hresting tile (List.mem_append_right _ (List.mem_cons_of_mem _ hmem))
  · intro tile hmem
    exact hresting tile (List.mem_append_left _ (List.mem_reverse.mp hmem))

/-- The wave begins with the scale of the center. -/
theorem scale_start :
    (Wave.start g (magnifyCenter g s focus center)).scale = 1 + 9 / 10 * s.magnify :=
  targetScale_magnifyCenter g s focus center

/-- A wave that starts at the lens leaves the first tile of its way room. -/
theorem leaves_start (mild : s.Mild) (hsize : 0 < g.scaledIconSize) {direction : ℝ}
    (hunit : |direction| = 1) (hspreads : s.spreads = true)
    (hoffset : |g.edge.inlineAxis.of focus.offset| ≤ 5 / 4 * g.scaledIconSize)
    (hresting : center.heading g.edge = center.place g.edge) {next : Tile ℝ}
    (hnext : Follows g direction center next) :
    Leaves (Wave.start g (magnifyCenter g s focus center)).scale
      (excess g direction (Wave.start g (magnifyCenter g s focus center)) next) := by
  have hinner : (Wave.start g (magnifyCenter g s focus center)).inner =
      center.place g.edge + g.edge.inlineAxis.of focus.offset / 4 := by
    rw [← hresting, ← heading_magnifyCenter hspreads]
    rfl
  have hmoved : direction * g.edge.inlineAxis.of focus.offset ≤ 5 / 4 * g.scaledIconSize := by
    refine (le_abs_self _).trans ?_
    rw [abs_mul, hunit, one_mul]
    exact hoffset
  refine .of_start ?_ ?_ ?_
  · rw [scale_start]
    linarith [mild.magnify_nonneg]
  · rw [scale_start]
    linarith [mild.magnify_le_one]
  · refine div_nonpos_of_nonpos_of_nonneg ?_ hsize.le
    rw [hinner]
    unfold Follows at hnext
    linarith

/-- With the lens on one of them, the tiles are heading for places in their order. -/
theorem magnifyAt_ascending (mild : s.Mild) (hsize : 0 < g.scaledIconSize)
    (hspreads : s.spreads = true)
    (hoffset : |g.edge.inlineAxis.of focus.offset| ≤ 5 / 4 * g.scaledIconSize)
    (hresting : ∀ tile ∈ before ++ center :: after, tile.heading g.edge = tile.place g.edge)
    (hfollows : (before ++ center :: after).IsChain (Follows g 1)) :
    ((magnifyAt g s focus before center after).map (Tile.heading g.edge)).IsChain (· < ·) := by
  have hcenter := hresting center (List.mem_append_right _ List.mem_cons_self)
  have hfades : (Wave.start g (magnifyCenter g s focus center)).scale ≤
      1 / 10 * (5 / 4) ^ waveReach := by
    have hlong : (19 / 10 : ℝ) ≤ 1 / 10 * (5 / 4) ^ waveReach := by
      unfold waveReach
      norm_num
    rw [scale_start]
    linarith [mild.magnify_le_one]
  have hpull : (Wave.start g (magnifyCenter g s focus center)).pull = 9 / 5 := by
    show (1.8 : ℝ) = _
    rw [ofScientific_real]
    norm_num
  -- both waves keep the order of what they run over, seen in the way they run
  have hwave : ∀ (direction : ℝ) (tiles : List (Tile ℝ)), |direction| = 1 →
      direction * direction = 1 → (center :: tiles).IsChain (Follows g direction) →
      (∀ tile ∈ tiles, tile.heading g.edge = tile.place g.edge) →
      ((magnifyCenter g s focus center :: spreadOut g s direction waveReach
        (Wave.start g (magnifyCenter g s focus center)) tiles).map (Tile.heading g.edge)).IsChain
          (Passes direction) := by
    intro direction tiles hunit hsquare hchain hall
    refine spreadOut_ordered hsize hsquare hspreads mild hall (List.isChain_cons.mp hchain).2 ?_ ?_
      hfades ?_
    · rw [hpull]
      norm_num
    · exact hpull.le
    · intro next hnext
      exact leaves_start mild hsize hunit hspreads hoffset hcenter
        ((List.isChain_cons.mp hchain).1 next hnext)
  obtain ⟨hbefore, hafter⟩ := List.isChain_split.mp hfollows
  have hleft := hwave (-1) before.reverse (by norm_num) (by norm_num) ?_ ?_
  · have hright := hwave 1 after (by norm_num) (by norm_num) hafter ?_
    · rw [magnifyAt_real, List.map_append, List.map_cons]
      refine List.isChain_split.mpr ⟨?_, ?_⟩
      · rw [← List.map_singleton, ← List.map_append, ← List.reverse_cons, List.map_reverse,
          List.isChain_reverse]
        exact hleft.imp fun place next hpasses => by unfold Passes at hpasses; linarith
      · rw [← List.map_cons]
        exact hright.imp fun place next hpasses => by unfold Passes at hpasses; linarith
    · intro tile hmem
      exact hresting tile (List.mem_append_right _ (List.mem_cons_of_mem _ hmem))
  · have hreversed : center :: before.reverse = (before ++ [center]).reverse := by
      rw [List.reverse_append]
      rfl
    rw [hreversed, List.isChain_reverse]
    exact hbefore.imp fun tile next hnext => by unfold Follows at hnext ⊢; linarith
  · intro tile hmem
    exact hresting tile (List.mem_append_left _ (List.mem_reverse.mp hmem))

/-- A pointer within reach of a tile is not far from it along the edge. -/
theorem abs_offset_le {i : Nat} (hhit : pointerDistance g center < hitRadius g) :
    |g.edge.inlineAxis.of (focusOn g i center).offset| ≤ 5 / 4 * g.scaledIconSize := by
  have hradius : hitRadius g = 5 / 4 * g.scaledIconSize := by
    unfold hitRadius Geometry.scaledIconSize
    rw [ofScientific_real]
    norm_num
    ring
  have hway : g.edge.inlineAxis.of (focusOn g i center).offset =
      g.edge.inlineAxis.of (restingCenter g center) - g.edge.inlineAxis.of g.pointer := by
    cases g.edge.inlineAxis <;> rfl
  rw [hway, abs_sub_comm, ← hradius]
  exact (abs_sub_le_distance _ _ _).trans hhit.le

/-- The lens leaves the tiles alone, or is put on one that is within reach. -/
theorem aim_cases (g : Geometry ℝ) (s : Strengths ℝ) (tiles : List (Tile ℝ)) :
    aim g s tiles = .ok (tiles, false) ∨
    ∃ before center after, tiles = before ++ center :: after ∧
      pointerDistance g center < hitRadius g ∧
      isNear g (focusOn g before.length center) = true ∧
      aim g s tiles =
        .ok (magnifyAt g s (focusOn g before.length center) before center after, true) := by
  cases hnearest : nearest? g tiles with
  | none =>
      unfold aim
      rw [hnearest]
      exact .inl rfl
  | some focus =>
      obtain ⟨i, center, hcenter, -, hhit, rfl⟩ := focus_of_nearest? hnearest
      obtain ⟨hlt, hget⟩ := List.getElem?_eq_some_iff.mp hcenter
      have hsplit : tiles = tiles.take i ++ center :: tiles.drop (i + 1) := by
        rw [← hget, List.cons_getElem_drop_succ, List.take_append_drop]
      have hlength : (tiles.take i).length = i := by
        rw [List.length_take, Nat.min_eq_left hlt.le]
      have hmagnify : magnify g s (focusOn g i center)
          (tiles.take i ++ center :: tiles.drop (i + 1)) = _ :=
        magnify_append (focusOn g i center) hlength.symm
      rw [← hsplit] at hmagnify
      rw [aim_of_nearest? hnearest, hmagnify]
      by_cases hnear : isNear g (focusOn g i center) = true
      · rw [if_pos hnear]
        refine .inr ⟨tiles.take i, center, tiles.drop (i + 1), hsplit, hhit, ?_, ?_⟩
        · rw [hlength]
          exact hnear
        · rw [hlength]
      · rw [if_neg hnear]
        exact .inl rfl

/-- **TILES DO NOT CROSS.**  In a row of tiles that rest at least an icon size apart, the lens leaves
    the order along the edge as it is: on both sides of the tile it is on, over the tiles that its
    waves reach, and on to those beyond. -/
theorem aim_ascending (mild : s.Mild) (spaced : Spaced g tiles) : ∃ tiles' magnified,
    aim g s (tiles.map Tile.reset) = .ok (tiles', magnified) ∧
    Tile.identities tiles' = Tile.identities tiles ∧
    (tiles'.map (Tile.heading g.edge)).Pairwise (· < ·) := by
  have hidentities : Tile.identities (tiles.map Tile.reset) = Tile.identities tiles :=
    Row.identities_reset ⟨tiles, 0⟩
  have hresting : ∀ tile ∈ tiles.map Tile.reset, tile.heading g.edge = tile.place g.edge := by
    intro tile hmem
    obtain ⟨tile', -, rfl⟩ := List.mem_map.mp hmem
    rfl
  have hplaces : (tiles.map Tile.reset).map (Tile.place g.edge) = tiles.map (Tile.place g.edge) := by
    rw [List.map_map]
    rfl
  -- wherever the lens leaves the tiles at their places, these are in order
  have hstays : ∀ tiles' : List (Tile ℝ),
      tiles'.map (Tile.heading g.edge) = tiles.map (Tile.place g.edge) →
      (tiles'.map (Tile.heading g.edge)).Pairwise (· < ·) := by
    intro tiles' hheadings
    rw [hheadings]
    exact spaced.ascending.pairwise
  obtain haim | ⟨before, center, after, hsplit, hhit, hnear, haim⟩ :=
    aim_cases g s (tiles.map Tile.reset)
  · exact ⟨_, false, haim, hidentities, hstays _ ((List.map_congr_left hresting).trans hplaces)⟩
  · rw [hsplit] at hidentities hresting hplaces
    refine ⟨_, true, haim, (identities_magnifyAt _ _ _ _ _ _).trans hidentities, ?_⟩
    by_cases hspread : s.spread = 0
    · exact hstays _ ((heading_magnifyAt_pinned hspread hresting).trans hplaces)
    · obtain ⟨hicon, hfactor⟩ := size_pos hhit hnear
      have hfollows : (before ++ center :: after).IsChain (Follows g 1) := by
        have hapart := spaced.apart
        rw [← hplaces, List.isChain_map] at hapart
        refine hapart.imp ?_
        intro tile next hnext
        unfold Follows
        linarith
      exact (magnifyAt_ascending mild (mul_pos hicon hfactor) (spreads_iff.mpr hspread)
        (abs_offset_le hhit) hresting hfollows).pairwise

/-- The lens is on the first of two tiles that touch, and pushes the second one aside. -/
theorem aim_ascending_twoTiles : Spaced onFirst [firstTile, secondTile] ∧ ∃ tiles',
    aim onFirst ⟨1, 1, 1⟩ ([firstTile, secondTile].map Tile.reset) = .ok (tiles', true) ∧
    (tiles'.map (Tile.heading .bottom)).Pairwise (· < ·) := by
  have hspaced : Spaced onFirst [firstTile, secondTile] := by
    have hplaces : [firstTile, secondTile].map (Tile.place onFirst.edge) = [0, 48] := rfl
    have hsize : onFirst.scaledIconSize = 48 := by
      show onFirst.iconSize * 1 = 48
      rw [iconSize_onFirst, mul_one]
    constructor
    · rw [hplaces, List.isChain_pair]
      norm_num
    · rw [hplaces, List.isChain_pair, hsize]
      norm_num
  have hmild : Strengths.Mild ⟨1, 1, 1⟩ := ⟨zero_le_one, le_rfl, zero_le_one, le_rfl⟩
  obtain ⟨tiles', magnified, haim, -, hascending⟩ := aim_ascending hmild hspaced
  have hlens : aim onFirst ⟨1, 1, 1⟩ ([firstTile, secondTile].map Tile.reset) =
      .ok (magnifyAt onFirst ⟨1, 1, 1⟩ (focusOn onFirst 0 firstTile.reset) [] firstTile.reset
        [secondTile.reset], true) := by
    have hfirst : ∀ other ∈ [secondTile.reset],
        pointerDistance onFirst firstTile.reset < pointerDistance onFirst other := by
      intro other hmem
      rw [List.mem_singleton.mp hmem, pointerDistance_onFirst _ rfl, pointerDistance_onFirst _ rfl]
      show |(0 : ℝ)| < |(48 : ℝ)|
      norm_num
    have hnearest : nearest? onFirst ([] ++ firstTile.reset :: [secondTile.reset]) =
        some (focusOn onFirst (0 + 0) firstTile.reset) :=
      nearestFrom_append rfl isNearest_firstTile.hit nofun nofun hfirst
    have hnear : isNear onFirst (focusOn onFirst 0 firstTile.reset) = true := by
      rw [isNear_iff, pointerDistance_onFirst _ rfl, iconSize_onFirst]
      show |(0 : ℝ)| < 48 * 2
      norm_num
    have hmagnify : magnify onFirst ⟨1, 1, 1⟩ (focusOn onFirst 0 firstTile.reset)
        ([] ++ firstTile.reset :: [secondTile.reset]) = _ :=
      magnify_append (focusOn onFirst 0 firstTile.reset) rfl
    rw [if_pos hnear] at hmagnify
    exact (aim_of_nearest? hnearest).trans hmagnify
  obtain ⟨rfl, rfl⟩ := Prod.mk.inj (Except.ok.inj (haim.symm.trans hlens))
  exact ⟨hspaced, _, haim, hascending⟩

end Aim

end Lens

end FisheyeDock
