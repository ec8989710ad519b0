import Mathlib
import FisheyeDock.Demo.Shell
import FisheyeDock.Proofs.Lens.Search
import FisheyeDock.Proofs.Row.Keyed
import FisheyeDock.Proofs.Row.Order
import FisheyeDock.Proofs.Row.Relisting

/-! # A sweep along the dock

    The icons of the shell lie 56 apart on a line, in the order of their keys.  A sweep takes the
    pointer along that line, from 48 before the center of the first icon to 48 beyond that of the last.
    The pointer is always within 60 of a center, so that the lens finds a tile wherever it is, and which
    one it finds goes up with the pointer: every icon is visited, in order. -/

namespace FisheyeDock

namespace Axis

variable {α : Type} [Scalar α] (axis : Axis)

/-- A coordinate of a sum is the sum of coordinates. -/
theorem of_add (p q : Point α) : axis.of (p + q) = axis.of p + axis.of q := by
  cases axis <;> rfl

/-- Along the axis a scaled vector is the product. -/
theorem of_scale_vector (value factor : α) :
    axis.of ((axis.vector value).scale factor) = value * factor := by
  cases axis <;> rfl

/-- Across it there is nothing to scale. -/
theorem across_of_scale_vector (value factor : α) :
    axis.across.of ((axis.vector value).scale factor) = 0.0 * factor := by
  cases axis <;> rfl

theorem of_vector (value : α) : axis.of (axis.vector value) = value := by
  cases axis <;> rfl

theorem across_of_vector (value : α) : axis.across.of (axis.vector value) = 0.0 := by
  cases axis <;> rfl

omit [Scalar α] in
theorem of_splat (value : α) : axis.of (Point.splat value) = value := by
  cases axis <;> rfl

end Axis

namespace Demo

variable {edge : Edge} {count i : Nat}

/-! ## Measures -/

theorem zero_real : (0.0 : ℝ) = 0 := by
  rw [ofScientific_real]
  norm_num

theorem iconSize_real : (iconSize : ℝ) = 48 := by
  unfold iconSize
  rw [ofScientific_real]
  norm_num

theorem iconSpacing_real : (iconSpacing : ℝ) = 8 := by
  unfold iconSpacing
  rw [ofScientific_real]
  norm_num

/-- The icons, each with the gap behind it, less the last gap. -/
theorem dockLength_real (hpos : 0 < count) : (dockLength count : ℝ) = 56 * count - 8 := by
  unfold dockLength
  dsimp only
  rw [iconSize_real, iconSpacing_real, one_real, Nat.max_eq_left hpos]
  show (count : ℝ) * 48 + ((count : ℝ) - 1) * 8 = _
  ring

/-! ## The icons -/

/-- Where the icon with a number lies. -/
noncomputable def cornerOf (edge : Edge) (count i : Nat) : Point ℝ :=
  startCorner edge count +
    (edge.inlineAxis.vector (iconSize + iconSpacing)).scale (Scalar.ofNat i)

/-- Corners lie one spacing apart along the edge. -/
theorem of_cornerOf (edge : Edge) (count i : Nat) :
    edge.inlineAxis.of (cornerOf edge count i) =
      edge.inlineAxis.of (startCorner edge count) + 56 * i := by
  unfold cornerOf
  rw [Axis.of_add, Axis.of_scale_vector, iconSize_real, iconSpacing_real]
  show _ + (48 + 8) * (i : ℝ) = _
  norm_num

theorem across_of_cornerOf (edge : Edge) (count i : Nat) :
    edge.inlineAxis.across.of (cornerOf edge count i) =
      edge.inlineAxis.across.of (startCorner edge count) := by
  unfold cornerOf
  rw [Axis.of_add, Axis.across_of_scale_vector, zero_real, zero_mul, add_zero]

/-- A shell has an icon for each index. -/
theorem icons_new (edge : Edge) (count : Nat) :
    (Shell.new (α := ℝ) edge count).icons = (List.range count).map (icon edge count) := rfl

/-- The key of an icon is its index. -/
theorem keys_icons (edge : Edge) (count : Nat) :
    (Shell.new (α := ℝ) edge count).icons.map Icon.key = (List.range count).map UInt64.ofNat := by
  rw [icons_new, List.map_map]
  rfl

theorem nodup_keys_icons (edge : Edge) (h : count ≤ UInt64.size) :
    ((Shell.new (α := ℝ) edge count).icons.map Icon.key).Nodup := by
  rw [keys_icons]
  refine List.nodup_range.map_on ?_
  intro i hi j hj heq
  have hi' := List.mem_range.mp hi
  have hj' := List.mem_range.mp hj
  rw [← UInt64.toNat_ofNat_of_lt' (hi'.trans_le h), ← UInt64.toNat_ofNat_of_lt' (hj'.trans_le h)]
  exact congrArg UInt64.toNat heq

/-- All icons are shown. -/
theorem shown_icons (edge : Edge) (h : count ≤ UInt64.size) (favoritesOnly : Bool) :
    Icon.shown favoritesOnly (Shell.new (α := ℝ) edge count).icons =
      (Shell.new (α := ℝ) edge count).icons := by
  rw [Icon.shown_of_nodup (nodup_keys_icons edge h), List.filter_eq_self]
  intro shown hshown
  obtain ⟨i, -, rfl⟩ := List.mem_map.mp hshown
  show (!false && (!favoritesOnly || true)) = true
  simp

/-! ## The row -/

/-- Visible tiles on the icons of a shell, in the order of their numbers. -/
structure Stationed (edge : Edge) (count : Nat) (tiles : List (Tile ℝ)) : Prop where
  length : tiles.length = count
  visible : ∀ tile ∈ tiles, tile.visible = true
  fixed : ∀ i tile, tiles[i]? = some tile → tile.fixed = cornerOf edge count i

/-- The tiles of a new shell are stationed. -/
theorem stationed_newTiles (edge : Edge) (count : Nat) :
    Stationed edge count (Row.newTiles 0 (Shell.new edge count).icons) := by
  rw [icons_new]
  obtain ⟨hlength, hnew⟩ := List.forall₂_iff_get.mp
    (Row.isNewOn_newTiles 0 ((List.range count).map (icon (α := ℝ) edge count)))
  rw [List.length_map, List.length_range] at hlength
  refine ⟨hlength.symm, ?_, ?_⟩
  · intro tile htile
    obtain ⟨id, shown, hshown, rfl⟩ := Row.mem_newTiles htile
    obtain ⟨i, -, rfl⟩ := List.mem_map.mp hshown
    rfl
  · intro i tile htile
    obtain ⟨hi, rfl⟩ := List.getElem?_eq_some_iff.mp htile
    have hicon : i < ((List.range count).map (icon (α := ℝ) edge count)).length := by
      rw [List.length_map, List.length_range, hlength]
      exact hi
    have hon := hnew i hicon hi
    rw [List.get_eq_getElem, List.getElem_map, List.getElem_range] at hon
    exact hon.fixed.trans hon.position

namespace Stationed

variable {tiles : List (Tile ℝ)}

/-- A stationed tile lies where its index says. -/
theorem place (h : Stationed edge count tiles) {tile : Tile ℝ} (htile : tiles[i]? = some tile) :
    tile.place edge = edge.inlineAxis.of (startCorner edge count) + 56 * i := by
  unfold Tile.place
  rw [h.fixed i tile htile, of_cornerOf]

/-- The tiles lie one behind the other. -/
theorem ascending (h : Stationed edge count tiles) :
    tiles.Pairwise fun tile other => tile.place edge < other.place edge := by
  rw [List.pairwise_iff_getElem]
  intro i j hi hj hlt
  rw [h.place (List.getElem?_eq_getElem hi), h.place (List.getElem?_eq_getElem hj)]
  have hcast : (i : ℝ) < j := Nat.cast_lt.mpr hlt
  linarith

/-- Stationed tiles are in one line. -/
theorem lined (h : Stationed edge count tiles) :
    Row.Lined edge (edge.perpendicularAxis.of (startCorner edge count)) tiles where
  visible := h.visible
  level := by
    intro tile htile
    obtain ⟨i, hi⟩ := List.getElem?_of_mem htile
    rw [edge.perpendicularAxis_eq_across, h.fixed i tile hi, across_of_cornerOf]
  distinct := List.pairwise_map.mpr (h.ascending.imp ne_of_lt)

/-- Seen from the corner where the dock begins, they are in order. -/
theorem sorted (h : Stationed edge count tiles) :
    Row.sortTiles (startCorner edge count) tiles = tiles := by
  have hnear : ∀ tile ∈ tiles,
      edge.inlineAxis.of (startCorner (α := ℝ) edge count) ≤ tile.place edge := by
    intro tile htile
    obtain ⟨i, hi⟩ := List.getElem?_of_mem htile
    rw [h.place hi]
    have hnonneg : (0 : ℝ) ≤ i := Nat.cast_nonneg i
    linarith
  refine List.Perm.eq_of_pairwise ?_ (h.lined.sortTiles_near rfl hnear) h.ascending
    (Row.sortTiles_perm _ tiles)
  intro tile other _ _ hlt hgt
  exact absurd hlt (lt_asymm hgt)

end Stationed

/-- The row of a shell whose icons have been registered and put in order. -/
noncomputable def registered (shell : Shell ℝ) (favoritesOnly : Bool) (size : ℝ) : Row ℝ :=
  (Row.empty.reconcile shell.icons favoritesOnly size).1.arrange shell.geometry.anchor

/-- The row is made of the icons as they are, since no key occurs twice. -/
theorem tiles_registered (edge : Edge) (h : count ≤ UInt64.size) (favoritesOnly : Bool)
    (size : ℝ) : (registered (Shell.new edge count) favoritesOnly size).tiles =
      Row.newTiles 0 (Shell.new edge count).icons := by
  have hreconcile : (Row.empty.reconcile (Shell.new edge count).icons favoritesOnly size).1.tiles =
      Row.newTiles 0 (Shell.new edge count).icons := by
    rw [Row.reconcile_eq, shown_icons edge h]
    simp [Row.empty, Row.arrivals]
  show Row.sortTiles (startCorner edge count) _ = _
  rw [hreconcile]
  exact (stationed_newTiles edge count).sorted

/-! ## The pointer -/

/-- What the shell tells with the pointer at a part of the way. -/
noncomputable def swept (edge : Edge) (count : Nat) (progress : ℝ) : Geometry ℝ :=
  ((Shell.new edge count).sweep progress).geometry

/-- The length of the way that the pointer goes. -/
def wayLength (count : Nat) : Nat := 56 * count + 40

/-- Where the pointer is along the dock, counted from the center of the first icon. -/
noncomputable def bearing (count : Nat) (progress : ℝ) : ℝ :=
  progress * wayLength count - (48 : Nat)

/-- The pointer comes from one icon before the center of the first icon, and goes to one behind that
    of the last. -/
theorem bearing_eq (count : Nat) (progress : ℝ) :
    bearing count progress = progress * (56 * count + 40) - 48 := by
  unfold bearing wayLength
  push_cast
  rfl

theorem iconSize_swept (edge : Edge) (count : Nat) (progress : ℝ) :
    (swept edge count progress).iconSize = 48 := by
  show evenFloor (iconSize : ℝ) = 48
  unfold evenFloor
  rw [iconSize_real, ofScientific_real]
  show ((⌊(48 : ℝ) / _⌋ : ℤ) : ℝ) * _ = 48
  norm_num

theorem scaledIconSize_swept (edge : Edge) (count : Nat) (progress : ℝ) :
    (swept edge count progress).scaledIconSize = 48 := by
  show (swept edge count progress).iconSize * 1.0 = 48
  rw [iconSize_swept, one_real, mul_one]

/-- A tile is in reach of the pointer up to an icon and a quarter away. -/
theorem reachable_swept_iff {progress : ℝ} {tile : Tile ℝ} :
    Lens.Reachable (swept edge count progress) tile ↔
      tile.visible = true ∧ Lens.pointerDistance (swept edge count progress) tile < 60 := by
  have hradius : (swept edge count progress).iconSize * 1.25 *
      (swept edge count progress).scaleFactor = 60 := by
    show _ * _ * (1.0 : ℝ) = 60
    rw [iconSize_swept, one_real, ofScientific_real]
    norm_num
  rw [← hradius]
  exact ⟨fun h => ⟨h.visible, h.near⟩, fun h => ⟨h.1, h.2⟩⟩

/-- The pointer goes along the line of the centers. -/
theorem pointerDistance_swept (hpos : 0 < count) {tile : Tile ℝ}
    (hfixed : tile.fixed = cornerOf edge count i) (progress : ℝ) :
    Lens.pointerDistance (swept edge count progress) tile = |bearing count progress - 56 * i| := by
  have hpointer : (swept edge count progress).pointer =
      startCorner edge count + Point.splat (iconSize / 2.0) + edge.inlineAxis.vector
        (progress * (dockLength count + iconSize) - iconSize) := rfl
  have hcenter : Lens.restingCenter (swept edge count progress) tile =
      cornerOf edge count i + Point.splat (iconSize / 2.0) := by
    unfold Lens.restingCenter Point.centerOfSquare
    rw [scaledIconSize_swept, hfixed, iconSize_real]
  unfold Lens.pointerDistance
  rw [hpointer, hcenter, @Point.distance_of_level edge.inlineAxis]
  · rw [Axis.of_add, Axis.of_add, Axis.of_add, of_cornerOf, Axis.of_vector, Axis.of_splat,
      dockLength_real hpos, iconSize_real, bearing_eq]
    ring_nf
  · rw [Axis.of_add, Axis.of_add, Axis.of_add, across_of_cornerOf, Axis.across_of_vector, zero_real,
      add_zero]

/-- The pointer goes on as progress does. -/
theorem bearing_mono (count : Nat) {progress later : ℝ} (h : progress ≤ later) :
    bearing count progress ≤ bearing count later := by
  have hspan : (0 : ℝ) ≤ 56 * count + 40 := by positivity
  have hmul := mul_le_mul_of_nonneg_right h hspan
  rw [bearing_eq, bearing_eq]
  linarith

/-- At first the pointer is an icon before the center of the first tile. -/
theorem bearing_zero (count : Nat) : bearing count 0 = -48 := by
  rw [bearing_eq]
  ring

/-- At last it is an icon behind the center of the last one. -/
theorem bearing_one (count : Nat) : bearing count 1 = 56 * count - 8 := by
  rw [bearing_eq]
  ring

/-- The pointer is always near the center of an icon. -/
theorem exists_near (hpos : 0 < count) {progress : ℝ} (hlow : 0 ≤ progress) (hhigh : progress ≤ 1) :
    ∃ i < count, |bearing count progress - 56 * i| < 60 := by
  have hleast := bearing_mono count hlow
  have hmost := bearing_mono count hhigh
  rw [bearing_zero] at hleast
  rw [bearing_one] at hmost
  generalize bearing count progress = place at hleast hmost
  by_cases hbefore : place < 0
  · refine ⟨0, hpos, ?_⟩
    rw [Nat.cast_zero, mul_zero, sub_zero, abs_of_neg hbefore]
    linarith
  -- beyond the first center, the last icon that the pointer has reached
  · have hquotient : 0 ≤ place / 56 := by linarith
    refine ⟨⌊place / 56⌋₊, ?_, ?_⟩
    · rw [Nat.floor_lt hquotient]
      linarith
    · have hfloor := Nat.floor_le hquotient
      have hceil := Nat.lt_floor_add_one (place / 56)
      rw [abs_of_nonneg (by linarith)]
      linarith

/-! ## The way of the lens -/

/-- The number of the tile that the lens finds with the pointer at a part of the way. -/
noncomputable def visited (edge : Edge) (count : Nat) (favoritesOnly : Bool) (size progress : ℝ) :
    Option Nat :=
  let shell := Shell.new edge count
  (Lens.nearest? (shell.sweep progress).geometry (registered shell favoritesOnly size).tiles).map
    Focus.index

namespace Stationed

variable {tiles : List (Tile ℝ)} {progress : ℝ} {focus : Focus ℝ}

/-- At every progress some tile is in reach of the pointer. -/
theorem exists_nearest? (h : Stationed edge count tiles) (hpos : 0 < count) (hlow : 0 ≤ progress)
    (hhigh : progress ≤ 1) : ∃ focus, Lens.nearest? (swept edge count progress) tiles = some focus := by
  obtain ⟨i, hi, hnear⟩ := exists_near hpos hlow hhigh
  rw [← h.length] at hi
  have htile := List.getElem?_eq_getElem hi
  rw [← Option.ne_none_iff_exists', ne_eq, Lens.nearest?_eq_none_iff]
  intro hnone
  refine hnone _ (List.getElem_mem hi) (reachable_swept_iff.mpr ⟨h.visible _ (List.getElem_mem hi), ?_⟩)
  rw [pointerDistance_swept hpos (h.fixed i _ htile)]
  exact hnear

/-- What is found is nearer than what comes before it, and as near as what comes behind. -/
theorem leads (hfound : Lens.nearest? (swept edge count progress) tiles = some focus) :
    Lens.Leads (swept edge count progress) tiles focus := by
  have hknows := Lens.nearest?_knows (swept edge count progress) tiles
  rw [hfound] at hknows
  exact hknows

theorem distance_eq (h : Stationed edge count tiles) (hpos : 0 < count)
    (hfound : Lens.nearest? (swept edge count progress) tiles = some focus) :
    focus.distance = |bearing count progress - 56 * focus.index| := by
  obtain ⟨tile, htile, -, hfocus⟩ := (leads hfound).tile
  rw [← pointerDistance_swept hpos (h.fixed _ tile htile) progress]
  exact congrArg Focus.distance hfocus

/-- The tile found is the nearest, -/
theorem nearest_le (h : Stationed edge count tiles) (hpos : 0 < count)
    (hfound : Lens.nearest? (swept edge count progress) tiles = some focus) (hi : i < count) :
    |bearing count progress - 56 * focus.index| ≤ |bearing count progress - 56 * i| := by
  rw [← h.length] at hi
  have htile := List.getElem?_eq_getElem hi
  have hmem := List.getElem_mem hi
  rw [← h.distance_eq hpos hfound, ← pointerDistance_swept hpos (h.fixed i _ htile) progress]
  exact (leads hfound).le_of_visible hmem (h.visible _ hmem) rfl

/-- and those before it are farther. -/
theorem nearest_lt (h : Stationed edge count tiles) (hpos : 0 < count)
    (hfound : Lens.nearest? (swept edge count progress) tiles = some focus) (hi : i < focus.index) :
    |bearing count progress - 56 * focus.index| < |bearing count progress - 56 * i| := by
  have htile := List.getElem?_eq_getElem (hi.trans (Lens.index_lt_of_nearest? hfound))
  have hmem := List.mem_of_getElem? htile
  rw [← h.distance_eq hpos hfound, ← pointerDistance_swept hpos (h.fixed i _ htile) progress]
  exact (leads hfound).lt_of_visible hi htile (h.visible _ hmem) rfl

/-- What is found is one of the tiles. -/
theorem index_lt (h : Stationed edge count tiles)
    (hfound : Lens.nearest? (swept edge count progress) tiles = some focus) :
    focus.index < count := by
  rw [← h.length]
  exact Lens.index_lt_of_nearest? hfound

/-- The lens follows the pointer: of two tiles, the later one is found where the pointer has come
    past the middle between them. -/
theorem index_mono (h : Stationed edge count tiles) (hpos : 0 < count) {later : ℝ} {focus' : Focus ℝ}
    (hle : progress ≤ later)
    (hfound : Lens.nearest? (swept edge count progress) tiles = some focus)
    (hfound' : Lens.nearest? (swept edge count later) tiles = some focus') :
    focus.index ≤ focus'.index := by
  by_contra hback
  have hlt : focus'.index < focus.index := Nat.lt_of_not_le hback
  have hcast : (focus'.index : ℝ) < focus.index := Nat.cast_lt.mpr hlt
  have hpast := sq_lt_sq.mpr (h.nearest_lt hpos hfound hlt)
  have hbefore := sq_le_sq.mpr (h.nearest_le hpos hfound' (h.index_lt hfound))
  have hbearing := bearing_mono count hle
  nlinarith

/-- At the center of an icon, the lens is on its tile. -/
theorem index_of_center (h : Stationed edge count tiles) (hpos : 0 < count) (hi : i < count)
    (hcenter : bearing count progress = 56 * i)
    (hfound : Lens.nearest? (swept edge count progress) tiles = some focus) : focus.index = i := by
  have hle := h.nearest_le hpos hfound hi
  rw [hcenter, sub_self, abs_zero, abs_nonpos_iff] at hle
  have hcast : (focus.index : ℝ) = i := by linarith
  exact_mod_cast hcast

/-- At first the first tile is nearest. -/
theorem index_of_start (h : Stationed edge count tiles) (hpos : 0 < count)
    (hfound : Lens.nearest? (swept edge count 0) tiles = some focus) : focus.index = 0 := by
  have hle := h.nearest_le hpos hfound hpos
  rw [bearing_zero, Nat.cast_zero, mul_zero, sub_zero] at hle
  have hnonneg : (0 : ℝ) ≤ focus.index := Nat.cast_nonneg _
  rw [abs_of_neg (by linarith), abs_of_neg (by linarith)] at hle
  have hcast : (focus.index : ℝ) ≤ 0 := by linarith
  exact Nat.le_zero.mp (by exact_mod_cast hcast)

/-- At last the last one is. -/
theorem index_of_end (h : Stationed edge count tiles) (hpos : 0 < count)
    (hfound : Lens.nearest? (swept edge count 1) tiles = some focus) : focus.index = count - 1 := by
  have hlt := h.index_lt hfound
  have hle := h.nearest_le hpos hfound (Nat.sub_lt hpos Nat.one_pos)
  have hcast : (focus.index : ℝ) + 1 ≤ count := by exact_mod_cast hlt
  rw [bearing_one, Nat.cast_pred hpos, abs_of_pos (by linarith), abs_of_pos (by linarith)] at hle
  have hlast : (count : ℝ) ≤ focus.index + 1 := by linarith
  have hlast' : count ≤ focus.index + 1 := by exact_mod_cast hlast
  omega

end Stationed

/-- The part of the way at which the pointer is at the center of an icon. -/
noncomputable def centerAt (count i : Nat) : ℝ := (56 * i + 48 : Nat) / wayLength count

/-- The progress at which the pointer is on the center of an icon. -/
theorem centerAt_eq (count i : Nat) : centerAt count i = (56 * i + 48) / (56 * count + 40) := by
  unfold centerAt wayLength
  push_cast
  rfl

theorem bearing_centerAt (count i : Nat) : bearing count (centerAt count i) = 56 * i := by
  have hspan : (56 * count + 40 : ℝ) ≠ 0 := by positivity
  rw [bearing_eq, centerAt_eq]
  rw [div_mul_cancel₀ _ hspan]
  ring

theorem centerAt_mem (hi : i < count) : 0 ≤ centerAt count i ∧ centerAt count i ≤ 1 := by
  have hcast : (i : ℝ) + 1 ≤ count := by exact_mod_cast hi
  rw [centerAt_eq]
  refine ⟨by positivity, ?_⟩
  rw [div_le_one (by positivity)]
  linarith

/-- The registered row is stationed. -/
theorem stationed_registered (edge : Edge) (hcount : count ≤ UInt64.size) (favoritesOnly : Bool)
    (size : ℝ) :
    Stationed edge count (registered (Shell.new edge count) favoritesOnly size).tiles := by
  rw [tiles_registered edge hcount]
  exact stationed_newTiles edge count

/-- What is visited is what is found nearest. -/
theorem visited_eq_some_iff {favoritesOnly : Bool} {size progress : ℝ} :
    visited edge count favoritesOnly size progress = some i ↔
      ∃ focus, Lens.nearest? (swept edge count progress)
        (registered (Shell.new edge count) favoritesOnly size).tiles = some focus ∧
        focus.index = i :=
  Option.map_eq_some_iff

/-- At every progress some icon is visited. -/
theorem exists_visited (edge : Edge) (hpos : 0 < count) (hcount : count ≤ UInt64.size)
    (favoritesOnly : Bool) (size : ℝ) {progress : ℝ} (hlow : 0 ≤ progress) (hhigh : progress ≤ 1) :
    ∃ focus, Lens.nearest? (swept edge count progress)
        (registered (Shell.new edge count) favoritesOnly size).tiles = some focus ∧
      visited edge count favoritesOnly size progress = some focus.index := by
  have hstationed := stationed_registered edge hcount favoritesOnly size
  obtain ⟨focus, hfound⟩ := hstationed.exists_nearest? hpos hlow hhigh
  exact ⟨focus, hfound, visited_eq_some_iff.mpr ⟨focus, hfound, rfl⟩⟩

/-- **A SWEEP VISITS EVERY ICON IN ORDER.**  The registered icons of a shell are in the order of their
    keys.  Wherever the pointer is on its way, the lens finds a tile: the first one at the start, the
    last one at the end, none before one that it has found already, and every one at some point. -/
theorem sweep_visitsAll (edge : Edge) (hpos : 0 < count) (hcount : count ≤ UInt64.size)
    (favoritesOnly : Bool) (size : ℝ) :
    (registered (Shell.new edge count) favoritesOnly size).tiles.map Tile.key =
        (List.range count).map UInt64.ofNat ∧
      (∀ progress, 0 ≤ progress → progress ≤ 1 →
        ∃ i < count, visited edge count favoritesOnly size progress = some i) ∧
      visited edge count favoritesOnly size 0 = some 0 ∧
      visited edge count favoritesOnly size 1 = some (count - 1) ∧
      (∀ progress later i j, 0 ≤ progress → progress ≤ later → later ≤ 1 →
        visited edge count favoritesOnly size progress = some i →
        visited edge count favoritesOnly size later = some j → i ≤ j) ∧
      ∀ i < count, ∃ progress, 0 ≤ progress ∧ progress ≤ 1 ∧
        visited edge count favoritesOnly size progress = some i := by
  have hstationed := stationed_registered edge hcount favoritesOnly size
  have hfinds := @exists_visited count edge hpos hcount favoritesOnly size
  refine ⟨?_, ?_, ?_, ?_, ?_, ?_⟩
  · rw [tiles_registered edge hcount, Row.keys_newTiles, keys_icons]
  · intro progress hlow hhigh
    obtain ⟨focus, hfound, hvisited⟩ := hfinds hlow hhigh
    exact ⟨focus.index, hstationed.index_lt hfound, hvisited⟩
  · obtain ⟨focus, hfound, hvisited⟩ := hfinds le_rfl zero_le_one
    rw [hvisited, hstationed.index_of_start hpos hfound]
  · obtain ⟨focus, hfound, hvisited⟩ := hfinds zero_le_one le_rfl
    rw [hvisited, hstationed.index_of_end hpos hfound]
  · intro progress later i j _ hle _ hi hj
    obtain ⟨focus, hfound, rfl⟩ := visited_eq_some_iff.mp hi
    obtain ⟨focus', hfound', rfl⟩ := visited_eq_some_iff.mp hj
    exact hstationed.index_mono hpos hle hfound hfound'
  · intro i hi
    obtain ⟨hlow, hhigh⟩ := centerAt_mem hi
    refine ⟨centerAt count i, hlow, hhigh, ?_⟩
    obtain ⟨focus, hfound, hvisited⟩ := hfinds hlow hhigh
    rw [hvisited, hstationed.index_of_center hpos hi (bearing_centerAt count i) hfound]

/-- Of three icons on the left edge, the second one is found at some point. -/
theorem sweep_visitsAll_three : 0 < 3 ∧ 3 ≤ UInt64.size ∧
    (registered (Shell.new .left 3) false 48).tiles.map Tile.key = [0, 1, 2] ∧
    visited .left 3 false 48 1 = some 2 ∧
    ∃ progress, 0 ≤ progress ∧ progress ≤ 1 ∧ visited .left 3 false 48 progress = some 1 := by
  obtain ⟨hkeys, -, -, hend, -, hevery⟩ :=
    sweep_visitsAll .left (show 0 < 3 by decide) (by decide) false 48
  exact ⟨by decide, by decide, hkeys, hend, hevery 1 (by decide)⟩

end Demo

end FisheyeDock
