import Mathlib.Analysis.Real.Sqrt
import FisheyeDock.Proofs.Row.Sorting

/-! # The order of a row

    Tiles are put in the order of their distance from the anchor.  For tiles on one line and an
    anchor at an end of it, that is the order in which they lie, counted from that end.  So the two
    ends give one order and its reverse (`Lined.sortTiles_reverse`). -/

namespace FisheyeDock

/-- Where a tile rests along the edge. -/
def Tile.place (edge : Edge) (tile : Tile ℝ) : ℝ := edge.inlineAxis.of tile.fixed

namespace Row

/-! ## Tiles on a line -/

/-- Visible tiles on one line along the edge, no two of them at one place. -/
structure Lined (edge : Edge) (level : ℝ) (tiles : List (Tile ℝ)) : Prop where
  visible : ∀ tile ∈ tiles, tile.visible = true
  level : ∀ tile ∈ tiles, edge.perpendicularAxis.of tile.fixed = level
  distinct : (tiles.map (Tile.place edge)).Nodup

namespace Lined

variable {edge : Edge} {level : ℝ} {tiles : List (Tile ℝ)} {anchor near far : Point ℝ}

/-- On the line, a tile is as far as its place is from that of the anchor. -/
theorem reach_eq (h : Lined edge level tiles) (hlevel : edge.perpendicularAxis.of anchor = level)
    {tile : Tile ℝ} (htile : tile ∈ tiles) :
    reach anchor tile = .at |edge.inlineAxis.of anchor - tile.place edge| := by
  have hline : edge.inlineAxis.across.of anchor = edge.inlineAxis.across.of tile.fixed := by
    rw [← edge.perpendicularAxis_eq_across, hlevel, h.level tile htile]
  unfold reach Tile.place
  rw [h.visible tile htile, Point.distance_of_level hline]
  rfl

/-- In a sorted row on a line, no tile is farther from the anchor than the next. -/
theorem pairwise_abs_le (h : Lined edge level tiles)
    (hlevel : edge.perpendicularAxis.of anchor = level) :
    (sortTiles anchor tiles).Pairwise fun tile other =>
      |edge.inlineAxis.of anchor - tile.place edge| ≤
        |edge.inlineAxis.of anchor - other.place edge| := by
  refine (pairwise_sortTiles anchor false tiles).imp_of_mem ?_
  intro tile other htile hother hle
  have hperm := sortTiles_perm anchor tiles
  rw [h.reach_eq hlevel (hperm.mem_iff.mp htile), h.reach_eq hlevel (hperm.mem_iff.mp hother)]
    at hle
  exact of_decide_eq_true hle

/-- No two tiles of a sorted row are at the same place. -/
theorem pairwise_ne (h : Lined edge level tiles) : (sortTiles anchor tiles).Pairwise
    fun tile other => tile.place edge ≠ other.place edge := by
  have hnodup := ((sortTiles_perm anchor tiles).map (Tile.place edge)).nodup_iff.mpr h.distinct
  exact List.pairwise_map.mp hnodup

/-- From the near end, the row is sorted by place. -/
theorem sortTiles_near (h : Lined edge level tiles)
    (hlevel : edge.perpendicularAxis.of near = level)
    (hnear : ∀ tile ∈ tiles, edge.inlineAxis.of near ≤ tile.place edge) :
    (sortTiles near tiles).Pairwise fun tile other => tile.place edge < other.place edge := by
  refine ((h.pairwise_abs_le hlevel).and h.pairwise_ne).imp_of_mem ?_
  rintro tile other htile hother ⟨hle, hne⟩
  have hperm := sortTiles_perm near tiles
  have htile' := hnear tile (hperm.mem_iff.mp htile)
  have hother' := hnear other (hperm.mem_iff.mp hother)
  rw [abs_of_nonpos (by linarith), abs_of_nonpos (by linarith)] at hle
  exact lt_of_le_of_ne (by linarith) hne

/-- From the far end, it is sorted the other way round. -/
theorem sortTiles_far (h : Lined edge level tiles)
    (hlevel : edge.perpendicularAxis.of far = level)
    (hfar : ∀ tile ∈ tiles, tile.place edge ≤ edge.inlineAxis.of far) :
    (sortTiles far tiles).Pairwise fun tile other => other.place edge < tile.place edge := by
  refine ((h.pairwise_abs_le hlevel).and h.pairwise_ne).imp_of_mem ?_
  rintro tile other htile hother ⟨hle, hne⟩
  have hperm := sortTiles_perm far tiles
  have htile' := hfar tile (hperm.mem_iff.mp htile)
  have hother' := hfar other (hperm.mem_iff.mp hother)
  rw [abs_of_nonneg (by linarith), abs_of_nonneg (by linarith)] at hle
  exact lt_of_le_of_ne (by linarith) (Ne.symm hne)

/-- The two ends give one order and its reverse. -/
theorem sortTiles_reverse (h : Lined edge level tiles)
    (hlevel : edge.perpendicularAxis.of near = level)
    (hlevel' : edge.perpendicularAxis.of far = level)
    (hnear : ∀ tile ∈ tiles, edge.inlineAxis.of near ≤ tile.place edge)
    (hfar : ∀ tile ∈ tiles, tile.place edge ≤ edge.inlineAxis.of far) :
    sortTiles far tiles = (sortTiles near tiles).reverse := by
  have hascending := h.sortTiles_near hlevel hnear
  have hdescending := List.pairwise_reverse.mpr hascending
  have hperm : (sortTiles far tiles).Perm (sortTiles near tiles).reverse :=
    ((sortTiles_perm far tiles).trans (sortTiles_perm near tiles).symm).trans
      (List.reverse_perm _).symm
  refine List.Perm.eq_of_pairwise ?_ (h.sortTiles_far hlevel' hfar) hdescending hperm
  intro tile other _ _ hlt hgt
  exact absurd hlt (lt_asymm hgt)

end Lined

end Row

end FisheyeDock
