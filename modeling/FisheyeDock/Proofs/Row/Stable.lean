import FisheyeDock.Proofs.Row.Sorting
import FisheyeDock.Proofs.Scalar.Comparison
import FisheyeDock.Proofs.Scalar.Signs

/-! # What sorting keeps

    Sorting is stable: tiles that are equally far stay in the order in which they were
    (`filter_sortTiles`).  That decides where tiles go that are not visible.  They count as
    infinitely far, and so does a visible tile whose distance is too large for a double, so that the
    two keep their order; and from an anchor without coordinates no visible tile can be measured, so
    that a sign decides whether they come first or last (`sortTiles_arranged`). -/

namespace FisheyeDock

namespace Row

/-! ## Stability -/

section Stability

variable {α : Type} [Scalar α] {anchor : Point α} {negative : Bool} {tiles : List (Tile α)}
variable {p : Tile α → Bool}

/-- An entry is put before those that are not nearer, so that it stays before those that are equally
    far. -/
theorem filter_insertByReach {entry : Reach α × Tile α} {entries : List (Reach α × Tile α)}
    (h : p entry.2 = true → ∀ other ∈ entries, p other.2 = true → entry.1.le other.1 = true) :
    (insertByReach entry entries).filter (p ·.2) = (entry :: entries).filter (p ·.2) := by
  induction entries with
  | nil => rfl
  | cons next rest ih =>
      have hrest := ih fun hentry other hother => h hentry other (List.mem_cons_of_mem _ hother)
      unfold insertByReach
      split
      · rfl
      · next hnot =>
          rw [List.filter_cons, hrest]
          by_cases hentry : p entry.2 = true
          -- the next entry is nearer, and so not one of those that are kept
          · have hnext : ¬ p next.2 = true := fun hnext =>
              hnot (h hentry next List.mem_cons_self hnext)
            simp [hentry, hnext]
          · simp [List.filter_cons, hentry]

/-- **SORTING IS STABLE.** -/
theorem filter_sortTiles (h : ∀ tile ∈ tiles, ∀ other ∈ tiles, p tile = true → p other = true →
    (reach anchor tile negative).le (reach anchor other negative) = true) :
    (sortTiles anchor tiles negative).filter p = tiles.filter p := by
  have hentries : (sortedEntries anchor negative tiles).filter (p ·.2) =
      (tiles.map fun tile => (reach anchor tile negative, tile)).filter (p ·.2) := by
    induction tiles with
    | nil => rfl
    | cons tile rest ih =>
        have hrest := ih fun one hone other hother =>
          h one (List.mem_cons_of_mem _ hone) other (List.mem_cons_of_mem _ hother)
        show (insertByReach (reach anchor tile negative, tile)
          (sortedEntries anchor negative rest)).filter _ = _
        rw [filter_insertByReach, List.map_cons, List.filter_cons, List.filter_cons, hrest]
        intro hentry other hother hp
        have hmem : other.2 ∈ rest := by
          obtain ⟨next, hnext, rfl⟩ :=
            List.mem_map.mp ((sortedEntries_perm anchor negative rest).mem_iff.mp hother)
          exact hnext
        rw [reach_of_mem_sortedEntries hother]
        exact h tile List.mem_cons_self other.2 (List.mem_cons_of_mem _ hmem) hentry hp
  show ((sortedEntries anchor negative tiles).map (·.2)).filter p = _
  rw [List.filter_map]
  show ((sortedEntries anchor negative tiles).filter (p ·.2)).map (·.2) = _
  rw [hentries, List.filter_map, List.map_map]
  exact List.map_id _

end Stability

/-! ## The reach of a tile -/

section Doubles

variable {anchor : Point Float} {negative : Bool} {tiles : List (Tile Float)}
variable {tile other : Tile Float}

/-- A point with both coordinates, infinite ones among them. -/
def IsPlaced (p : Point Float) : Prop := p.x.isNaN = false ∧ p.y.isNaN = false

/-- A point is placed nowhere exactly if one coordinate is not a number. -/
theorem not_isPlaced_iff {p : Point Float} :
    ¬ IsPlaced p ↔ p.x.isNaN = true ∨ p.y.isNaN = true := by
  unfold IsPlaced
  cases p.x.isNaN <;> cases p.y.isNaN <;> decide

/-- How far a tile counts: one that is not visible is infinitely far. -/
def remoteness (anchor : Point Float) (tile : Tile Float) : Float :=
  if tile.visible then Point.distance anchor tile.fixed else 1.0 / 0.0

/-- A visible tile is as remote as its place is from the anchor. -/
theorem remoteness_of_visible (h : tile.visible = true) :
    remoteness anchor tile = Point.distance anchor tile.fixed := if_pos h

/-- A tile that is not visible is infinitely remote. -/
theorem remoteness_of_invisible (h : tile.visible = false) :
    remoteness anchor tile = 1.0 / 0.0 := by
  rw [remoteness, h]
  rfl

/-- A place too far away for its distance is beyond all reach. -/
theorem reach_of_far (hplaced : IsPlaced anchor) (hfixed : tile.fixed.isFinite = true)
    (hfar : (Point.distance anchor tile.fixed).isFinite = false) :
    reach anchor tile negative = .beyond := by
  obtain ⟨hx, hy⟩ := Bool.and_eq_true_iff.mp hfixed
  have hdx : Scalar.isUndefined (anchor.x - tile.fixed.x) = false :=
    (Double.isNaN_sub hx).trans hplaced.1
  have hdy : Scalar.isUndefined (anchor.y - tile.fixed.y) = false :=
    (Double.isNaN_sub hy).trans hplaced.2
  have hfar' : Scalar.isFinite (Point.distance anchor tile.fixed) = false := hfar
  unfold reach
  dsimp only
  rw [hfar', hdx, hdy]
  cases tile.visible <;> rfl

/-- From an anchor without a place nothing can be measured. -/
theorem reach_of_unplaced (hplaced : ¬ IsPlaced anchor) (hfixed : tile.fixed.isFinite = true)
    (hvisible : tile.visible = true) : reach anchor tile negative = .unmeasured negative := by
  have hor := not_isPlaced_iff.mp hplaced
  obtain ⟨hx, hy⟩ := Bool.and_eq_true_iff.mp hfixed
  have hfar : Scalar.isFinite (Point.distance anchor tile.fixed) = false :=
    Double.isFinite_of_isNaN (Double.isNaN_distance hfixed hor)
  have hdx : Scalar.isUndefined (anchor.x - tile.fixed.x) = anchor.x.isNaN := Double.isNaN_sub hx
  have hdy : Scalar.isUndefined (anchor.y - tile.fixed.y) = anchor.y.isNaN := Double.isNaN_sub hy
  have hax : Scalar.isUndefined anchor.x = anchor.x.isNaN := rfl
  have hay : Scalar.isUndefined anchor.y = anchor.y.isNaN := rfl
  unfold reach
  dsimp only
  rw [hvisible, hfar, hdx, hdy, hax, hay]
  -- the sign is that of the coordinate, be it on one axis or the other
  rcases hor with h | h <;> rw [h] <;> cases anchor.x.isNaN <;> cases negative <;> rfl

/-- A visible tile at a finite distance. -/
def isClose (anchor : Point Float) (tile : Tile Float) : Bool :=
  tile.visible && (Point.distance anchor tile.fixed).isFinite

/-- A tile that has a place to rest, if it is visible. -/
def IsLaid (tile : Tile Float) : Prop := tile.visible = true → tile.fixed.isFinite = true

/-- What is close is reached at its distance. -/
theorem reach_of_close (h : isClose anchor tile = true) :
    reach anchor tile negative = .at (remoteness anchor tile) := by
  obtain ⟨hvisible, hfinite⟩ := Bool.and_eq_true_iff.mp h
  rw [remoteness_of_visible hvisible]
  exact reach_of_visible hvisible hfinite

theorem isFinite_of_close (h : isClose anchor tile = true) :
    (remoteness anchor tile).isFinite = true := by
  obtain ⟨hvisible, hfinite⟩ := Bool.and_eq_true_iff.mp h
  rw [remoteness_of_visible hvisible]
  exact hfinite

/-- What is visible and not close is too far away. -/
theorem far_of_not_close (h : isClose anchor tile = false) (hvisible : tile.visible = true) :
    (Point.distance anchor tile.fixed).isFinite = false := by
  rwa [isClose, hvisible, Bool.true_and] at h

/-- From an anchor with a place remoteness is a number, for what is laid out. -/
theorem isNaN_remoteness (hplaced : IsPlaced anchor) (hlaid : IsLaid tile) :
    (remoteness anchor tile).isNaN = false := by
  cases hvisible : tile.visible with
  | true =>
      rw [remoteness_of_visible hvisible]
      exact (Double.unsigned_distance (hlaid hvisible) hplaced.1 hplaced.2).isNaN
  | false =>
      rw [remoteness_of_invisible hvisible]
      decide

/-- From an anchor with coordinates, all other tiles are beyond. -/
theorem reach_of_not_close (hplaced : IsPlaced anchor) (hlaid : IsLaid tile)
    (h : isClose anchor tile = false) : reach anchor tile negative = .beyond := by
  cases hvisible : tile.visible with
  | true => exact reach_of_far hplaced (hlaid hvisible) (far_of_not_close h hvisible)
  | false => exact reach_of_invisible hvisible

/-- They are infinitely far. -/
theorem remoteness_of_not_close (hplaced : IsPlaced anchor) (hlaid : IsLaid tile)
    (h : isClose anchor tile = false) :
    (remoteness anchor tile).toModel.unpack = .infinity .positive := by
  cases hvisible : tile.visible with
  | true =>
      rw [remoteness_of_visible hvisible]
      exact (Double.unsigned_distance (hlaid hvisible) hplaced.1 hplaced.2).eq_infinity
        (far_of_not_close h hvisible)
  | false =>
      rw [remoteness_of_invisible hvisible]
      rfl

/-- What comes first in reach is no more remote. -/
theorem remoteness_le (hplaced : IsPlaced anchor) (htile : IsLaid tile) (hother : IsLaid other)
    (hle : (reach anchor tile negative).le (reach anchor other negative) = true) :
    remoteness anchor tile ≤ remoteness anchor other := by
  cases hclose : isClose anchor other with
  | false =>
      exact Double.le_of_infinity (isNaN_remoteness hplaced htile)
        (remoteness_of_not_close hplaced hother hclose)
  | true =>
      rw [reach_of_close hclose] at hle
      cases hclose' : isClose anchor tile with
      | true =>
          rw [reach_of_close hclose'] at hle
          exact of_decide_eq_true hle
      | false =>
          rw [reach_of_not_close hplaced htile hclose'] at hle
          exact nomatch hle

/-- From an anchor without a place remoteness is a number for what is not visible only. -/
theorem isNaN_remoteness_of_unplaced (hplaced : ¬ IsPlaced anchor) (hlaid : IsLaid tile) :
    (remoteness anchor tile).isNaN = tile.visible := by
  cases hvisible : tile.visible with
  | true =>
      rw [remoteness_of_visible hvisible]
      exact Double.isNaN_distance (hlaid hvisible) (not_isPlaced_iff.mp hplaced)
  | false =>
      rw [remoteness_of_invisible hvisible]
      decide

theorem isFinite_remoteness (hplaced : IsPlaced anchor) (hlaid : IsLaid tile) :
    (remoteness anchor tile).isFinite = isClose anchor tile := by
  cases hclose : isClose anchor tile with
  | true => exact isFinite_of_close hclose
  | false =>
      show (remoteness anchor tile).toModel.unpack.isFinite = false
      rw [remoteness_of_not_close hplaced hlaid hclose]
      rfl

/-- Of two tiles that are equally remote, none is put before the other. -/
theorem le_of_remoteness_eq (htile : IsLaid tile) (hother : IsLaid other)
    (heq : remoteness anchor tile = remoteness anchor other) :
    (reach anchor tile negative).le (reach anchor other negative) = true := by
  by_cases hplaced : IsPlaced anchor
  · have hsame : isClose anchor tile = isClose anchor other := by
      rw [← isFinite_remoteness hplaced htile, heq, isFinite_remoteness hplaced hother]
    cases hclose : isClose anchor other with
    | true =>
        rw [reach_of_close (hsame.trans hclose), reach_of_close hclose, heq]
        exact decide_eq_true (ComparableScalar.le_refl (isNaN_remoteness hplaced hother))
    | false =>
        rw [reach_of_not_close hplaced htile (hsame.trans hclose),
          reach_of_not_close hplaced hother hclose]
        rfl
  · have hsame : tile.visible = other.visible := by
      rw [← isNaN_remoteness_of_unplaced hplaced htile, heq,
        isNaN_remoteness_of_unplaced hplaced hother]
    cases hvisible : other.visible with
    | true =>
        rw [reach_of_unplaced hplaced (htile (hsame.trans hvisible)) (hsame.trans hvisible),
          reach_of_unplaced hplaced (hother hvisible) hvisible]
        exact decide_eq_true le_rfl
    | false =>
        rw [reach_of_invisible (hsame.trans hvisible), reach_of_invisible hvisible]
        rfl

/-! ## The sorted row -/

/-- No tile that is not visible comes before one that is. -/
def VisibleFirst (tiles : List (Tile Float)) : Prop :=
  tiles.Pairwise fun tile other => other.visible = true → tile.visible = true

/-- How the tiles of a row lie that has been put in order. -/
structure Arranged (anchor : Point Float) (negative : Bool) (tiles sorted : List (Tile Float)) :
    Prop where
  perm : sorted.Perm tiles
  /-- The nearer ones come first, -/
  ascending : IsPlaced anchor →
    sorted.Pairwise fun tile other => remoteness anchor tile ≤ remoteness anchor other
  /-- and those that are equally remote are in the order in which they were. -/
  stable : ∀ key, sorted.filter (remoteness anchor · = key) =
    tiles.filter (remoteness anchor · = key)
  /-- The visible ones come before the others, just if each that was behind one of those is at a
  finite distance. -/
  visibleFirst_iff : IsPlaced anchor → (VisibleFirst sorted ↔
    tiles.Pairwise fun tile other => tile.visible = false → other.visible = true →
      (Point.distance anchor other.fixed).isFinite = true)
  /-- From an anchor without coordinates they come all before the others if the sign of what it lacks
  is negative, and all behind them if it is not. -/
  unplaced : ¬ IsPlaced anchor → sorted =
    if negative then Tile.seen tiles ++ Tile.unseen tiles else Tile.unseen tiles ++ Tile.seen tiles

/-- Visible tiles come first exactly if no tile that is too far away comes behind one that is not
    visible. -/
theorem visibleFirst_sortTiles_iff (hplaced : IsPlaced anchor)
    (hlaid : ∀ tile ∈ tiles, IsLaid tile) :
    VisibleFirst (sortTiles anchor tiles negative) ↔
      tiles.Pairwise fun tile other => tile.visible = false → other.visible = true →
        (Point.distance anchor other.fixed).isFinite = true := by
  -- what is not close keeps its order
  have hkept : (sortTiles anchor tiles negative).filter (!isClose anchor ·) =
      tiles.filter (!isClose anchor ·) := by
    refine filter_sortTiles fun tile htile other hother hfar hfar' => ?_
    rw [Bool.not_eq_true'] at hfar hfar'
    rw [reach_of_not_close hplaced (hlaid tile htile) hfar,
      reach_of_not_close hplaced (hlaid other hother) hfar']
    rfl
  have hfar : ∀ {tile : Tile Float}, tile.visible = false → (!isClose anchor tile) = true := by
    intro tile hvisible
    rw [isClose, hvisible]
    rfl
  constructor
  · intro hfirst
    have hothers := hfirst.filter (!isClose anchor ·)
    rw [hkept, List.pairwise_filter] at hothers
    refine hothers.imp fun {tile other} himp hinvisible hvisible => ?_
    by_contra hinfinite
    have hclose : (!isClose anchor other) = true := by
      rw [isClose, hvisible, Bool.eq_false_iff.mpr hinfinite]
      rfl
    rw [himp (hfar hinvisible) hclose hvisible] at hinvisible
    exact nomatch hinvisible
  · intro hpairs
    have hothers := hpairs.filter (!isClose anchor ·)
    rw [← hkept, List.pairwise_filter] at hothers
    refine (hothers.and (pairwise_sortTiles anchor negative tiles)).imp_of_mem ?_
    rintro tile other htile hother ⟨himp, hle⟩ hvisible
    by_contra hinvisible
    rw [Bool.not_eq_true] at hinvisible
    cases hclose : isClose anchor other with
    | true =>
        rw [reach_of_invisible hinvisible, reach_of_close hclose] at hle
        exact nomatch hle
    | false =>
        have hfinite := himp (hfar hinvisible) (by rw [hclose]; rfl) hinvisible hvisible
        rw [far_of_not_close hclose hvisible] at hfinite
        exact nomatch hfinite

/-- Tiles of which those of a kind come last. -/
theorem eq_append_of_pairwise {p : Tile Float → Bool}
    (h : tiles.Pairwise fun tile other => p tile = true → p other = true) :
    tiles = tiles.filter (!p ·) ++ tiles.filter p := by
  induction tiles with
  | nil => rfl
  | cons tile rest ih =>
      obtain ⟨hfirst, hrest⟩ := List.pairwise_cons.mp h
      cases hp : p tile with
      | false =>
          rw [List.filter_cons_of_pos (by simp [hp]), List.filter_cons_of_neg (by simp [hp]),
            List.cons_append, ← ih hrest]
      | true =>
          have hall : ∀ other ∈ rest, p other = true := fun other hother => hfirst other hother hp
          have hnone : (tile :: rest).filter (!p ·) = [] :=
            List.filter_eq_nil_iff.mpr fun other hother => by
              rcases List.mem_cons.mp hother with rfl | hrest
              · simp [hp]
              · simp [hall other hrest]
          rw [hnone, List.nil_append, List.filter_cons_of_pos hp, List.filter_eq_self.mpr hall]

/-- From an anchor without coordinates the visible tiles and the others stay apart, each as they
    were. -/
theorem sortTiles_of_unplaced (hplaced : ¬ IsPlaced anchor)
    (hlaid : ∀ tile ∈ tiles, IsLaid tile) : sortTiles anchor tiles negative =
      if negative then Tile.seen tiles ++ Tile.unseen tiles
      else Tile.unseen tiles ++ Tile.seen tiles := by
  have hseen : Tile.seen (sortTiles anchor tiles negative) = Tile.seen tiles := by
    refine filter_sortTiles fun tile htile other hother hvisible hvisible' => ?_
    rw [reach_of_unplaced hplaced (hlaid tile htile hvisible) hvisible,
      reach_of_unplaced hplaced (hlaid other hother hvisible') hvisible']
    exact decide_eq_true le_rfl
  have hunseen : Tile.unseen (sortTiles anchor tiles negative) = Tile.unseen tiles := by
    refine filter_sortTiles fun tile _ other _ hinvisible hinvisible' => ?_
    rw [Bool.not_eq_true'] at hinvisible hinvisible'
    rw [reach_of_invisible hinvisible, reach_of_invisible hinvisible']
    rfl
  have hreach : ∀ tile ∈ sortTiles anchor tiles negative, tile.visible = true →
      reach anchor tile negative = .unmeasured negative := by
    intro tile hmem hvisible
    have hold := (sortTiles_perm anchor tiles negative).mem_iff.mp hmem
    exact reach_of_unplaced hplaced (hlaid tile hold hvisible) hvisible
  have hpairs := pairwise_sortTiles anchor negative tiles
  cases negative with
  | true =>
      -- what is not visible does not come before what is
      have hlast := eq_append_of_pairwise (p := (!·.visible)) (hpairs.imp_of_mem ?_)
      · simp only [Bool.not_not] at hlast
        exact hlast.trans (congrArg₂ _ hseen hunseen)
      · intro tile other _ hother hle hinvisible
        rw [Bool.not_eq_true'] at hinvisible ⊢
        by_contra hvisible
        rw [Bool.not_eq_false] at hvisible
        rw [reach_of_invisible hinvisible, hreach other hother hvisible] at hle
        exact nomatch hle
  | false =>
      have hlast := eq_append_of_pairwise (p := (·.visible)) (hpairs.imp_of_mem ?_)
      · exact hlast.trans (congrArg₂ _ hunseen hseen)
      · intro tile other htile _ hle hvisible
        by_contra hinvisible
        rw [hreach tile htile hvisible, reach_of_invisible (Bool.not_eq_true _ ▸ hinvisible)] at hle
        exact nomatch hle

/-- **HOW A ROW LIES THAT HAS BEEN PUT IN ORDER**, for any anchor.  What is not visible counts as
    infinitely far, which keeps it behind the visible tiles as long as these are at finite
    distances.  But an anchor may be so far away that a visible tile is infinitely far as well, or
    it may have no coordinates at all. -/
theorem sortTiles_arranged (anchor : Point Float) (negative : Bool)
    (hlaid : ∀ tile ∈ tiles, IsLaid tile) :
    Arranged anchor negative tiles (sortTiles anchor tiles negative) where
  perm := sortTiles_perm anchor tiles negative
  ascending := by
    intro hplaced
    have hpairs := pairwise_sortTiles anchor negative tiles
    refine hpairs.imp_of_mem fun {tile other} htile hother hle => ?_
    have hperm := sortTiles_perm anchor tiles negative
    exact remoteness_le hplaced (hlaid tile (hperm.mem_iff.mp htile))
      (hlaid other (hperm.mem_iff.mp hother)) hle
  stable := by
    intro key
    refine filter_sortTiles fun tile htile other hother hkey hkey' => ?_
    exact le_of_remoteness_eq (hlaid tile htile) (hlaid other hother)
      ((of_decide_eq_true hkey).trans (of_decide_eq_true hkey').symm)
  visibleFirst_iff := fun hplaced => visibleFirst_sortTiles_iff hplaced hlaid
  unplaced := fun hplaced => sortTiles_of_unplaced hplaced hlaid

private def placelessTile : Tile Float :=
  Tile.ofIcon ⟨0⟩ { Icon.favorite 1 ⟨0.0, 0.0⟩ with position := none }

private def cornerTile : Tile Float := Tile.ofIcon ⟨1⟩ (Icon.favorite 2 ⟨0.0, 0.0⟩)

/-- Seen from far away, a tile that is not visible stays before one that is. -/
theorem sortTiles_arranged_farAway : (∀ tile ∈ [placelessTile, cornerTile], IsLaid tile) ∧
    ¬ VisibleFirst (sortTiles ⟨1e200, 0.0⟩ [placelessTile, cornerTile]) := by
  have hlaid : ∀ tile ∈ [placelessTile, cornerTile], IsLaid tile := by
    intro tile htile hvisible
    rcases List.mem_pair.mp htile with rfl | rfl
    · exact nomatch hvisible
    · decide +kernel
  have harranged := sortTiles_arranged ⟨1e200, 0.0⟩ false hlaid
  have hplaced : IsPlaced ⟨1e200, 0.0⟩ := ⟨by decide +kernel, by decide +kernel⟩
  refine ⟨hlaid, fun hfirst => ?_⟩
  have hpairs := (harranged.visibleFirst_iff hplaced).mp hfirst
  have hfinite := (List.pairwise_cons.mp hpairs).1 cornerTile List.mem_cons_self rfl (by decide)
  exact absurd hfinite (by decide +kernel)

end Doubles

end Row

end FisheyeDock
