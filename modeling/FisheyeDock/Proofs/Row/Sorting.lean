import Mathlib.Data.List.Nodup
import FisheyeDock.Proofs.Row.Visible
import FisheyeDock.Proofs.Scalar.Ordered

/-! # Sorting sorts

    Sorted tiles lie in the order of their reach (`pairwise_sortTiles`), and all that counts for their
    order is their reach (`sortTiles_map`).  Tiles of which no two are equally far come in one order
    only, whatever the order is in which they are given (`sortTiles_eq_of_perm`). -/

namespace FisheyeDock.Row

variable {α : Type} [Scalar α] {anchor : Point α} {negative : Bool} {tiles tiles' : List (Tile α)}

/-! ## What counts for the order -/

section Map

variable {anchor' : Point α} {r : Reach α → Reach α}

/-- Entries are inserted by their reach alone. -/
theorem insertByReach_map (hr : ∀ a b, (r a).le (r b) = a.le b) (f : Tile α → Tile α)
    (entry : Reach α × Tile α) (entries : List (Reach α × Tile α)) :
    insertByReach (Prod.map r f entry) (entries.map (Prod.map r f)) =
      (insertByReach entry entries).map (Prod.map r f) := by
  induction entries with
  | nil => rfl
  | cons next rest ih =>
      rw [List.map_cons, insertByReach, insertByReach, ih]
      show (if (r entry.1).le (r next.1) then _ else _) = _
      rw [hr]
      split
      · rfl
      · rfl

/-- What changes the reach of all tiles, but not which of two is farther, does not change their
    order. -/
theorem sortTiles_map_of_le (hr : ∀ a b, (r a).le (r b) = a.le b) (f : Tile α → Tile α)
    (h : ∀ tile, reach anchor' (f tile) negative = r (reach anchor tile negative))
    (tiles : List (Tile α)) :
    sortTiles anchor' (tiles.map f) negative = (sortTiles anchor tiles negative).map f := by
  have hentries : sortedEntries anchor' negative (tiles.map f) =
      (sortedEntries anchor negative tiles).map (Prod.map r f) := by
    induction tiles with
    | nil => rfl
    | cons tile rest ih =>
        show insertByReach (reach anchor' (f tile) negative, f tile)
          (sortedEntries anchor' negative (rest.map f)) = _
        rw [ih, h]
        exact insertByReach_map hr f (reach anchor tile negative, tile) _
  show (sortedEntries anchor' negative (tiles.map f)).map (·.2) =
    ((sortedEntries anchor negative tiles).map (·.2)).map f
  rw [hentries, List.map_map, List.map_map]
  rfl

/-- What leaves the reach of tiles alone does not change their order. -/
theorem sortTiles_map (f : Tile α → Tile α)
    (h : ∀ tile, reach anchor' (f tile) negative = reach anchor tile negative)
    (tiles : List (Tile α)) :
    sortTiles anchor' (tiles.map f) negative = (sortTiles anchor tiles negative).map f :=
  sortTiles_map_of_le (r := id) (fun _ _ => rfl) f h tiles

end Map

/-! ## The order -/

/-- A reach that can be compared: what is at a distance is at a finite one. -/
def Reach.IsProper : Reach α → Prop
  | .at distance => Scalar.isFinite distance = true
  | _ => True

/-- The reach of a tile is proper: where it is a number, it is one that compares. -/
theorem isProper_reach (anchor : Point α) (negative : Bool) (tile : Tile α) :
    (reach anchor tile negative).IsProper := by
  unfold reach
  dsimp only
  cases tile.visible with
  | false => trivial
  | true =>
      cases hfinite : Scalar.isFinite (Point.distance anchor tile.fixed) with
      | true => exact hfinite
      | false =>
          -- what is left are the cases without a distance
          simp only [Bool.not_true, Bool.false_eq_true, if_false]
          split
          · trivial
          · split <;> trivial

namespace Reach

variable {a b : Reach α}

omit [Scalar α] in
/-- Distances, and they alone, are compared otherwise than by rank. -/
theorem exists_of_rank (h : a.rank = 1) : ∃ distance, a = .at distance := by
  cases a with
  | «at» distance => exact ⟨distance, rfl⟩
  | beyond => exact nomatch h
  | unmeasured negative => cases negative <;> exact nomatch h

/-- Whatever is compared, the order goes up with the rank. -/
theorem rank_le_of_le (h : a.le b = true) : a.rank ≤ b.rank := by
  cases a <;> cases b
  case at.at => exact le_rfl
  all_goals exact of_decide_eq_true h

/-- Where one of the two is no distance, the rank decides. -/
theorem le_of_rank_le (h : a.rank ≤ b.rank) (hother : ¬ (a.rank = 1 ∧ b.rank = 1)) :
    a.le b = true := by
  cases a <;> cases b
  case at.at => exact absurd ⟨rfl, rfl⟩ hother
  all_goals exact decide_eq_true h

end Reach

/-- One entry is no farther than the other. -/
def Nearer (entry other : Reach α × Tile α) : Prop := entry.1.le other.1 = true

/-- The reach that an entry is sorted by is that of its tile. -/
theorem reach_of_mem_sortedEntries {entry : Reach α × Tile α}
    (h : entry ∈ sortedEntries anchor negative tiles) : entry.1 = reach anchor entry.2 negative := by
  obtain ⟨tile, -, rfl⟩ := List.mem_map.mp ((sortedEntries_perm anchor negative tiles).mem_iff.mp h)
  rfl

section Ordered

variable [OrderedScalar α]

/-- The order of proper reaches is transitive. -/
theorem Reach.le_trans {a b c : Reach α} (ha : a.IsProper) (hb : b.IsProper) (hc : c.IsProper)
    (hab : a.le b = true) (hbc : b.le c = true) : a.le c = true := by
  have hrank := (rank_le_of_le hab).trans (rank_le_of_le hbc)
  by_cases hdistances : a.rank = 1 ∧ c.rank = 1
  · -- what lies between two distances is one
    have hbetween : b.rank = 1 :=
      le_antisymm (hdistances.2 ▸ rank_le_of_le hbc) (hdistances.1 ▸ rank_le_of_le hab)
    obtain ⟨d, rfl⟩ := exists_of_rank hdistances.1
    obtain ⟨e, rfl⟩ := exists_of_rank hbetween
    obtain ⟨f, rfl⟩ := exists_of_rank hdistances.2
    exact decide_eq_true
      (OrderedScalar.le_trans ha hb hc (of_decide_eq_true hab) (of_decide_eq_true hbc))
  · exact le_of_rank_le hrank hdistances

theorem Reach.le_of_not_le {a b : Reach α} (ha : a.IsProper) (hb : b.IsProper)
    (h : ¬ a.le b = true) : b.le a = true := by
  by_cases hdistances : a.rank = 1 ∧ b.rank = 1
  · obtain ⟨d, rfl⟩ := exists_of_rank hdistances.1
    obtain ⟨e, rfl⟩ := exists_of_rank hdistances.2
    exact decide_eq_true
      ((OrderedScalar.le_total ha hb).resolve_left fun hle => h (decide_eq_true hle))
  · have hrank : b.rank ≤ a.rank := Nat.le_of_not_le fun hle => h (le_of_rank_le hle hdistances)
    exact le_of_rank_le hrank fun hboth => hdistances hboth.symm

/-- To insert an entry keeps entries in order. -/
theorem pairwise_insertByReach {entry : Reach α × Tile α} {entries : List (Reach α × Tile α)}
    (hentry : entry.1.IsProper) (hentries : ∀ other ∈ entries, other.1.IsProper)
    (h : entries.Pairwise Nearer) : (insertByReach entry entries).Pairwise Nearer := by
  induction entries with
  | nil => exact List.pairwise_singleton _ _
  | cons next rest ih =>
      obtain ⟨hnext, hrest⟩ := List.pairwise_cons.mp h
      obtain ⟨hproper, hothers⟩ := List.forall_mem_cons.mp hentries
      unfold insertByReach
      by_cases hle : entry.1.le next.1 = true
      · rw [if_pos hle]
        refine List.pairwise_cons.mpr ⟨?_, h⟩
        intro other hother
        rcases List.mem_cons.mp hother with rfl | hlater
        · exact hle
        · exact Reach.le_trans hentry hproper (hothers other hlater) hle (hnext other hlater)
      · rw [if_neg hle]
        refine List.pairwise_cons.mpr ⟨?_, ih hothers hrest⟩
        intro other hother
        rcases List.mem_cons.mp ((insertByReach_perm entry rest).mem_iff.mp hother) with
          rfl | hlater
        · exact Reach.le_of_not_le hentry hproper hle
        · exact hnext other hlater

theorem pairwise_sortedEntries (anchor : Point α) (negative : Bool) (tiles : List (Tile α)) :
    (sortedEntries anchor negative tiles).Pairwise Nearer := by
  induction tiles with
  | nil => exact .nil
  | cons tile rest ih =>
      refine pairwise_insertByReach (isProper_reach anchor negative tile) ?_ ih
      intro other hother
      rw [reach_of_mem_sortedEntries hother]
      exact isProper_reach anchor negative other.2

/-- Sorted tiles lie in the order of their reach. -/
theorem pairwise_sortTiles (anchor : Point α) (negative : Bool) (tiles : List (Tile α)) :
    (sortTiles anchor tiles negative).Pairwise fun tile other =>
      (reach anchor tile negative).le (reach anchor other negative) = true := by
  refine List.pairwise_map.mpr ((pairwise_sortedEntries anchor negative tiles).imp_of_mem ?_)
  intro entry other hentry hother hle
  rw [← reach_of_mem_sortedEntries hentry, ← reach_of_mem_sortedEntries hother]
  exact hle

/-- No two of some tiles are equally far from the anchor. -/
def Apart (anchor : Point α) (negative : Bool) (tiles : List (Tile α)) : Prop :=
  ∀ tile ∈ tiles, ∀ other ∈ tiles,
    (reach anchor tile negative).le (reach anchor other negative) = true →
    (reach anchor other negative).le (reach anchor tile negative) = true → tile = other

/-- Tiles of which no two are equally far come in one order. -/
theorem sortTiles_eq_of_perm (h : tiles.Perm tiles') (apart : Apart anchor negative tiles) :
    sortTiles anchor tiles negative = sortTiles anchor tiles' negative := by
  have hperm := (sortTiles_perm anchor tiles negative).trans
    (h.trans (sortTiles_perm anchor tiles' negative).symm)
  refine List.Perm.eq_of_pairwise ?_ (pairwise_sortTiles anchor negative tiles)
    (pairwise_sortTiles anchor negative tiles') hperm
  intro tile other htile hother
  refine apart tile ((sortTiles_perm anchor tiles negative).mem_iff.mp htile) other ?_
  exact h.mem_iff.mpr ((sortTiles_perm anchor tiles' negative).mem_iff.mp hother)

end Ordered

end FisheyeDock.Row
