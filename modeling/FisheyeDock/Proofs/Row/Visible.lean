import FisheyeDock.Row

/-! # Where tiles go that are not visible

    A tile that is not visible lies beyond all others, wherever it has last been.  Sorting therefore
    puts the visible tiles in the order in which it puts them alone, and the others behind them as
    they were (`sortTiles_eq_append`). -/

namespace FisheyeDock

variable {α : Type}

/-- The visible ones of some tiles. -/
def Tile.seen (tiles : List (Tile α)) : List (Tile α) := tiles.filter (·.visible)

/-- The other ones. -/
def Tile.unseen (tiles : List (Tile α)) : List (Tile α) := tiles.filter (!·.visible)

namespace Tile

variable {tiles : List (Tile α)} {tile : Tile α}

theorem visible_of_mem_seen (h : tile ∈ seen tiles) : tile.visible = true :=
  (List.mem_filter.mp h).2

theorem visible_of_mem_unseen (h : tile ∈ unseen tiles) : tile.visible = false := by
  have hnot := (List.mem_filter.mp h).2
  rwa [Bool.not_eq_true'] at hnot

theorem split_cons_of_visible (tiles : List (Tile α)) (h : tile.visible = true) :
    seen (tile :: tiles) = tile :: seen tiles ∧ unseen (tile :: tiles) = unseen tiles :=
  ⟨List.filter_cons_of_pos h, List.filter_cons_of_neg (by simp [h])⟩

theorem split_cons_of_invisible (tiles : List (Tile α)) (h : tile.visible = false) :
    seen (tile :: tiles) = seen tiles ∧ unseen (tile :: tiles) = tile :: unseen tiles :=
  ⟨List.filter_cons_of_neg (by simp [h]), List.filter_cons_of_pos (by simp [h])⟩

/-- Tiles are as visible as those that they come from. -/
theorem forall_visible_of_map {tiles' : List (Tile α)} {visible : Bool}
    (hsame : tiles'.map Tile.visible = tiles.map Tile.visible)
    (h : ∀ tile ∈ tiles, tile.visible = visible) : ∀ tile ∈ tiles', tile.visible = visible := by
  intro tile hmem
  have hread : tile.visible ∈ tiles'.map Tile.visible := List.mem_map_of_mem hmem
  rw [hsame] at hread
  obtain ⟨other, hother, heq⟩ := List.mem_map.mp hread
  exact heq ▸ h other hother

end Tile

namespace Row

variable [Scalar α] {anchor : Point α} {negative : Bool} {tiles : List (Tile α)} {tile : Tile α}
variable {entry : Reach α × Tile α} {before after : List (Reach α × Tile α)}

/-- The visible tiles lie at finite distances from the anchor. -/
def Measured (anchor : Point α) (tiles : List (Tile α)) : Prop :=
  ∀ tile ∈ tiles, tile.visible = true → Scalar.isFinite (Point.distance anchor tile.fixed) = true

/-- A visible tile at a finite distance is reached there. -/
theorem reach_of_visible (hvisible : tile.visible = true)
    (hfinite : Scalar.isFinite (Point.distance anchor tile.fixed) = true) :
    reach anchor tile negative = .at (Point.distance anchor tile.fixed) := by
  unfold reach
  dsimp only
  rw [hvisible, hfinite]
  rfl

/-- What is not visible is beyond all reach. -/
theorem reach_of_invisible (hinvisible : tile.visible = false) :
    reach anchor tile negative = .beyond := by
  unfold reach
  dsimp only
  rw [hinvisible]
  rfl

/-! ## Inserting -/

omit [Scalar α] in
/-- An entry at a distance. -/
def IsAt (entry : Reach α × Tile α) : Prop := ∃ distance, entry.1 = .at distance

omit [Scalar α] in
def IsBeyond (entry : Reach α × Tile α) : Prop := entry.1 = .beyond

/-- An entry at a distance goes where it would go without the entries beyond. -/
theorem insertByReach_of_at (hentry : IsAt entry) (hafter : ∀ other ∈ after, IsBeyond other) :
    insertByReach entry (before ++ after) = insertByReach entry before ++ after := by
  obtain ⟨distance, hdistance⟩ := hentry
  induction before with
  | nil =>
      cases after with
      | nil => rfl
      | cons next rest =>
          have hnext : next.1 = .beyond := hafter next List.mem_cons_self
          show insertByReach entry (next :: rest) = entry :: next :: rest
          rw [insertByReach, hdistance, hnext]
          rfl
  | cons next rest ih =>
      rw [List.cons_append, insertByReach, insertByReach, ih]
      split
      · rfl
      · rfl

/-- An entry beyond goes behind all that are at a distance. -/
theorem insertByReach_of_beyond (hentry : IsBeyond entry) (hbefore : ∀ other ∈ before, IsAt other)
    (hafter : ∀ other ∈ after, IsBeyond other) :
    insertByReach entry (before ++ after) = before ++ entry :: after := by
  have hentry' : entry.1 = .beyond := hentry
  induction before with
  | nil =>
      cases after with
      | nil => rfl
      | cons next rest =>
          have hnext : next.1 = .beyond := hafter next List.mem_cons_self
          show insertByReach entry (next :: rest) = entry :: next :: rest
          rw [insertByReach, hentry', hnext]
          rfl
  | cons next rest ih =>
      obtain ⟨distance, hnext⟩ := hbefore next List.mem_cons_self
      have hnot : ¬ (Reach.beyond : Reach α).le (.at distance) = true := Bool.false_ne_true
      rw [List.cons_append, insertByReach, hentry', hnext, if_neg hnot,
        ih fun other hother => hbefore other (List.mem_cons_of_mem _ hother)]
      rfl

/-! ## Sorting -/

/-- The entries of some tiles in order. -/
def sortedEntries (anchor : Point α) (negative : Bool) (tiles : List (Tile α)) :
    List (Reach α × Tile α) :=
  (tiles.map fun tile => (reach anchor tile negative, tile)).foldr insertByReach []

/-- To sort entries is to put them in another order. -/
theorem sortedEntries_perm (anchor : Point α) (negative : Bool) (tiles : List (Tile α)) :
    (sortedEntries anchor negative tiles).Perm
      (tiles.map fun tile => (reach anchor tile negative, tile)) := by
  induction tiles with
  | nil => exact .refl _
  | cons tile rest ih => exact (insertByReach_perm _ _).trans (ih.cons _)

theorem Measured.of_cons (h : Measured anchor (tile :: tiles)) : Measured anchor tiles :=
  fun other hother => h other (List.mem_cons_of_mem _ hother)

/-- What is seen of measured tiles is reached somewhere. -/
theorem Measured.isAt (h : Measured anchor tiles) {entry : Reach α × Tile α}
    (hmem : entry ∈ sortedEntries anchor negative (Tile.seen tiles)) : IsAt entry := by
  obtain ⟨tile, htile, rfl⟩ := List.mem_map.mp ((sortedEntries_perm _ _ _).mem_iff.mp hmem)
  obtain ⟨hmem, hvisible⟩ := List.mem_filter.mp htile
  exact ⟨_, reach_of_visible hvisible (h tile hmem hvisible)⟩

/-- What is seen comes first, and what is not comes behind it as it was. -/
theorem sortedEntries_eq_append (h : Measured anchor tiles) : sortedEntries anchor negative tiles =
    sortedEntries anchor negative (Tile.seen tiles)
      ++ (Tile.unseen tiles).map fun tile => (.beyond, tile) := by
  have hbeyond : ∀ tiles : List (Tile α),
      ∀ entry ∈ tiles.map fun tile => (Reach.beyond, tile), IsBeyond entry := by
    intro tiles entry hentry
    obtain ⟨tile, -, rfl⟩ := List.mem_map.mp hentry
    rfl
  induction tiles with
  | nil => rfl
  | cons tile rest ih =>
      have hrest := h.of_cons
      show insertByReach (reach anchor tile negative, tile) (sortedEntries anchor negative rest) = _
      rw [ih hrest]
      cases hvisible : tile.visible with
      | true =>
          have hat : reach anchor tile negative = .at _ :=
            reach_of_visible hvisible (h tile List.mem_cons_self hvisible)
          obtain ⟨hseen, hunseen⟩ := Tile.split_cons_of_visible rest hvisible
          rw [insertByReach_of_at ⟨_, hat⟩ (hbeyond _), hseen, hunseen]
          rfl
      | false =>
          have hentry : IsBeyond (reach anchor tile negative, tile) := reach_of_invisible hvisible
          obtain ⟨hseen, hunseen⟩ := Tile.split_cons_of_invisible rest hvisible
          rw [insertByReach_of_beyond hentry (fun _ hmem => hrest.isAt hmem) (hbeyond _), hseen,
            hunseen, reach_of_invisible hvisible]
          rfl

/-- The visible tiles come first, in the order in which they would be alone, and then the others as
    they were. -/
theorem sortTiles_eq_append (h : Measured anchor tiles) :
    sortTiles anchor tiles negative =
      sortTiles anchor (Tile.seen tiles) negative ++ Tile.unseen tiles := by
  show (sortedEntries anchor negative tiles).map (·.2) =
    (sortedEntries anchor negative (Tile.seen tiles)).map (·.2) ++ _
  rw [sortedEntries_eq_append h, List.map_append, List.map_map]
  exact congrArg _ (List.map_id _)

end Row

end FisheyeDock
