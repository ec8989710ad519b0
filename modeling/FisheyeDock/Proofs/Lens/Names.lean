import FisheyeDock.Lens

/-! # The lens does not look at names

    A tile has a name in the scene, and so have its markers.  The lens looks at neither and leaves
    both alone: it does the same to tiles with other names. -/

namespace FisheyeDock

variable {α : Type}

/-- A tile with other names for itself and for its markers. -/
def Tile.rename (names : Tile.Id → Tile.Id) (markers : Option Marker.Id → Option Marker.Id)
    (tile : Tile α) : Tile α :=
  { tile with id := names tile.id, dot := markers tile.dot, badge := markers tile.badge }

namespace Lens

variable [Scalar α] (g : Geometry α) (s : Strengths α)
variable (names : Tile.Id → Tile.Id) (markers : Option Marker.Id → Option Marker.Id)

/-- What is nearest is found by place, whatever the tiles are named. -/
theorem nearestFrom_rename (best : Option (Focus α)) (index : Nat) (tiles : List (Tile α)) :
    nearestFrom g best index (tiles.map (Tile.rename names markers)) =
      nearestFrom g best index tiles := by
  induction tiles generalizing best index with
  | nil => rfl
  | cons tile rest ih => exact ih _ _

/-- A wave spreads over places, whatever they are named. -/
theorem spreadOut_rename (direction : α) (reach : Nat) (wave : Wave α) (tiles : List (Tile α)) :
    spreadOut g s direction reach wave (tiles.map (Tile.rename names markers)) =
      (spreadOut g s direction reach wave tiles).map (Tile.rename names markers) := by
  induction tiles generalizing reach wave with
  | nil => cases reach <;> rfl
  | cons tile rest ih =>
      cases reach with
      | zero => rfl
      | succ reach => exact congrArg _ (ih _ _)

theorem magnifyAt_rename (focus : Focus α) (before : List (Tile α)) (tile : Tile α)
    (after : List (Tile α)) :
    magnifyAt g s focus (before.map (Tile.rename names markers)) (tile.rename names markers)
        (after.map (Tile.rename names markers)) =
      (magnifyAt g s focus before tile after).map (Tile.rename names markers) := by
  have hwave : Wave.start g (magnifyCenter g s focus (tile.rename names markers)) =
      Wave.start g (magnifyCenter g s focus tile) := rfl
  unfold magnifyAt
  simp only [hwave, ← List.map_reverse, spreadOut_rename, List.map_append, List.map_cons]
  rfl

/-- So a row is magnified whatever its tiles are named. -/
theorem magnify_rename (focus : Focus α) (tiles : List (Tile α)) :
    magnify g s focus (tiles.map (Tile.rename names markers)) =
      Prod.map (List.map (Tile.rename names markers)) id <$> magnify g s focus tiles := by
  unfold magnify
  split
  · rw [← List.map_drop, ← List.map_take, List.length_map]
    cases tiles.drop focus.index with
    | nil => rfl
    | cons tile after =>
        simp only [List.map_cons, magnifyAt_rename]
        rfl
  · rfl

end Lens

end FisheyeDock
