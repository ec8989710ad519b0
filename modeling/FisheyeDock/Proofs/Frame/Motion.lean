import Mathlib.Logic.Basic
import FisheyeDock.Frame

/-! # How the tiles of a frame move

    Apart from its markers, a tile of a frame is a tile that was given, one step on (`Tile.advance`).
    The frame glides if one of these steps does. -/

namespace FisheyeDock

variable {α : Type} [Scalar α]

namespace Tile

omit [Scalar α] in
/-- A tile without its markers. -/
def bare (tile : Tile α) : Tile α := { tile with dot := none, badge := none }

/-- One step of a tile toward its target, if it is visible. -/
def advance (iconSize : α) (retracting : Bool) (tile : Tile α) : Tile α × Bool :=
  if tile.visible then tile.bare.step iconSize retracting else (tile.bare, false)

/-- A tile with a usable position never loses it. -/
theorem isFinite_smoothPosition (tile : Tile α) (iconSize : α) (retracting : Bool)
    (h : tile.position.isFinite = true) :
    (tile.smoothPosition iconSize retracting).1.isFinite = true := by
  unfold smoothPosition
  by_cases htarget : tile.target.isFinite = true
  · rw [htarget, h]
    rcases Motion.over (Point.distance tile.position tile.target) iconSize with _ | _ | _
    · exact htarget
    · -- a step of a glide is taken only to a usable position
      dsimp only
      by_cases hglide : (Point.blend tile.position tile.target
          (2.0 * leaveFactor retracting)).isFinite = true
      · rw [if_pos hglide]
        exact hglide
      · rw [if_neg hglide]
        exact h
    · exact htarget
  · rw [(Bool.not_eq_true _).mp htarget]
    exact h

/-- A visible tile that is advanced is at a finite position, if it was at one before. -/
theorem isFinite_advance {tile : Tile α} (iconSize : α) (retracting : Bool)
    (h : tile.visible = true → tile.position.isFinite = true)
    (hvisible : (tile.advance iconSize retracting).1.visible = true) :
    (tile.advance iconSize retracting).1.position.isFinite = true := by
  unfold advance at hvisible ⊢
  by_cases hshown : tile.visible = true
  · rw [if_pos hshown]
    exact isFinite_smoothPosition tile.bare iconSize retracting (h hshown)
  · rw [if_neg hshown] at hvisible
    exact absurd hvisible hshown

end Tile

namespace Frame

open Marker

variable (g : Geometry α) (settings : Settings α) (retracting : Bool)

theorem bare_placeBadge (pool : Pool) (tile : Tile α) :
    (placeBadge g settings pool tile).2.1.bare = tile.bare := by
  unfold placeBadge
  split
  · split <;> rfl
  · rfl

theorem bare_placeDot (pool : Pool) (tile : Tile α) :
    (placeDot g settings pool tile).2.1.bare = tile.bare := by
  unfold placeDot
  split
  · split <;> rfl
  · rfl

theorem bare_writeTile (pool : Pool) (tile : Tile α) :
    (writeTile g settings pool tile).2.1.bare = tile.bare :=
  (bare_placeDot g settings _ _).trans (bare_placeBadge g settings pool tile)

/-- A tile is placed by one step, which is all that moves it. -/
theorem placeTile_moves (pool : Pool) (tile : Tile α) :
    (placeTile g settings retracting pool tile).tile.bare =
      (tile.advance g.iconSize retracting).1.bare ∧
    (placeTile g settings retracting pool tile).glided =
      (tile.advance g.iconSize retracting).2 := by
  unfold placeTile Tile.advance
  dsimp only
  split
  · split
    · exact ⟨bare_writeTile g settings pool _, rfl⟩
    · exact ⟨rfl, rfl⟩
  · exact ⟨rfl, rfl⟩

/-- The tiles of a frame are the given ones, one step on. -/
theorem placeTiles_moves (pool : Pool) (tiles : List (Tile α)) :
    (placeTiles g settings retracting pool tiles).tiles.map Tile.bare =
      tiles.map (fun tile => (tile.advance g.iconSize retracting).1.bare) ∧
    (placeTiles g settings retracting pool tiles).glided =
      tiles.any (fun tile => (tile.advance g.iconSize retracting).2) := by
  induction tiles generalizing pool with
  | nil => exact ⟨rfl, rfl⟩
  | cons tile rest ih =>
      obtain ⟨htile, hglided⟩ := placeTile_moves g settings retracting pool tile
      obtain ⟨hrest, hmore⟩ := ih (placeTile g settings retracting pool tile).pool
      exact ⟨congrArg₂ List.cons htile hrest, congrArg₂ or hglided hmore⟩

/-- A frame moves its tiles and does nothing else to them, their markers apart. -/
theorem build_moves (pool : Pool) (tiles : List (Tile α)) :
    (build g settings retracting pool tiles).tiles.map Tile.bare =
      tiles.map (fun tile => (tile.advance g.iconSize retracting).1.bare) ∧
    (build g settings retracting pool tiles).glided =
      tiles.any (fun tile => (tile.advance g.iconSize retracting).2) :=
  placeTiles_moves g settings retracting _ tiles

variable {g settings retracting}

/-- Each tile of a frame is one of the given tiles, one step on. -/
theorem moved_of_mem {pool : Pool} {tiles : List (Tile α)} {tile' : Tile α}
    (h : tile' ∈ (build g settings retracting pool tiles).tiles) :
    ∃ tile ∈ tiles, (tile.advance g.iconSize retracting).1.bare = tile'.bare := by
  have hbare : tile'.bare ∈ (build g settings retracting pool tiles).tiles.map Tile.bare :=
    List.mem_map_of_mem h
  rw [(build_moves g settings retracting pool tiles).1] at hbare
  exact List.mem_map.mp hbare

/-- The visible tiles of a frame have usable positions, as the given ones have. -/
theorem isFinite_of_mem {pool : Pool} {tiles : List (Tile α)}
    (h : ∀ tile ∈ tiles, tile.visible = true → tile.position.isFinite = true) :
    ∀ tile ∈ (build g settings retracting pool tiles).tiles,
      tile.visible = true → tile.position.isFinite = true := by
  intro tile' hmem hvisible
  obtain ⟨tile, htile, hbare⟩ := moved_of_mem hmem
  have hshown : (tile.advance g.iconSize retracting).1.visible = true :=
    (congrArg Tile.visible hbare).trans hvisible
  show tile'.bare.position.isFinite = true
  rw [← hbare]
  exact Tile.isFinite_advance _ _ (h tile htile) hshown

/-- Where a frame does not glide, none of its tiles does. -/
theorem not_glided_of_mem {pool : Pool} {tiles : List (Tile α)} {tile : Tile α}
    (h : (build g settings retracting pool tiles).glided = false) (hmem : tile ∈ tiles) :
    (tile.advance g.iconSize retracting).2 = false := by
  rw [(build_moves g settings retracting pool tiles).2] at h
  have hnone := List.any_eq_false.mp h tile hmem
  exact Bool.not_eq_true _ ▸ hnone

end Frame

end FisheyeDock
