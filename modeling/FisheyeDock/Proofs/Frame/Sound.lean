import FisheyeDock.Proofs.Frame.Motion
import FisheyeDock.Proofs.Row.Identity

/-! # Sound tiles

    What the host and the settings hand in may be undefined, infinite or of the wrong sign, and all of
    it finds its way into targets.  A tile stays sound all the same (`Tile.Sound`): an icon is laid out
    only where its position is finite, a step is taken only to what is finite, and no scale is below
    the one at rest.

    All this needs to know of the numbers is that the scale at rest is one to draw in. -/

namespace FisheyeDock

variable {α : Type} [Scalar α]

/-- A scale to draw in: finite, and not below the scale at rest. -/
structure SoundScale (scale : α) : Prop where
  isFinite : Scalar.isFinite scale = true
  one_le : 1.0 ≤ scale

/-- A tile with a scale to draw in and, if it is visible, with places to be at. -/
structure Tile.Sound (tile : Tile α) : Prop where
  scale : SoundScale tile.scale
  position : tile.visible = true → tile.position.isFinite = true
  fixed : tile.visible = true → tile.fixed.isFinite = true

namespace Tile

variable {tile : Tile α} {icon : Icon α} {id : Tile.Id} {iconSize : α} {retracting : Bool}

/-! ## Coming and staying -/

/-- A tile that becomes visible is at a finite place. -/
theorem fixed_refresh (h : (tile.refresh icon).visible = true) :
    (tile.refresh icon).fixed.isFinite = true := by
  unfold refresh at h ⊢
  cases hresting : icon.restingPosition with
  | none =>
      rw [hresting] at h
      exact nomatch h
  | some resting => exact (Option.filter_eq_some_iff.mp hresting).2

/-- Refreshing leaves the scale as it is. -/
theorem scale_refresh (tile : Tile α) (icon : Icon α) : (tile.refresh icon).scale = tile.scale := by
  unfold refresh
  cases icon.restingPosition <;> rfl

/-- A tile takes over only positions that are finite. -/
theorem Sound.refresh (h : tile.Sound) (icon : Icon α) : (tile.refresh icon).Sound where
  scale := (tile.scale_refresh icon).symm ▸ h.scale
  position := isFinite_refresh
  fixed := fixed_refresh

/-- Neither where a tile is heading nor its markers matter. -/
theorem Sound.congr (h : tile.Sound) {tile' : Tile α} (hvisible : tile'.visible = tile.visible)
    (hscale : tile'.scale = tile.scale) (hposition : tile'.position = tile.position)
    (hfixed : tile'.fixed = tile.fixed) : tile'.Sound where
  scale := hscale ▸ h.scale
  position := by
    rw [hvisible, hposition]
    exact h.position
  fixed := by
    rw [hvisible, hfixed]
    exact h.fixed

/-- Whether a tile is sound shows in what no lens changes. -/
theorem steady_sound : Steady (α := α) Sound := fun _ _ _ _ _ =>
  propext ⟨fun h => h.congr rfl rfl rfl rfl, fun h => h.congr rfl rfl rfl rfl⟩

theorem sound_bare : tile.bare.Sound ↔ tile.Sound :=
  ⟨fun h => h.congr rfl rfl rfl rfl, fun h => h.congr rfl rfl rfl rfl⟩

/-- Tiles that read alike are alike sound. -/
theorem sound_of_map {tiles tiles' : List (Tile α)} (hsame : tiles'.map Sound = tiles.map Sound)
    (h : ∀ tile ∈ tiles, tile.Sound) : ∀ tile ∈ tiles', tile.Sound := by
  intro tile hmem
  have hread : tile.Sound ∈ tiles.map Sound := hsame ▸ List.mem_map_of_mem hmem
  obtain ⟨other, hother, heq⟩ := List.mem_map.mp hread
  exact heq ▸ h other hother

/-! ## New tiles and steps -/

variable (rest : SoundScale (1.0 : α))
include rest

/-- A new tile is visible only on an icon with a finite position, and at rest there. -/
theorem sound_ofIcon (id : Tile.Id) (icon : Icon α) : (ofIcon id icon).Sound where
  scale := rest
  position := isFinite_ofIcon
  fixed := isFinite_ofIcon

/-- A step of the scale is taken only to a finite one, and stops at rest. -/
theorem Sound.smoothScale (h : tile.Sound) : SoundScale (tile.smoothScale retracting) := by
  unfold Tile.smoothScale
  dsimp only
  by_cases hfinite : Scalar.isFinite
      (blend tile.scale tile.targetScale (2.5 * leaveFactor retracting)) = true
  · rw [if_pos hfinite]
    unfold Scalar.atLeast
    by_cases hle : 1.0 ≤ blend tile.scale tile.targetScale (2.5 * leaveFactor retracting)
    · rw [if_pos hle]
      exact ⟨hfinite, hle⟩
    · rw [if_neg hle]
      exact rest
  · rw [if_neg hfinite]
    exact h.scale

/-- A step keeps a tile sound. -/
theorem Sound.advance (h : tile.Sound) : (tile.advance iconSize retracting).1.Sound := by
  unfold Tile.advance
  by_cases hvisible : tile.visible = true
  · rw [if_pos hvisible]
    exact ⟨(sound_bare.mpr h).smoothScale rest,
      fun _ => isFinite_smoothPosition tile.bare _ _ (h.position hvisible), h.fixed⟩
  · rw [if_neg hvisible]
    exact sound_bare.mpr h

end Tile

/-- A frame leaves sound tiles sound. -/
theorem Frame.sound_of_mem (rest : SoundScale (1.0 : α)) {g : Geometry α} {settings : Settings α}
    {retracting : Bool} {pool : Marker.Pool} {tiles : List (Tile α)}
    (h : ∀ tile ∈ tiles, tile.Sound) :
    ∀ tile ∈ (build g settings retracting pool tiles).tiles, tile.Sound := by
  intro tile' hmem
  obtain ⟨tile, htile, hmoved⟩ := moved_of_mem hmem
  rw [← Tile.sound_bare, ← hmoved, Tile.sound_bare]
  exact (h tile htile).advance rest

end FisheyeDock
