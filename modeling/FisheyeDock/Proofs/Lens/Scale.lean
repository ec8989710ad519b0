import FisheyeDock.Proofs.Lens.Ends
import FisheyeDock.Proofs.Frame.Motion
import FisheyeDock.Proofs.Frame.Step

/-! # How large tiles become

    With strengths from zero to one, the lens sends no tile to a scale below one or above
    `largestScale`, and no step of a tile leaves these bounds (`Tile.InScale`).

    On the way to rest, one step leaves at most seven ninths of what a tile is too large by
    (`Tile.scale_reset_advance`). -/

namespace FisheyeDock

/-- The scale of a tile that the lens is on, with all of its strength. -/
noncomputable def largestScale : ℝ := 1.9

/-- The largest scale, in numbers. -/
theorem largestScale_eq : largestScale = 19 / 10 := by
  rw [largestScale, ofScientific_real]
  norm_num

/-- The scale of a tile and the one it is heading for are in bounds. -/
structure Tile.InScale (tile : Tile ℝ) : Prop where
  one_le : 1 ≤ tile.scale
  le_largest : tile.scale ≤ largestScale
  one_le_target : 1 ≤ tile.targetScale
  target_le_largest : tile.targetScale ≤ largestScale

/-- Markers do not concern the scale. -/
theorem Tile.inScale_bare {tile : Tile ℝ} : tile.bare.InScale ↔ tile.InScale :=
  ⟨fun h => ⟨h.1, h.2, h.3, h.4⟩, fun h => ⟨h.1, h.2, h.3, h.4⟩⟩

/-- Strengths that leave the scales in bounds. -/
structure Strengths.Mild (s : Strengths ℝ) : Prop where
  magnify_nonneg : 0 ≤ s.magnify
  magnify_le_one : s.magnify ≤ 1
  spread_nonneg : 0 ≤ s.spread
  spread_le_one : s.spread ≤ 1

/-! ## The lens -/

namespace Lens

variable {g : Geometry ℝ} {s : Strengths ℝ}

/-- The decay of a mild spread. -/
theorem decay_bounds (mild : s.Mild) : 3 / 5 ≤ s.decay ∧ s.decay ≤ 4 / 5 := by
  rw [decay_real]
  constructor <;> linarith [mild.spread_nonneg, mild.spread_le_one]

theorem decay_le_one (hspread : s.spread ≤ 1) : s.decay ≤ 1 := by
  rw [decay_real]
  linarith

/-- A wave that is in bounds at its start leaves every tile in bounds. -/
theorem spreadOut_inScale (mild : s.Mild) {direction : ℝ} {reach : Nat} {wave : Wave ℝ}
    {tiles : List (Tile ℝ)} (hnonneg : 0 ≤ wave.scale) (hlargest : wave.scale ≤ largestScale)
    (h : ∀ tile ∈ tiles, tile.InScale) :
    ∀ tile ∈ spreadOut g s direction reach wave tiles, tile.InScale := by
  induction tiles generalizing reach wave with
  | nil => cases reach <;> exact fun tile hmem => nomatch hmem
  | cons first rest ih =>
      cases reach with
      | zero => exact h
      | succ reach =>
          have hfirst := h first List.mem_cons_self
          have hnonneg' : 0 ≤ wave.scale * s.decay :=
            mul_nonneg hnonneg (decay_pos mild.spread_nonneg).le
          have hlargest' : wave.scale * s.decay ≤ largestScale :=
            (mul_le_of_le_one_right hnonneg (decay_le_one mild.spread_le_one)).trans hlargest
          intro tile hmem
          rcases List.mem_cons.mp hmem with rfl | hlater
          · refine ⟨hfirst.one_le, hfirst.le_largest, ?_, ?_⟩
            · dsimp only
              rw [one_real]
              split
              · exact le_of_lt ‹_›
              · exact hfirst.one_le_target
            · dsimp only
              split
              · exact hlargest'
              · exact hfirst.target_le_largest
          · exact ih hnonneg' hlargest' (fun tile hmem => h tile (List.mem_cons_of_mem _ hmem))
              tile hlater

/-- The scale that the magnified tile is heading for. -/
theorem targetScale_magnifyCenter (g : Geometry ℝ) (s : Strengths ℝ) (focus : Focus ℝ)
    (tile : Tile ℝ) : (magnifyCenter g s focus tile).targetScale = 1 + 9 / 10 * s.magnify := by
  simp only [magnifyCenter, ofScientific_real]
  norm_num

/-- The lens leaves every tile in bounds. -/
theorem magnify_inScale (mild : s.Mild) {focus : Focus ℝ} {tiles tiles' : List (Tile ℝ)}
    {magnified : Bool} (hmagnify : magnify g s focus tiles = .ok (tiles', magnified))
    (h : ∀ tile ∈ tiles, tile.InScale) : ∀ tile ∈ tiles', tile.InScale := by
  unfold magnify at hmagnify
  split at hmagnify
  · cases hdrop : tiles.drop focus.index with
    | nil =>
        rw [hdrop] at hmagnify
        exact nomatch hmagnify
    | cons center after =>
        rw [hdrop] at hmagnify
        obtain ⟨rfl, -⟩ := Prod.mk.inj (Except.ok.inj hmagnify)
        have hdropped : ∀ tile ∈ center :: after, tile.InScale := by
          intro tile hmem
          exact h tile (List.mem_of_mem_drop (hdrop ▸ hmem))
        have hcenter := hdropped center List.mem_cons_self
        have hscale := targetScale_magnifyCenter g s focus center
        have hone : 1 ≤ (magnifyCenter g s focus center).targetScale := by
          rw [hscale]
          linarith [mild.magnify_nonneg]
        have hlargest : (magnifyCenter g s focus center).targetScale ≤ largestScale := by
          rw [hscale, largestScale_eq]
          linarith [mild.magnify_le_one]
        have hnonneg : 0 ≤ (magnifyCenter g s focus center).targetScale := zero_le_one.trans hone
        -- both waves start from the scale of the center
        intro tile hmem
        rcases List.mem_append.mp hmem with hbefore | hfrom
        · refine spreadOut_inScale mild hnonneg hlargest ?_ tile (List.mem_reverse.mp hbefore)
          intro tile hmem
          exact h tile (List.mem_of_mem_take (List.mem_reverse.mp hmem))
        · rcases List.mem_cons.mp hfrom with rfl | hafter
          · exact ⟨hcenter.one_le, hcenter.le_largest, hone, hlargest⟩
          · refine spreadOut_inScale mild hnonneg hlargest ?_ tile hafter
            exact fun tile hmem => hdropped tile (List.mem_cons_of_mem _ hmem)
  · obtain ⟨rfl, -⟩ := Prod.mk.inj (Except.ok.inj hmagnify)
    exact h

end Lens

/-! ## One step -/

namespace Tile

variable {tile : Tile ℝ} {iconSize : ℝ} {retracting : Bool}

/-- A step of the scale stays in bounds. -/
theorem InScale.smoothScale (h : tile.InScale) :
    1 ≤ tile.smoothScale retracting ∧ tile.smoothScale retracting ≤ largestScale := by
  have hinertia := inertia_pos retracting
  rw [smoothScale_real]
  refine ⟨le_max_left _ _, max_le ?_ ?_⟩
  · exact h.one_le.trans h.le_largest
  · rw [div_le_iff₀ (by linarith), mul_add, mul_one]
    exact add_le_add (mul_le_mul_of_nonneg_right h.le_largest hinertia.le) h.target_le_largest

/-- A step toward the scale at rest leaves at most seven ninths of the way. -/
theorem smoothScale_sub_one_le (hone : 1 ≤ tile.scale) (htarget : tile.targetScale = 1) :
    tile.smoothScale retracting - 1 ≤ 7 / 9 * (tile.scale - 1) := by
  have hinertia := inertia_pos retracting
  have hkept : inertia retracting / (inertia retracting + 1) ≤ 7 / 9 := by
    rw [inertia_eq]
    cases retracting <;> norm_num
  have hleft := @smoothScale_sub tile retracting hone htarget.ge
  rw [htarget] at hleft
  rw [hleft]
  exact mul_le_mul_of_nonneg_right hkept (sub_nonneg.mpr hone)

/-- A step keeps a scale in range: it moves it toward the scale it aims at. -/
theorem InScale.advance (h : tile.InScale) (iconSize : ℝ) (retracting : Bool) :
    (tile.advance iconSize retracting).1.InScale := by
  unfold Tile.advance
  split
  · have hsmooth : 1 ≤ tile.bare.smoothScale retracting ∧
        tile.bare.smoothScale retracting ≤ largestScale := (inScale_bare.mpr h).smoothScale
    obtain ⟨hone, hlargest⟩ := hsmooth
    exact ⟨hone, hlargest, h.one_le_target, h.target_le_largest⟩
  · exact inScale_bare.mpr h

theorem targetScale_reset (tile : Tile ℝ) : tile.reset.targetScale = 1 := one_real

/-- A tile in bounds that is sent to rest is sent to a scale in bounds. -/
theorem inScale_reset (hone : 1 ≤ tile.scale) (hlargest : tile.scale ≤ largestScale) :
    tile.reset.InScale := by
  have htarget : tile.reset.targetScale = 1 := targetScale_reset tile
  refine ⟨hone, hlargest, htarget.ge, htarget.le.trans ?_⟩
  rw [largestScale_eq]
  norm_num

/-- What a visible tile is too large by shrinks by two ninths in a step on the way to rest. -/
theorem scale_advance_reset (hvisible : tile.visible = true) (hone : 1 ≤ tile.scale) :
    1 ≤ (tile.reset.advance iconSize retracting).1.scale ∧
      (tile.reset.advance iconSize retracting).1.scale - 1 ≤ 7 / 9 * (tile.scale - 1) := by
  unfold Tile.advance
  rw [if_pos (show tile.reset.visible = true from hvisible)]
  show 1 ≤ tile.reset.bare.smoothScale retracting ∧ tile.reset.bare.smoothScale retracting - 1 ≤ _
  have hbare : 1 ≤ tile.reset.bare.scale := hone
  refine ⟨?_, smoothScale_sub_one_le hbare (targetScale_reset tile)⟩
  rw [smoothScale_real]
  exact le_max_left _ _

end Tile

end FisheyeDock
