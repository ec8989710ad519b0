import Mathlib.Tactic.FieldSimp
import FisheyeDock.Proofs.Scalar.Real
import FisheyeDock.Tile.Motion

/-! # One step in exact arithmetic

    Nothing is undefined in exact arithmetic, and so every step is taken.  The scale is blended by
    weight (`Tile.inertia`) and not let below one, and the position glides over moderate distances
    (`Tile.Glides`) and is at its target after any other step. -/

namespace FisheyeDock

/-- A blend leaves a part of the way, and the more of it the larger the weight of the start. -/
theorem blend_sub {coef : ℝ} (hcoef : 0 < coef) (start goal : ℝ) :
    blend start goal coef - goal = coef / (coef + 1) * (start - goal) := by
  unfold blend
  rw [one_real]
  field_simp
  ring

namespace Tile

variable {tile : Tile ℝ} {iconSize : ℝ} {retracting : Bool}

/-! ## The scale -/

/-- How much of the old scale goes into the new one, compared with the target. -/
noncomputable def inertia (retracting : Bool) : ℝ := 2.5 * leaveFactor retracting

/-- What resists a step, in either direction. -/
theorem inertia_eq (retracting : Bool) :
    inertia retracting = if retracting then 7 / 2 else 5 / 2 := by
  unfold inertia leaveFactor
  simp only [ofScientific_real]
  cases retracting <;> norm_num

theorem inertia_pos (retracting : Bool) : 0 < inertia retracting := by
  rw [inertia_eq]
  split <;> norm_num

/-- In exact arithmetic every step is taken, and none leads below one. -/
theorem smoothScale_real (tile : Tile ℝ) (retracting : Bool) : tile.smoothScale retracting =
    max 1 ((tile.scale * inertia retracting + tile.targetScale) / (inertia retracting + 1)) := by
  have hatLeast : ∀ x : ℝ, Scalar.atLeast 1 x = max 1 x := fun x => (max_def 1 x).symm
  unfold smoothScale blend
  rw [one_real]
  exact (if_pos rfl).trans (hatLeast _)

/-- Between scales of one or more, the bound of one below does not come into play. -/
theorem smoothScale_sub (hscale : 1 ≤ tile.scale) (htarget : 1 ≤ tile.targetScale) :
    tile.smoothScale retracting - tile.targetScale =
      inertia retracting / (inertia retracting + 1) * (tile.scale - tile.targetScale) := by
  have hinertia := inertia_pos retracting
  have hone : 1 ≤ (tile.scale * inertia retracting + tile.targetScale) /
      (inertia retracting + 1) := by
    rw [le_div_iff₀ (by linarith), one_mul]
    exact add_le_add (le_mul_of_one_le_left hinertia.le hscale) htarget
  have hblend := blend_sub hinertia tile.scale tile.targetScale
  unfold FisheyeDock.blend at hblend
  rwa [one_real, ← max_eq_right hone, ← smoothScale_real] at hblend

/-! ## The position -/

/-- How far a tile has still to go. -/
noncomputable def way (tile : Tile ℝ) : ℝ := tile.position.distance tile.target

/-- Whether a distance is one that a tile glides over. -/
def Glides (iconSize distance : ℝ) : Prop := iconSize / 100 < distance ∧ distance < iconSize * 3

/-- Motion over a distance is a glide exactly where the distance is one for it. -/
theorem over_eq_glide_iff (distance iconSize : ℝ) :
    Motion.over distance iconSize = .glide ↔ Glides iconSize distance := by
  have hnear : iconSize * 0.01 = iconSize / 100 := by
    rw [ofScientific_real]
    norm_num
    ring
  have hfar : iconSize * 3.0 = iconSize * 3 := by
    rw [ofScientific_real]
    norm_num
  unfold Motion.over Glides
  rw [hnear, hfar]
  by_cases harrived : distance ≤ iconSize / 100
  · rw [if_pos harrived]
    exact iff_of_false nofun fun hglides => absurd hglides.1 (not_lt.mpr harrived)
  · rw [if_neg harrived]
    by_cases hmoderate : distance < iconSize * 3
    · rw [if_pos hmoderate]
      exact iff_of_true rfl ⟨not_le.mp harrived, hmoderate⟩
    · rw [if_neg hmoderate]
      exact iff_of_false nofun fun hglides => hmoderate hglides.2

/-- Which steps glide. -/
theorem glided_iff : (tile.smoothPosition iconSize retracting).2 = true ↔
    Glides iconSize tile.way := by
  rw [← over_eq_glide_iff]
  have hfinite : ∀ p : Point ℝ, p.isFinite = true := fun _ => rfl
  unfold smoothPosition way
  cases Motion.over (tile.position.distance tile.target) iconSize with
  | glide => simp [hfinite]
  | arrive | jump => simp [hfinite]

/-- A glide leads by a part of the way. -/
theorem smoothPosition_of_glides (h : Glides iconSize tile.way) :
    (tile.smoothPosition iconSize retracting).1 =
      Point.blend tile.position tile.target (2.0 * leaveFactor retracting) := by
  have hglide : Motion.over (tile.position.distance tile.target) iconSize = .glide :=
    (over_eq_glide_iff _ _).mpr h
  unfold smoothPosition
  rw [hglide]
  rfl

/-- All else leads to the target at once. -/
theorem smoothPosition_of_not_glides (h : ¬ Glides iconSize tile.way) :
    (tile.smoothPosition iconSize retracting).1 = tile.target := by
  have hglide : Motion.over (tile.position.distance tile.target) iconSize ≠ .glide :=
    fun hglide => h ((over_eq_glide_iff _ _).mp hglide)
  unfold smoothPosition
  cases hover : Motion.over (tile.position.distance tile.target) iconSize with
  | glide => exact absurd hover hglide
  | arrive | jump => rfl

/-- A tile that glides is at its target only if it has been there before. -/
theorem eq_of_blend_eq (h : Point.blend tile.position tile.target (2.0 * leaveFactor retracting) =
    tile.target) : tile.position = tile.target := by
  have hcoef : (0 : ℝ) < 2.0 * leaveFactor retracting := by
    unfold leaveFactor
    simp only [ofScientific_real]
    cases retracting <;> norm_num
  have hblend : ∀ start goal : ℝ,
      FisheyeDock.blend start goal (2.0 * leaveFactor retracting) = goal → start = goal := by
    intro start goal hsame
    have hleft := blend_sub hcoef start goal
    rw [hsame, sub_self, zero_eq_mul] at hleft
    rcases hleft with hnone | hway
    · exact absurd hnone (div_pos hcoef (by linarith)).ne'
    · exact sub_eq_zero.mp hway
  obtain ⟨hx, hy⟩ := Point.mk.inj h
  exact congrArg₂ Point.mk (hblend _ _ hx) (hblend _ _ hy)

/-- What is at its target has no way to go. -/
theorem way_of_eq (h : tile.position = tile.target) : tile.way = 0 := by
  unfold way
  rw [h, Point.distance_real, sub_self, sub_self, mul_zero, add_zero, Real.sqrt_zero]

/-- No way is no glide. -/
theorem not_glides_zero (iconSize : ℝ) : ¬ Glides iconSize 0 := by
  rintro ⟨hlow, hhigh⟩
  linarith

end Tile

end FisheyeDock
