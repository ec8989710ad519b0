import Mathlib.Order.Interval.Set.UnorderedInterval
import FisheyeDock.Proofs.Frame.Step

/-! # Gliding to rest

    A tile that is stepped again and again, with the same target, glides for a while and then rests.
    It glides while its distance is between a hundredth of an icon size and three icon sizes.  Every
    such step leaves two thirds of the way, or fourteen nineteenths where no tile is magnified, so
    that there are nineteen of them at most (`Tile.exists_settles`).

    What is left of the scale is five sevenths or seven ninths of the way at every step.  In exact
    arithmetic the bound of one below never comes into play, as long as no scale was below one. -/

namespace FisheyeDock

namespace Tile

/-! ## Steps one after the other -/

section Steps

variable {α : Type} [Scalar α]

/-- A tile after some steps, where `retracting` tells of each step whether no tile is magnified. -/
def after (iconSize : α) (retracting : ℕ → Bool) (tile : Tile α) : ℕ → Tile α
  | 0 => tile
  | calls + 1 => ((after iconSize retracting tile calls).step iconSize (retracting calls)).1

/-- Whether a step glides. -/
def glidesAt (iconSize : α) (retracting : ℕ → Bool) (tile : Tile α) (call : ℕ) : Bool :=
  ((tile.after iconSize retracting call).step iconSize (retracting call)).2

/-- One more call smooths the scale, and moves the tile. -/
theorem after_succ (iconSize : α) (retracting : ℕ → Bool) (tile : Tile α) (calls : ℕ) :
    tile.after iconSize retracting (calls + 1) = { tile.after iconSize retracting calls with
      scale := (tile.after iconSize retracting calls).smoothScale (retracting calls)
      position := ((tile.after iconSize retracting calls).smoothPosition iconSize
        (retracting calls)).1 } := rfl

/-- Steps change nothing about a tile but its position and its scale. -/
theorem after_eq (iconSize : α) (retracting : ℕ → Bool) (tile : Tile α) (calls : ℕ) :
    ∃ position scale, tile.after iconSize retracting calls = { tile with position, scale } := by
  induction calls with
  | zero => exact ⟨tile.position, tile.scale, rfl⟩
  | succ calls ih =>
      obtain ⟨position, scale, hbefore⟩ := ih
      rw [after_succ, hbefore]
      exact ⟨_, _, rfl⟩

/-- What a tile aims at stays while it is animated. -/
theorem target_after (iconSize : α) (retracting : ℕ → Bool) (tile : Tile α) (calls : ℕ) :
    (tile.after iconSize retracting calls).target = tile.target ∧
      (tile.after iconSize retracting calls).targetScale = tile.targetScale := by
  obtain ⟨position, scale, hafter⟩ := after_eq iconSize retracting tile calls
  rw [hafter]
  exact ⟨rfl, rfl⟩

end Steps

/-! ## What is left of the way -/

/-- What a step that glides leaves of the way. -/
noncomputable def wayKept (retracting : Bool) : ℝ := if retracting then 14.0 / 19.0 else 2.0 / 3.0

/-- What a step leaves of the difference to the target scale. -/
noncomputable def scaleKept (retracting : Bool) : ℝ := if retracting then 7.0 / 9.0 else 5.0 / 7.0

/-- What a glide leaves of the way is two thirds, or fourteen nineteenths while the dock
    retracts. -/
theorem wayKept_eq (retracting : Bool) :
    wayKept retracting = if retracting then 14 / 19 else 2 / 3 := by
  unfold wayKept
  simp only [ofScientific_real]
  norm_num

/-- What a call leaves of the scale is five sevenths, or seven ninths while the dock retracts. -/
theorem scaleKept_eq (retracting : Bool) :
    scaleKept retracting = if retracting then 7 / 9 else 5 / 7 := by
  unfold scaleKept
  simp only [ofScientific_real]
  norm_num

/-- A point has come nearer to a target, on the straight way to it. -/
structure Nears (kept : ℝ) (target before after : Point ℝ) : Prop where
  x : after.x - target.x = kept * (before.x - target.x)
  y : after.y - target.y = kept * (before.y - target.y)
  distance : after.distance target = kept * before.distance target

variable {tile : Tile ℝ} {iconSize : ℝ}

theorem wayKept_bounds (retracting : Bool) :
    0 ≤ wayKept retracting ∧ wayKept retracting ≤ 14 / 19 := by
  rw [wayKept_eq]
  split <;> norm_num

theorem scaleKept_bounds (retracting : Bool) :
    0 ≤ scaleKept retracting ∧ scaleKept retracting ≤ 1 := by
  rw [scaleKept_eq]
  split <;> norm_num

/-- What leaves the same part of both coordinates leaves that part of the way. -/
theorem Nears.of_sub {kept : ℝ} (hkept : 0 ≤ kept) {target before after : Point ℝ}
    (hx : after.x - target.x = kept * (before.x - target.x))
    (hy : after.y - target.y = kept * (before.y - target.y)) : Nears kept target before after where
  x := hx
  y := hy
  distance := by
    have hsquares : ∀ a b : ℝ, kept * a * (kept * a) + kept * b * (kept * b) =
        kept ^ 2 * (a * a + b * b) := by
      intro a b
      ring
    rw [Point.distance_real, Point.distance_real, hx, hy, hsquares,
      Real.sqrt_mul (sq_nonneg kept), Real.sqrt_sq hkept]

/-- A step that glides leads straight toward the target. -/
theorem nears_blend (start goal : Point ℝ) (retracting : Bool) :
    Nears (wayKept retracting) goal start
      (Point.blend start goal (2.0 * leaveFactor retracting)) := by
  have hcoef : (0 : ℝ) < 2.0 * leaveFactor retracting := by
    unfold leaveFactor
    simp only [ofScientific_real]
    cases retracting <;> norm_num
  have hkept : (2.0 * leaveFactor retracting : ℝ) / (2.0 * leaveFactor retracting + 1) =
      wayKept retracting := by
    rw [wayKept_eq]
    unfold leaveFactor
    simp only [ofScientific_real]
    cases retracting <;> norm_num
  rw [← hkept]
  exact .of_sub (by positivity) (blend_sub hcoef _ _) (blend_sub hcoef _ _)

/-- What a step leaves of the scale, between scales of one or more. -/
theorem smoothScale_kept (retracting : Bool) (hscale : 1 ≤ tile.scale)
    (htarget : 1 ≤ tile.targetScale) : tile.smoothScale retracting - tile.targetScale =
      scaleKept retracting * (tile.scale - tile.targetScale) := by
  rw [smoothScale_sub hscale htarget, inertia_eq, scaleKept_eq]
  cases retracting <;> norm_num

/-! ## Runs of steps -/

section Runs

variable {retracting : ℕ → Bool} {call : ℕ}

/-- A call glides exactly if the way before it is one for a glide. -/
theorem glidesAt_iff : tile.glidesAt iconSize retracting call = true ↔
    Glides iconSize (tile.after iconSize retracting call).way := glided_iff

/-- A step of a run that glides. -/
theorem nears_after (h : tile.glidesAt iconSize retracting call = true) :
    Nears (wayKept (retracting call)) tile.target (tile.after iconSize retracting call).position
      (tile.after iconSize retracting (call + 1)).position := by
  have hnears := nears_blend (tile.after iconSize retracting call).position
    (tile.after iconSize retracting call).target (retracting call)
  rw [← smoothPosition_of_glides (glidesAt_iff.mp h), (target_after ..).1] at hnears
  exact hnears

/-- A step of a run that does not. -/
theorem position_after (h : ¬ tile.glidesAt iconSize retracting call = true) :
    (tile.after iconSize retracting (call + 1)).position = tile.target := by
  rw [after_succ, ← (target_after iconSize retracting tile call).1]
  exact smoothPosition_of_not_glides fun hglides => h (glidesAt_iff.mpr hglides)

/-- A tile that is at its target does not glide. -/
theorem not_glidesAt (h : (tile.after iconSize retracting call).position = tile.target) :
    ¬ tile.glidesAt iconSize retracting call = true := by
  rw [← (target_after iconSize retracting tile call).1] at h
  rw [glidesAt_iff, way_of_eq h]
  exact not_glides_zero iconSize

/-- After a step that does not glide, a tile is at its target and does not glide any more. -/
theorem rests_after (h : ¬ tile.glidesAt iconSize retracting call = true) {later : ℕ}
    (hlater : call < later) :
    (tile.after iconSize retracting later).position = tile.target ∧
      ¬ tile.glidesAt iconSize retracting later = true := by
  induction later, hlater using Nat.le_induction with
  | base => exact ⟨position_after h, not_glidesAt (position_after h)⟩
  | succ later _ ih => exact ⟨position_after ih.2, not_glidesAt (position_after ih.2)⟩

/-- As long as a tile glides, fourteen nineteenths of the way are left by every step, or less. -/
theorem way_after_le {calls : ℕ}
    (h : ∀ call < calls, tile.glidesAt iconSize retracting call = true) :
    (tile.after iconSize retracting calls).way ≤ (14 / 19) ^ calls * tile.way := by
  induction calls with
  | zero =>
      rw [pow_zero, one_mul]
      exact le_rfl
  | succ calls ih =>
      have hbefore := ih fun call hcall => h call (Nat.lt_succ_of_lt hcall)
      have hnears := (nears_after (h calls (Nat.lt_succ_self calls))).distance
      unfold way at hbefore ⊢
      rw [(target_after ..).1] at hbefore ⊢
      obtain ⟨hnonneg, hkept⟩ := wayKept_bounds (retracting calls)
      calc (tile.after iconSize retracting (calls + 1)).position.distance tile.target
          = wayKept (retracting calls) *
              (tile.after iconSize retracting calls).position.distance tile.target := hnears
        _ ≤ 14 / 19 * ((14 / 19) ^ calls * tile.position.distance tile.target) :=
            mul_le_mul hkept hbefore (Point.distance_nonneg _ _) (by norm_num)
        _ = (14 / 19) ^ (calls + 1) * tile.position.distance tile.target := by ring

/-- No twenty steps in a row glide: from less than three icon sizes, nineteen of them lead to a
    hundredth of an icon size. -/
theorem exists_not_glidesAt (tile : Tile ℝ) (iconSize : ℝ) (retracting : ℕ → Bool) :
    ∃ call ≤ 19, ¬ tile.glidesAt iconSize retracting call = true := by
  by_contra hall
  push Not at hall
  obtain ⟨hfirst, hnear⟩ := glidesAt_iff.mp (hall 0 (Nat.zero_le 19))
  obtain ⟨hlast, -⟩ := glidesAt_iff.mp (hall 19 le_rfl)
  have hway : (tile.after iconSize retracting 19).way ≤ (14 / 19) ^ 19 * tile.way :=
    way_after_le fun call hcall => hall call (Nat.le_of_lt hcall)
  have hfactor : ((14 : ℝ) / 19) ^ 19 ≤ 1 / 300 := by norm_num
  have hsize : 0 < iconSize := by linarith
  have hstart : tile.way < iconSize * 3 := hnear
  have hleft : (14 / 19) ^ 19 * tile.way ≤ 1 / 300 * (iconSize * 3) :=
    mul_le_mul hfactor hstart.le (Point.distance_nonneg _ _) (by norm_num)
  linarith

end Runs

/-! ## The whole way -/

/-- What steps with one target do to a tile that glides `count` times: it glides at once and
    straight toward its target, and then is there and stays there.  Its scale approaches the target
    scale at every step, and neither goes past it. -/
structure Settles (iconSize : ℝ) (retracting : ℕ → Bool) (tile : Tile ℝ) (count : ℕ) : Prop where
  moves : ∀ calls, ∃ position scale,
    tile.after iconSize retracting calls = { tile with position, scale }
  glides : ∀ call, tile.glidesAt iconSize retracting call = true ↔ call < count
  nears : ∀ call < count, Nears (wayKept (retracting call)) tile.target
    (tile.after iconSize retracting call).position
    (tile.after iconSize retracting (call + 1)).position
  rests : ∀ calls, count < calls → (tile.after iconSize retracting calls).position = tile.target
  scales : ∀ call, 1 ≤ (tile.after iconSize retracting call).scale → 1 ≤ tile.targetScale →
    (tile.after iconSize retracting (call + 1)).scale - tile.targetScale =
      scaleKept (retracting call) *
        ((tile.after iconSize retracting call).scale - tile.targetScale)
  between : ∀ calls,
    (tile.after iconSize retracting calls).position.x ∈ Set.uIcc tile.position.x tile.target.x ∧
    (tile.after iconSize retracting calls).position.y ∈ Set.uIcc tile.position.y tile.target.y ∧
    (1 ≤ tile.scale → 1 ≤ tile.targetScale →
      (tile.after iconSize retracting calls).scale ∈ Set.uIcc tile.scale tile.targetScale)

/-- What has come nearer to a goal has not gone past it. -/
theorem mem_uIcc_of_kept {kept start goal before after : ℝ} (hkept : 0 ≤ kept ∧ kept ≤ 1)
    (h : before ∈ Set.uIcc start goal) (hafter : after - goal = kept * (before - goal)) :
    after ∈ Set.uIcc start goal := by
  obtain ⟨hnonneg, hone⟩ := hkept
  rw [Set.mem_uIcc] at h ⊢
  rcases h with ⟨hstart, hgoal⟩ | ⟨hgoal, hstart⟩
  · have hleft := mul_nonneg hnonneg (sub_nonneg.mpr hgoal)
    have hgone := mul_nonneg (sub_nonneg.mpr hone) (sub_nonneg.mpr hgoal)
    exact .inl ⟨by linarith, by linarith⟩
  · have hleft := mul_nonneg hnonneg (sub_nonneg.mpr hgoal)
    have hgone := mul_nonneg (sub_nonneg.mpr hone) (sub_nonneg.mpr hgoal)
    exact .inr ⟨by linarith, by linarith⟩

section Runs

variable {retracting : ℕ → Bool}

/-- A scale comes nearer to what it aims at by the same part each time. -/
theorem scale_after {call : ℕ} (hscale : 1 ≤ (tile.after iconSize retracting call).scale)
    (htarget : 1 ≤ tile.targetScale) :
    (tile.after iconSize retracting (call + 1)).scale - tile.targetScale =
      scaleKept (retracting call) *
        ((tile.after iconSize retracting call).scale - tile.targetScale) := by
  have hsame := (target_after iconSize retracting tile call).2
  rw [← hsame] at htarget ⊢
  exact smoothScale_kept (retracting call) hscale htarget

/-- No run leads past the target. -/
theorem position_mem_uIcc (calls : ℕ) :
    (tile.after iconSize retracting calls).position.x ∈ Set.uIcc tile.position.x tile.target.x ∧
      (tile.after iconSize retracting calls).position.y ∈
        Set.uIcc tile.position.y tile.target.y := by
  induction calls with
  | zero => exact ⟨Set.left_mem_uIcc, Set.left_mem_uIcc⟩
  | succ calls ih =>
      by_cases hglides : tile.glidesAt iconSize retracting calls = true
      · have hnears := nears_after hglides
        have hkept : 0 ≤ wayKept (retracting calls) ∧ wayKept (retracting calls) ≤ 1 :=
          (wayKept_bounds _).imp_right fun hle => hle.trans (by norm_num)
        exact ⟨mem_uIcc_of_kept hkept ih.1 hnears.x, mem_uIcc_of_kept hkept ih.2 hnears.y⟩
      · rw [position_after hglides]
        exact ⟨Set.right_mem_uIcc, Set.right_mem_uIcc⟩

/-- Nor past the target scale. -/
theorem scale_mem_uIcc (hscale : 1 ≤ tile.scale) (htarget : 1 ≤ tile.targetScale) (calls : ℕ) :
    (tile.after iconSize retracting calls).scale ∈ Set.uIcc tile.scale tile.targetScale := by
  induction calls with
  | zero => exact Set.left_mem_uIcc
  | succ calls ih =>
      have hone : 1 ≤ (tile.after iconSize retracting calls).scale :=
        (le_inf hscale htarget).trans ih.1
      exact mem_uIcc_of_kept (scaleKept_bounds _) ih (scale_after hone htarget)

end Runs

/-- **A TILE GLIDES TO ITS TARGET AND RESTS.**  From wherever it is, a tile with an unchanged target
    glides at most nineteen times, without a break, is at its target after the next step, and does not
    move any more.  The icon size is any number, and so is how gentle each of the steps is. -/
theorem exists_settles (tile : Tile ℝ) (iconSize : ℝ) (retracting : ℕ → Bool) :
    ∃ count ≤ 19, tile.Settles iconSize retracting count := by
  obtain ⟨first, hfirst, hstill⟩ := exists_not_glidesAt tile iconSize retracting
  have hstop : ∃ call, ¬ tile.glidesAt iconSize retracting call = true := ⟨first, hstill⟩
  have hle : Nat.find hstop ≤ 19 := (Nat.find_min' hstop hstill).trans hfirst
  have hrests := Nat.find_spec hstop
  have hglides : ∀ call < Nat.find hstop, tile.glidesAt iconSize retracting call = true :=
    fun call hcall => not_not.mp (Nat.find_min hstop hcall)
  generalize Nat.find hstop = count at hle hrests hglides
  refine ⟨count, hle, ?_⟩
  constructor
  case moves => exact after_eq iconSize retracting tile
  case glides =>
    intro call
    refine ⟨fun hcall => ?_, hglides call⟩
    by_contra hlater
    rcases (not_lt.mp hlater).eq_or_lt with rfl | hlt
    · exact hrests hcall
    · exact (rests_after hrests hlt).2 hcall
  case nears => exact fun call hcall => nears_after (hglides call hcall)
  case rests => exact fun calls hcalls => (rests_after hrests hcalls).1
  case scales => exact fun call hscale htarget => scale_after hscale htarget
  case between =>
    intro calls
    obtain ⟨hx, hy⟩ := @position_mem_uIcc tile iconSize retracting calls
    exact ⟨hx, hy, fun hscale htarget => scale_mem_uIcc hscale htarget calls⟩

/-- Nineteen steps are not too many to expect: where every step is gentle, a tile glides so often from
    just below three icon sizes. -/
theorem glidesAt_of_gentle (hstart : iconSize * (29 / 10) ≤ tile.way)
    (hnear : tile.way < iconSize * 3) {call : ℕ} (hcall : call < 19) :
    tile.glidesAt iconSize (fun _ => true) call = true := by
  have hsize : 0 < iconSize := by linarith
  have hglides : ∀ calls < 19,
      (tile.after iconSize (fun _ => true) calls).way = (14 / 19) ^ calls * tile.way →
      tile.glidesAt iconSize (fun _ => true) calls = true := by
    intro calls hcalls hway
    have hlow : (1 : ℝ) / 280 ≤ (14 / 19) ^ calls :=
      calc (1 : ℝ) / 280 ≤ (14 / 19) ^ 18 := by norm_num
        _ ≤ (14 / 19) ^ calls :=
          pow_le_pow_of_le_one (by norm_num) (by norm_num) (Nat.le_of_lt_succ hcalls)
    have hhigh : ((14 : ℝ) / 19) ^ calls ≤ 1 := pow_le_one₀ (by norm_num) (by norm_num)
    have hleft := mul_le_mul hlow hstart (by positivity) (by positivity)
    have hright := mul_le_of_le_one_left (Point.distance_nonneg tile.position tile.target) hhigh
    rw [glidesAt_iff, hway]
    exact ⟨by linarith, lt_of_le_of_lt hright hnear⟩
  have hways : ∀ calls < 19,
      (tile.after iconSize (fun _ => true) calls).way = (14 / 19) ^ calls * tile.way := by
    intro calls
    induction calls with
    | zero =>
        intro _
        rw [pow_zero, one_mul]
        rfl
    | succ calls ih =>
        intro hcalls
        have hbefore := ih (Nat.lt_of_succ_lt hcalls)
        have hnears := (nears_after (hglides calls (Nat.lt_of_succ_lt hcalls) hbefore)).distance
        unfold way at hbefore ⊢
        rw [(target_after ..).1] at hbefore ⊢
        rw [hnears, hbefore, wayKept_eq, if_pos rfl, pow_succ', mul_assoc]
  exact hglides call hcall (hways call hcall)

end Tile

end FisheyeDock
