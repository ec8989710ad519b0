import Mathlib.Algebra.Order.Ring.Pow
import FisheyeDock.Proofs.Lens.Scale
import FisheyeDock.Proofs.Lens.Walks

/-! # The bell

    In exact arithmetic, the target scales of a row at rest that the lens is put on form a bell: they
    depend on how many tiles away the magnified one is, and on nothing else (`Lens.bell`).

    The scale of the wave begins below two and shrinks by at least a fifth at every step.  Three steps
    out it has fallen below one, where tiles do not take it over, and from there it does not come back.
    So it is of no account where the waves end (`Lens.magnify_bell`). -/

namespace FisheyeDock.Lens

/-- The scale of a tile that is some tiles away from the magnified one. -/
noncomputable def bell (s : Strengths ℝ) (away : Nat) : ℝ :=
  max 1 ((1 + 0.9 * s.magnify) * (0.8 - 0.2 * (1 - s.spread)) ^ away)

/-- The target scales of a row are those of a bell around one of its tiles. -/
structure IsBell (s : Strengths ℝ) (center : Nat) (tiles : List (Tile ℝ)) : Prop where
  scale : ∀ i tile, tiles[i]? = some tile → tile.targetScale = bell s (Nat.dist i center)
  symmetric : ∀ i j tile other, tiles[i]? = some tile → tiles[j]? = some other →
    Nat.dist i center = Nat.dist j center → tile.targetScale = other.targetScale
  falling : ∀ i j tile other, tiles[i]? = some tile → tiles[j]? = some other →
    Nat.dist i center ≤ Nat.dist j center → other.targetScale ≤ tile.targetScale
  bounded : ∀ tile ∈ tiles, 1 ≤ tile.targetScale ∧ tile.targetScale ≤ 1 + 9 / 10 * s.magnify

variable {g : Geometry ℝ} {s : Strengths ℝ}

/-! ## The wave falls below one -/

theorem decay_nonneg (mild : s.Mild) : 0 ≤ s.decay := (decay_pos mild.spread_nonneg).le

/-- The scale so many tiles away, in numbers. -/
theorem bell_eq (s : Strengths ℝ) (away : Nat) :
    bell s away = max 1 ((1 + 9 / 10 * s.magnify) * s.decay ^ away) := by
  rw [decay_real]
  unfold bell
  simp only [ofScientific_real]
  norm_num

/-- Three steps out, and from there on, the scale of the wave is at most one. -/
theorem wave_le_one (mild : s.Mild) {steps : Nat} (hsteps : 3 ≤ steps) :
    (1 + 9 / 10 * s.magnify) * s.decay ^ steps ≤ 1 := by
  have hlargest : 1 + 9 / 10 * s.magnify ≤ 19 / 10 := by linarith [mild.magnify_le_one]
  have hdecay : s.decay ^ steps ≤ (4 / 5) ^ 3 :=
    calc s.decay ^ steps ≤ (4 / 5) ^ steps :=
          pow_le_pow_left₀ (decay_nonneg mild) (decay_bounds mild).2 steps
      _ ≤ (4 / 5) ^ 3 := pow_le_pow_of_le_one (by norm_num) (by norm_num) hsteps
  calc (1 + 9 / 10 * s.magnify) * s.decay ^ steps ≤ 19 / 10 * (4 / 5) ^ 3 :=
        mul_le_mul hlargest hdecay (pow_nonneg (decay_nonneg mild) steps) (by norm_num)
    _ ≤ 1 := by norm_num

theorem bell_antitone (mild : s.Mild) : Antitone (bell s) := by
  intro near far hle
  have hlargest : 0 ≤ 1 + 9 / 10 * s.magnify := by linarith [mild.magnify_nonneg]
  have hpow : s.decay ^ far ≤ s.decay ^ near :=
    pow_le_pow_of_le_one (decay_nonneg mild) (decay_le_one mild.spread_le_one) hle
  rw [bell_eq, bell_eq]
  exact max_le_max le_rfl (mul_le_mul_of_nonneg_left hpow hlargest)

/-- At the center it is the largest one. -/
theorem bell_zero (mild : s.Mild) : bell s 0 = 1 + 9 / 10 * s.magnify := by
  rw [bell_eq, pow_zero, mul_one]
  exact max_eq_right (by linarith [mild.magnify_nonneg])

/-- A row with the scales of a bell has all that a bell has. -/
theorem IsBell.of_scale (mild : s.Mild) {center : Nat} {tiles : List (Tile ℝ)}
    (h : ∀ i tile, tiles[i]? = some tile → tile.targetScale = bell s (Nat.dist i center)) :
    IsBell s center tiles where
  scale := h
  symmetric := by
    intro i j tile other htile hother hdist
    rw [h i tile htile, h j other hother, hdist]
  falling := by
    intro i j tile other htile hother hdist
    rw [h i tile htile, h j other hother]
    exact bell_antitone mild hdist
  bounded := by
    intro tile hmem
    obtain ⟨i, htile⟩ := List.mem_iff_getElem?.mp hmem
    rw [h i tile htile, ← bell_zero mild]
    exact ⟨le_max_left _ _, bell_antitone mild (Nat.zero_le _)⟩

/-- The scales of a bell, in the order of the row. -/
theorem IsBell.map_targetScale {center : Nat} {tiles : List (Tile ℝ)} (h : IsBell s center tiles) :
    tiles.map Tile.targetScale =
      (List.range tiles.length).map fun i => bell s (Nat.dist i center) := by
  refine List.ext_getElem (by simp) fun i hi hi' => ?_
  rw [List.getElem_map, List.getElem_map, List.getElem_range]
  exact h.scale i _ (List.getElem?_eq_getElem _)

/-! ## One wave -/

/-- Over tiles at rest, a wave that would end below one gives every tile its own scale at that tile,
    or one, also where it does not reach. -/
theorem targetScale_spreadOut (mild : s.Mild) {direction : ℝ} {reach step : Nat} {wave : Wave ℝ}
    {tiles : List (Tile ℝ)} (hrest : ∀ tile ∈ tiles, tile.targetScale = 1)
    (hscale : 0 ≤ wave.scale) (hend : wave.scale * s.decay ^ reach ≤ 1) {tile : Tile ℝ}
    (htile : (spreadOut g s direction reach wave tiles)[step]? = some tile) :
    tile.targetScale = max 1 (wave.scale * s.decay ^ (step + 1)) := by
  induction tiles generalizing reach step wave with
  | nil =>
      rw [spreadOut_nil] at htile
      exact nomatch htile
  | cons first rest ih =>
      cases reach with
      | zero =>
          -- the wave has ended, and goes on falling
          have hone : wave.scale * s.decay ^ (step + 1) ≤ 1 := by
            rw [pow_zero, mul_one] at hend
            exact mul_le_one₀ hend (pow_nonneg (decay_nonneg mild) _)
              (pow_le_one₀ (decay_nonneg mild) (decay_le_one mild.spread_le_one))
          rw [hrest tile (List.mem_of_getElem? htile), max_eq_left hone]
      | succ reach =>
          cases step with
          | zero =>
              obtain rfl := Option.some.inj htile
              show (if 1.0 < wave.scale * s.decay then wave.scale * s.decay else first.targetScale) = _
              rw [one_real, hrest first List.mem_cons_self, zero_add, pow_one, max_def_lt]
          | succ step =>
              have hpow : ∀ steps, wave.scale * s.decay * s.decay ^ steps =
                  wave.scale * s.decay ^ (steps + 1) := by
                intro steps
                rw [pow_succ', mul_assoc]
              have hlater := ih (fun later hmem => hrest later (List.mem_cons_of_mem _ hmem))
                (mul_nonneg hscale (decay_nonneg mild)) (hpow reach ▸ hend) htile
              rw [hlater, hpow]

/-! ## A row -/

/-- A wave and the tile that it leaves, counted from that tile. -/
theorem targetScale_outward (mild : s.Mild) {direction : ℝ} {limit away : Nat} (hlimit : 3 ≤ limit)
    (focus : Focus ℝ) (center : Tile ℝ) {outward : List (Tile ℝ)}
    (hrest : ∀ tile ∈ outward, tile.targetScale = 1) {tile : Tile ℝ}
    (htile : (magnifyCenter g s focus center :: spreadOut g s direction limit
      (Wave.start g (magnifyCenter g s focus center)) outward)[away]? = some tile) :
    tile.targetScale = bell s away := by
  have hstart : (Wave.start g (magnifyCenter g s focus center)).scale = 1 + 9 / 10 * s.magnify :=
    targetScale_magnifyCenter g s focus center
  cases away with
  | zero =>
      obtain rfl := Option.some.inj htile
      rw [bell_zero mild]
      exact hstart
  | succ step =>
      have hnonneg : 0 ≤ 1 + 9 / 10 * s.magnify := by linarith [mild.magnify_nonneg]
      rw [bell_eq, ← hstart]
      exact targetScale_spreadOut mild hrest (hstart ▸ hnonneg) (hstart ▸ wave_le_one mild hlimit)
        htile

/-- The lens makes a bell of a row at rest, wherever its loop ends from the third step on. -/
theorem exists_isBell (mild : s.Mild) {limit : Nat} (hlimit : 3 ≤ limit) {focus : Focus ℝ}
    {tiles : List (Tile ℝ)} (hfocus : focus.index < tiles.length)
    (hnear : focus.distance < g.iconSize * 2) (hrest : ∀ tile ∈ tiles, tile.targetScale = 1) :
    ∃ tiles', magnifyWithin limit g s focus tiles = .ok (tiles', true) ∧
      tiles'.length = tiles.length ∧ IsBell s focus.index tiles' := by
  have hwithin : ¬ g.iconSize * 2.0 ≤ focus.distance := by
    simpa [isNear] using (isNear_real g focus).mpr hnear
  obtain ⟨center, right, hdrop⟩ : ∃ center right, tiles.drop focus.index = center :: right :=
    ⟨_, _, List.drop_eq_getElem_cons hfocus⟩
  obtain ⟨left, hindex, rfl⟩ := exists_around hdrop
  refine ⟨_, magnifyWithin_around limit hindex hwithin, by simp, IsBell.of_scale mild ?_⟩
  have hleft : left.length = (spreadOut g s (-1.0) limit
      (Wave.start g (magnifyCenter g s focus center)) left).length := (length_spreadOut ..).symm
  intro i tile htile
  rw [hindex]
  rcases Nat.le_total left.length i with hle | hle
  · obtain ⟨away, rfl⟩ : ∃ away, i = left.length + away := ⟨i - left.length, by omega⟩
    have haway : Nat.dist (left.length + away) left.length = away := by
      unfold Nat.dist
      omega
    rw [hleft, getElem?_onward] at htile
    rw [haway]
    refine targetScale_outward mild hlimit focus center (fun other hmem => ?_) htile
    exact hrest other (List.mem_append_right _ (List.mem_cons_of_mem _ hmem))
  · obtain ⟨away, hstep, rfl⟩ : ∃ away, away ≤ left.length ∧ i = left.length - away :=
      ⟨left.length - i, by omega, by omega⟩
    have haway : Nat.dist (left.length - away) left.length = away := by
      unfold Nat.dist
      omega
    rw [hleft] at hstep
    rw [hleft, getElem?_outward hstep] at htile
    rw [haway]
    refine targetScale_outward mild hlimit focus center (fun other hmem => ?_) htile
    exact hrest other (List.mem_append_left _ (List.mem_reverse.mpr hmem))

/-- **THE TARGET SCALES FORM A BELL.**  Put on a tile of a row at rest, the lens sends every tile to
    the scale of the bell at its distance from that tile.  So the scales are the same on both sides,
    fall outward, and lie between one and that of the magnified tile.  Any other limit of the loop
    from three steps on leads to the same scales. -/
theorem magnify_bell (mild : s.Mild) {focus : Focus ℝ} {tiles : List (Tile ℝ)}
    (hfocus : focus.index < tiles.length) (hnear : focus.distance < g.iconSize * 2) :
    ∃ tiles', magnify g s focus (tiles.map Tile.reset) = .ok (tiles', true) ∧
      tiles'.length = tiles.length ∧ IsBell s focus.index tiles' ∧
      ∀ limit, 3 ≤ limit → ∃ others,
        magnifyWithin limit g s focus (tiles.map Tile.reset) = .ok (others, true) ∧
        others.map Tile.targetScale = tiles'.map Tile.targetScale := by
  have hrest : ∀ tile ∈ tiles.map Tile.reset, tile.targetScale = 1 := by
    intro tile hmem
    obtain ⟨old, -, rfl⟩ := List.mem_map.mp hmem
    exact old.targetScale_reset
  have hfocus' : focus.index < (tiles.map Tile.reset).length := by rwa [List.length_map]
  have hbell : ∀ limit, 3 ≤ limit → ∃ tiles',
      magnifyWithin limit g s focus (tiles.map Tile.reset) = .ok (tiles', true) ∧
      tiles'.length = (tiles.map Tile.reset).length ∧ IsBell s focus.index tiles' :=
    fun limit hlimit => exists_isBell mild hlimit hfocus' hnear hrest
  obtain ⟨tiles', hmagnify, hlength, hscales⟩ := hbell 80 (by norm_num)
  have hinPlace := magnifyInPlace_eq g s focus (tiles.map Tile.reset)
  refine ⟨tiles', hinPlace.symm.trans hmagnify, hlength.trans (List.length_map _), hscales, ?_⟩
  intro limit hlimit
  obtain ⟨others, hothers, hlength', hscales'⟩ := hbell limit hlimit
  refine ⟨others, hothers, ?_⟩
  rw [hscales'.map_targetScale, hscales.map_targetScale, hlength', hlength]

/-! ### A row of two

    With all strengths at one, the tile next to the magnified one grows by about half. -/

/-- Two tiles under all effects, the pointer on the first one. -/
theorem magnify_bell_twoTiles : Strengths.Mild ⟨1, 1, 1⟩ ∧ 0 < [firstTile, secondTile].length ∧
    (0 : ℝ) < onFirst.iconSize * 2 ∧ ∃ tiles',
      magnify onFirst ⟨1, 1, 1⟩ ⟨0, 0, ⟨0, 0⟩⟩ ([firstTile, secondTile].map Tile.reset) =
        .ok (tiles', true) ∧
      tiles'.map Tile.targetScale = [19 / 10, 38 / 25] := by
  have hmild : Strengths.Mild ⟨1, 1, 1⟩ := ⟨zero_le_one, le_rfl, zero_le_one, le_rfl⟩
  have hfocus : 0 < [firstTile, secondTile].length := Nat.zero_lt_two
  have hnear : (0 : ℝ) < onFirst.iconSize * 2 := by
    rw [iconSize_onFirst]
    norm_num
  obtain ⟨tiles', hmagnify, hlength, hbell, -⟩ :=
    @magnify_bell onFirst ⟨1, 1, 1⟩ hmild ⟨0, 0, ⟨0, 0⟩⟩ [firstTile, secondTile] hfocus hnear
  refine ⟨hmild, hfocus, hnear, tiles', hmagnify, ?_⟩
  rw [hbell.map_targetScale, hlength]
  show [bell ⟨1, 1, 1⟩ 0, bell ⟨1, 1, 1⟩ 1] = _
  rw [bell_zero hmild, bell]
  simp only [ofScientific_real]
  norm_num

end FisheyeDock.Lens
