import Mathlib.Analysis.Real.Sqrt
import Mathlib.Data.Nat.Dist
import Mathlib.Tactic.GCongr
import FisheyeDock.Lens
import FisheyeDock.Proofs.Row.Identity
import FisheyeDock.Proofs.Row.Order

/-! # The two ends of the dock

    The wave moves tiles toward higher coordinates after the magnified tile and toward lower ones
    before it, where before and after are those of the order of the row.  Counted from the end with
    the lower coordinates this is outward.  Counted from the other end the order is reversed, and the
    same tiles are moved inward.

    `endsAgree_iff` says what follows for a row on a line.  All tiles grow to the same scale from
    either end.  The magnified tile has the same target, and so have the tiles that no wave reaches
    and those that it pins to their place, without spread.  Every other tile has two targets. -/

namespace FisheyeDock.Lens

/-! ## A round of the lens -/

/-- Orders a row from an anchor, sends it back to rest, and puts the lens on the nearest tile. -/
def round {α : Type} [Scalar α] (g : Geometry α) (s : Strengths α) (anchor : Point α)
    (row : Row α) : Except Fault (List (Tile α) × Bool) :=
  let resting := (row.arrange anchor).reset.tiles
  match nearest? g resting with
  | some focus => magnify g s focus resting
  | none => .ok (resting, false)

/-- What turns the tiles of one dock into those of another, so that the lens does the same to them at
    every place, turns the one outcome into the other. -/
theorem magnify_map {α : Type} [Scalar α] {g g' : Geometry α} {s : Strengths α}
    {focus focus' : Focus α} (f : Tile α → Tile α) (hnear : isNear g' focus' = isNear g focus)
    (hindex : focus'.index = focus.index)
    (hat : ∀ before tile after, magnifyAt g' s focus' (before.map f) (f tile) (after.map f) =
      (magnifyAt g s focus before tile after).map f) (tiles : List (Tile α)) :
    magnify g' s focus' (tiles.map f) =
      (magnify g s focus tiles).map fun result => (result.1.map f, result.2) := by
  unfold magnify
  rw [hnear, hindex, ← List.map_drop, ← List.map_take]
  by_cases hlens : isNear g focus = true
  · rw [if_pos hlens, if_pos hlens]
    cases tiles.drop focus.index with
    | nil =>
        show Except.error (Fault.indexOutOfBounds (tiles.map f).length _) = _
        rw [List.length_map]
        rfl
    | cons tile after =>
        show Except.ok (magnifyAt g' s focus' _ (f tile) _, true) = _
        rw [hat]
        rfl
  · rw [if_neg hlens, if_neg hlens]
    rfl

/-- One tile is within reach of the pointer and nearer to it than every other. -/
structure IsNearest (g : Geometry ℝ) (tiles : List (Tile ℝ)) (tile : Tile ℝ) : Prop where
  mem : tile ∈ tiles
  hit : pointerDistance g tile < hitRadius g
  nearer : ∀ other ∈ tiles, other ≠ tile → pointerDistance g tile < pointerDistance g other

/-! ## The nearest tile -/

/-- What a search finds is what was known before it, or a visible tile within reach. -/
theorem nearestFrom_cases {α : Type} [Scalar α] {g : Geometry α} {best : Option (Focus α)}
    {start : Nat} {tiles : List (Tile α)} {focus : Focus α}
    (h : nearestFrom g best start tiles = some focus) : best = some focus ∨
      ∃ i tile, tiles[i]? = some tile ∧ tile.visible = true ∧
        pointerDistance g tile < hitRadius g ∧ focus = focusOn g (start + i) tile := by
  induction tiles generalizing best start with
  | nil => exact .inl h
  | cons first rest ih =>
      unfold nearestFrom at h
      rcases ih h with hbest | ⟨i, tile, htile, hvisible, hhit, rfl⟩
      · by_cases himproves : improves g first best = true
        · rw [if_pos himproves] at hbest
          obtain rfl := Option.some.inj hbest
          unfold improves at himproves
          rw [Bool.and_eq_true, Bool.and_eq_true, decide_eq_true_eq] at himproves
          exact .inr ⟨0, first, rfl, himproves.1.1, himproves.1.2, rfl⟩
        · rw [if_neg himproves] at hbest
          exact .inl hbest
      · refine .inr ⟨i + 1, tile, htile, hvisible, hhit, ?_⟩
        rw [Nat.add_assoc, Nat.add_comm 1 i]

/-- The lens is put on a visible tile within reach of the pointer. -/
theorem focus_of_nearest? {α : Type} [Scalar α] {g : Geometry α} {tiles : List (Tile α)}
    {focus : Focus α} (h : nearest? g tiles = some focus) :
    ∃ i tile, tiles[i]? = some tile ∧ tile.visible = true ∧
      pointerDistance g tile < hitRadius g ∧ focus = focusOn g i tile := by
  rcases nearestFrom_cases h with hnone | ⟨i, tile, htile, hvisible, hhit, rfl⟩
  · exact nomatch hnone
  · exact ⟨i, tile, htile, hvisible, hhit, by rw [Nat.zero_add]⟩

section Nearest

variable {g : Geometry ℝ} {tile : Tile ℝ}

/-- What is farther from the pointer does not improve on the best. -/
theorem not_improves {best : Tile ℝ} {index : Nat}
    (h : pointerDistance g best < pointerDistance g tile) :
    ¬ improves g tile (some (focusOn g index best)) = true := by
  unfold improves
  intro himproves
  rw [Bool.and_eq_true, Bool.and_eq_true] at himproves
  have hlt : pointerDistance g tile < pointerDistance g best := of_decide_eq_true himproves.2
  exact lt_asymm h hlt

/-- Tiles that are farther away do not change what has been found. -/
theorem nearestFrom_of_nearer {best : Tile ℝ} {index start : Nat} {tiles : List (Tile ℝ)}
    (h : ∀ other ∈ tiles, pointerDistance g best < pointerDistance g other) :
    nearestFrom g (some (focusOn g index best)) start tiles = some (focusOn g index best) := by
  induction tiles generalizing start with
  | nil => rfl
  | cons other rest ih =>
      unfold nearestFrom
      rw [if_neg (not_improves (h other List.mem_cons_self))]
      exact ih fun later hlater => h later (List.mem_cons_of_mem _ hlater)

/-- The search finds a tile that is nearer than all before it and all after it. -/
theorem nearestFrom_append {best : Option (Focus ℝ)} {start : Nat} {before after : List (Tile ℝ)}
    (hvisible : tile.visible = true) (hhit : pointerDistance g tile < hitRadius g)
    (hbest : ∀ focus, best = some focus → pointerDistance g tile < focus.distance)
    (hbefore : ∀ other ∈ before, pointerDistance g tile < pointerDistance g other)
    (hafter : ∀ other ∈ after, pointerDistance g tile < pointerDistance g other) :
    nearestFrom g best start (before ++ tile :: after) =
      some (focusOn g (start + before.length) tile) := by
  induction before generalizing best start with
  | nil =>
      have himproves : improves g tile best = true := by
        unfold improves
        rw [hvisible, decide_eq_true hhit]
        cases best with
        | none => rfl
        | some focus => exact decide_eq_true (hbest focus rfl)
      show nearestFrom g (if improves g tile best then _ else _) (start + 1) after = _
      rw [if_pos himproves]
      exact nearestFrom_of_nearer hafter
  | cons other rest ih =>
      have hother := hbefore other List.mem_cons_self
      have hnext : ∀ focus, (if improves g other best then some (focusOn g start other) else best)
          = some focus → pointerDistance g tile < focus.distance := by
        intro focus hfocus
        by_cases himproves : improves g other best = true
        · rw [if_pos himproves] at hfocus
          obtain rfl := Option.some.inj hfocus
          exact hother
        · rw [if_neg himproves] at hfocus
          exact hbest focus hfocus
      rw [List.length_cons, Nat.add_comm rest.length 1, ← Nat.add_assoc]
      exact ih hnext fun later hlater => hbefore later (List.mem_cons_of_mem _ hlater)

end Nearest

/-! ## Waves that run in opposite directions -/

section Waves

variable {g : Geometry ℝ} {s : Strengths ℝ}

/-- How fast a wave decays: between three and four fifths for a spread in range. -/
theorem decay_real (s : Strengths ℝ) : s.decay = 4 / 5 - 1 / 5 * (1 - s.spread) := by
  unfold Strengths.decay
  simp only [ofScientific_real]
  norm_num

theorem decay_pos (hspread : 0 ≤ s.spread) : 0 < s.decay := by
  rw [decay_real]
  linarith

/-- Effects spread exactly if the spread is not zero. -/
theorem spreads_iff : s.spreads = true ↔ s.spread ≠ 0 := by
  unfold Strengths.spreads
  rw [Bool.not_eq_true', ← Bool.not_eq_true, Scalar.isZero_real]

/-- Without spread, tiles keep their place. -/
theorem neighborInline_pinned (hspread : s.spread = 0) {direction scale : ℝ} {wave : Wave ℝ}
    {tile : Tile ℝ} : neighborInline g s direction wave scale tile = tile.place g.edge := by
  unfold neighborInline
  rw [if_neg fun hspreads => spreads_iff.mp hspreads hspread]
  rfl

/-- Two waves over the same tiles, of which one pushes toward higher coordinates and the other
    toward lower ones, drift apart. -/
theorem neighborInline_lt (hsize : 0 < g.iconSize) (hfactor : 0 < g.scaleFactor)
    (hspreads : s.spread ≠ 0) {up down : Wave ℝ} (hpull : 0 < up.pull) (hpull' : down.pull = up.pull)
    (hinner : down.inner ≤ up.inner) {scale : ℝ} (hscale : 0 < scale) (tile : Tile ℝ) :
    neighborInline g s (-1) down scale tile < neighborInline g s 1 up scale tile := by
  unfold neighborInline
  rw [if_pos (spreads_iff.mpr hspreads), if_pos (spreads_iff.mpr hspreads), hpull']
  simp only [ofScientific_real]
  norm_num
  -- the pull toward what the waves passed keeps their order, and the push parts them
  have hpush : 0 < g.iconSize * (scale + 1 / 5) * g.scaleFactor := by positivity
  have hpulled : (g.edge.inlineAxis.of tile.target + down.inner * up.pull) / (up.pull + 1) ≤
      (g.edge.inlineAxis.of tile.target + up.inner * up.pull) / (up.pull + 1) := by
    gcongr
  linarith

/-- Two waves that run over the same tiles in opposite directions leave every tile with one scale,
    and with one target exactly where they do not move it: they are at their end, or without
    spread. -/
theorem spreadOut_opposite (hsize : 0 < g.iconSize) (hfactor : 0 < g.scaleFactor)
    (hspread : 0 ≤ s.spread) {reach : Nat} {up down : Wave ℝ} {tiles : List (Tile ℝ)}
    (hscale : 0 < up.scale) (hscale' : down.scale = up.scale) (hpull : 0 < up.pull)
    (hpull' : down.pull = up.pull) (hinner : down.inner ≤ up.inner) {i : Nat} {tile tile' : Tile ℝ}
    (htile : (spreadOut g s 1 reach up tiles)[i]? = some tile)
    (htile' : (spreadOut g s (-1) reach down tiles)[i]? = some tile') :
    tile.targetScale = tile'.targetScale ∧
      (tile.target = tile'.target ↔ s.spread = 0 ∨ reach ≤ i) := by
  induction tiles generalizing reach up down i with
  | nil => cases reach <;> exact nomatch htile
  | cons first rest ih =>
      cases reach with
      | zero =>
          rw [show tile' = tile from Option.some.inj (htile'.symm.trans htile)]
          exact ⟨rfl, fun _ => .inr (Nat.zero_le i), fun _ => rfl⟩
      | succ reach =>
          have hnext : 0 < up.scale * s.decay := mul_pos hscale (decay_pos hspread)
          have hnext' : down.scale * s.decay = up.scale * s.decay := by rw [hscale']
          unfold spreadOut at htile htile'
          dsimp only at htile htile'
          rw [hnext'] at htile'
          -- the waves part at the first tile, and stay apart from there on
          have hparts : s.spread ≠ 0 →
              neighborInline g s (-1) down (up.scale * s.decay) first <
                neighborInline g s 1 up (up.scale * s.decay) first :=
            fun hmoves => neighborInline_lt hsize hfactor hmoves hpull hpull' hinner hnext first
          cases i with
          | zero =>
              obtain rfl := Option.some.inj htile
              obtain rfl := Option.some.inj htile'
              refine ⟨rfl, ?_, ?_⟩
              · intro hsame
                by_contra hmoves
                have hlt := hparts fun hzero => hmoves (.inl hzero)
                have hof := congrArg g.edge.inlineAxis.of hsame
                dsimp only at hof
                rw [Axis.of_set, Axis.of_set] at hof
                exact absurd hof (ne_of_gt hlt)
              · rintro (hzero | hend)
                · show g.edge.inlineAxis.set _ _ = g.edge.inlineAxis.set _ _
                  rw [neighborInline_pinned hzero, neighborInline_pinned hzero]
                · exact absurd hend (Nat.not_succ_le_zero reach)
          | succ i =>
              rw [List.getElem?_cons_succ] at htile htile'
              have hle : neighborInline g s (-1) down (up.scale * s.decay) first ≤
                  neighborInline g s 1 up (up.scale * s.decay) first := by
                by_cases hzero : s.spread = 0
                · rw [neighborInline_pinned hzero, neighborInline_pinned hzero]
                · exact (hparts hzero).le
              rw [Nat.succ_le_succ_iff]
              refine ih hnext ?_ ?_ ?_ hle htile htile'
              · rfl
              · show 0 < up.pull * 0.9
                rw [ofScientific_real]
                positivity
              · show down.pull * 0.9 = up.pull * 0.9
                rw [hpull']

end Waves

/-! ## The lens from both ends -/

section Ends

variable {g : Geometry ℝ} {s : Strengths ℝ}

/-- The center is magnified, and a wave goes out to either side of it. -/
theorem magnifyAt_real (focus : Focus ℝ) (before : List (Tile ℝ)) (tile : Tile ℝ)
    (after : List (Tile ℝ)) : magnifyAt g s focus before tile after =
      (spreadOut g s (-1) waveReach (Wave.start g (magnifyCenter g s focus tile))
        before.reverse).reverse ++ magnifyCenter g s focus tile ::
      spreadOut g s 1 waveReach (Wave.start g (magnifyCenter g s focus tile)) after := by
  have hone : @OfScientific.ofScientific ℝ Scalar.toOfScientific 10 true 1 = 1 := by
    rw [ofScientific_real]
    norm_num
  unfold magnifyAt
  rw [hone]

/-- The same tiles from the other end: their order is reversed, and so is that of the result, but
    the waves have changed sides. -/
theorem reverse_magnifyAt (focus : Focus ℝ) (before : List (Tile ℝ)) (tile : Tile ℝ)
    (after : List (Tile ℝ)) : (magnifyAt g s focus after.reverse tile before.reverse).reverse =
      (spreadOut g s 1 waveReach (Wave.start g (magnifyCenter g s focus tile))
        before.reverse).reverse ++ magnifyCenter g s focus tile ::
      spreadOut g s (-1) waveReach (Wave.start g (magnifyCenter g s focus tile)) after := by
  rw [magnifyAt_real, List.reverse_append, List.reverse_cons, List.reverse_reverse,
    List.reverse_reverse, List.append_assoc]
  rfl

/-- Place by place, the lens gives one scale from both ends, and one target to the magnified tile and
    where the waves do not move a tile. -/
theorem magnifyAt_opposite (hsize : 0 < g.iconSize) (hfactor : 0 < g.scaleFactor)
    (hmagnify : 0 ≤ s.magnify) (hspread : 0 ≤ s.spread) {focus : Focus ℝ}
    {before after : List (Tile ℝ)} {center : Tile ℝ} {i : Nat} {tile tile' : Tile ℝ}
    (htile : (magnifyAt g s focus before center after)[i]? = some tile)
    (htile' : (magnifyAt g s focus after.reverse center before.reverse).reverse[i]? = some tile') :
    tile.targetScale = tile'.targetScale ∧
      (tile.target = tile'.target ↔
        s.spread = 0 ∨ i = before.length ∨ waveReach < Nat.dist i before.length) := by
  rw [magnifyAt_real] at htile
  rw [reverse_magnifyAt] at htile'
  have hscale : 0 < (Wave.start g (magnifyCenter g s focus center)).scale := by
    show 0 < 1.0 + 0.9 * s.magnify
    simp only [ofScientific_real]
    positivity
  have hpull : 0 < (Wave.start g (magnifyCenter g s focus center)).pull := by
    show (0 : ℝ) < 1.8
    rw [ofScientific_real]
    positivity
  generalize Wave.start g (magnifyCenter g s focus center) = wave at *
  have hlength : ∀ direction,
      (spreadOut g s direction waveReach wave before.reverse).length = before.length := by
    intro direction
    rw [length_spreadOut, List.length_reverse]
  rcases lt_trichotomy i before.length with hi | hi | hi
  · -- before the magnified tile, where the wave runs from the last to the first
    rw [List.getElem?_append_left (by rw [List.length_reverse, hlength]; exact hi),
      List.getElem?_reverse (by rw [hlength]; exact hi), hlength] at htile htile'
    obtain ⟨hscales, htargets⟩ :=
      spreadOut_opposite hsize hfactor hspread hscale rfl hpull rfl le_rfl htile' htile
    refine ⟨hscales.symm, ?_⟩
    rw [eq_comm, htargets]
    refine or_congr_right ?_
    unfold Nat.dist
    omega
  · -- the magnified tile
    rw [List.getElem?_append_right (by rw [List.length_reverse, hlength]; exact hi.ge),
      List.length_reverse, hlength, hi, Nat.sub_self] at htile htile'
    obtain rfl := Option.some.inj htile
    obtain rfl := Option.some.inj htile'
    exact ⟨rfl, fun _ => .inr (.inl hi), fun _ => rfl⟩
  · -- after the magnified tile
    have hstep : i - before.length = i - before.length - 1 + 1 := by omega
    rw [List.getElem?_append_right (by rw [List.length_reverse, hlength]; exact hi.le),
      List.length_reverse, hlength, hstep, List.getElem?_cons_succ] at htile htile'
    obtain ⟨hscales, htargets⟩ :=
      spreadOut_opposite hsize hfactor hspread hscale rfl hpull rfl le_rfl htile htile'
    refine ⟨hscales, ?_⟩
    rw [htargets]
    refine or_congr_right ?_
    unfold Nat.dist
    omega

/-- A round puts the lens on the nearest tile, wherever it is in the order of the row. -/
theorem round_eq {anchor : Point ℝ} {row : Row ℝ} {before after : List (Tile ℝ)} {tile : Tile ℝ}
    (hsorted : Row.sortTiles anchor row.tiles = before ++ tile :: after)
    (hvisible : tile.visible = true) (hhit : pointerDistance g tile < hitRadius g)
    (hbefore : ∀ other ∈ before, pointerDistance g tile < pointerDistance g other)
    (hafter : ∀ other ∈ after, pointerDistance g tile < pointerDistance g other) :
    round g s anchor row =
      if isNear g (focusOn g 0 tile) then
        .ok (magnifyAt g s (focusOn g 0 tile) (before.map Tile.reset) tile.reset
          (after.map Tile.reset), true)
      else .ok (before.map Tile.reset ++ tile.reset :: after.map Tile.reset, false) := by
  have hresting : (row.arrange anchor).reset.tiles =
      before.map Tile.reset ++ tile.reset :: after.map Tile.reset := by
    show (Row.sortTiles anchor row.tiles).map Tile.reset = _
    rw [hsorted, List.map_append, List.map_cons]
  have hrest : ∀ tiles : List (Tile ℝ),
      (∀ other ∈ tiles, pointerDistance g tile < pointerDistance g other) →
      ∀ other ∈ tiles.map Tile.reset, pointerDistance g tile.reset < pointerDistance g other := by
    intro tiles htiles other hother
    obtain ⟨tile', htile', rfl⟩ := List.mem_map.mp hother
    exact htiles tile' htile'
  have hfound : nearest? g (before.map Tile.reset ++ tile.reset :: after.map Tile.reset) =
      some (focusOn g (0 + (before.map Tile.reset).length) tile.reset) :=
    nearestFrom_append hvisible hhit (fun _ hnone => nomatch hnone) (hrest before hbefore)
      (hrest after hafter)
  unfold round
  dsimp only
  rw [hresting, hfound]
  dsimp only
  rw [magnify_append _ (Nat.zero_add _)]
  rfl

/-- The pointer is near enough for the lens at less than two icon sizes. -/
theorem isNear_real (g : Geometry ℝ) (focus : Focus ℝ) :
    isNear g focus = true ↔ focus.distance < g.iconSize * 2 := by
  have htwo : @OfScientific.ofScientific ℝ Scalar.toOfScientific 20 true 1 = 2 := by
    rw [ofScientific_real]
    norm_num
  unfold isNear
  rw [htwo, Bool.not_eq_true', decide_eq_false_iff_not]
  exact not_le

/-- The lens is put on a tile at less than two icon sizes. -/
theorem isNear_iff {index : Nat} {tile : Tile ℝ} :
    isNear g (focusOn g index tile) = true ↔ pointerDistance g tile < g.iconSize * 2 :=
  isNear_real g (focusOn g index tile)

/-- A tile that the lens is put on shows that there is a size to speak of. -/
theorem size_pos {index : Nat} {tile : Tile ℝ} (hhit : pointerDistance g tile < hitRadius g)
    (hlens : isNear g (focusOn g index tile) = true) : 0 < g.iconSize ∧ 0 < g.scaleFactor := by
  have hdistance : 0 ≤ pointerDistance g tile := Point.distance_nonneg _ _
  have hsize : 0 < g.iconSize := by
    have hlt := isNear_iff.mp hlens
    linarith
  refine ⟨hsize, ?_⟩
  have hradius : 0 < g.iconSize * 1.25 * g.scaleFactor := lt_of_le_of_lt hdistance hhit
  rw [ofScientific_real] at hradius
  exact (mul_pos_iff_of_pos_left (by positivity)).mp hradius

end Ends

/-! ## The two ends of a row -/

/-- How the tiles of a row compare after a round from either end.  `center` is the number of the
    nearest tile, counted from the near end. -/
structure EndsCompare (g : Geometry ℝ) (s : Strengths ℝ) (row : Row ℝ) (nearest : Tile ℝ)
    (fromNear fromFar : List (Tile ℝ)) (center : Nat) : Prop where
  center_key : (fromNear[center]?).map Tile.key = some nearest.key
  keys_near : (fromNear.map Tile.key).Perm (row.tiles.map Tile.key)
  keys_far : (fromFar.map Tile.key).Perm (row.tiles.map Tile.key)
  scale_eq : ∀ tile ∈ fromNear, ∀ tile' ∈ fromFar, tile.key = tile'.key →
    tile.targetScale = tile'.targetScale
  target_iff : ∀ (i : Nat) (tile tile' : Tile ℝ), fromNear[i]? = some tile → tile' ∈ fromFar →
    tile.key = tile'.key → (tile.target = tile'.target ↔ s.spread = 0 ∨
      g.iconSize * 2 ≤ pointerDistance g nearest ∨ i = center ∨ waveReach < Nat.dist i center)

variable {g : Geometry ℝ} {s : Strengths ℝ} {row : Row ℝ} {level : ℝ} {nearest : Tile ℝ}
variable {near far : Point ℝ}

/-- It is enough to compare the tiles place by place, with the result from the far end reversed. -/
theorem EndsCompare.of_reverse {sorted fromNear fromFar : List (Tile ℝ)} {center : Nat}
    (hperm : sorted.Perm row.tiles) (hkeys : (row.tiles.map Tile.key).Nodup)
    (hcenter : sorted[center]? = some nearest)
    (hnear : Tile.identities fromNear = Tile.identities sorted)
    (hfar : Tile.identities fromFar.reverse = Tile.identities sorted)
    (hplaces : ∀ (i : Nat) (tile tile' : Tile ℝ), fromNear[i]? = some tile →
      fromFar.reverse[i]? = some tile' → tile.targetScale = tile'.targetScale ∧
        (tile.target = tile'.target ↔ s.spread = 0 ∨ g.iconSize * 2 ≤ pointerDistance g nearest ∨
          i = center ∨ waveReach < Nat.dist i center)) :
    EndsCompare g s row nearest fromNear fromFar center := by
  have hnear' : fromNear.map Tile.key = sorted.map Tile.key := by
    rw [Tile.map_key_eq, hnear, ← Tile.map_key_eq]
  have hfar' : fromFar.reverse.map Tile.key = sorted.map Tile.key := by
    rw [Tile.map_key_eq, hfar, ← Tile.map_key_eq]
  have hnodup : (sorted.map Tile.key).Nodup := (hperm.map Tile.key).nodup_iff.mpr hkeys
  -- a key has one place, so that tiles of one key are compared with each other
  have hmatch : ∀ (i : Nat) (tile tile' : Tile ℝ), fromNear[i]? = some tile → tile' ∈ fromFar →
      tile.key = tile'.key → fromFar.reverse[i]? = some tile' := by
    intro i tile tile' htile htile' hkey
    obtain ⟨j, hj⟩ := List.mem_iff_getElem?.mp (List.mem_reverse.mpr htile')
    have hi : (sorted.map Tile.key)[i]? = some tile.key := by
      rw [← hnear', List.getElem?_map, htile]
      rfl
    have hj' : (sorted.map Tile.key)[j]? = some tile.key := by
      rw [← hfar', List.getElem?_map, hj, hkey]
      rfl
    have hlt : i < (sorted.map Tile.key).length := (List.getElem?_eq_some_iff.mp hi).1
    rw [(List.getElem?_inj hlt hnodup).mp (hi.trans hj'.symm)]
    exact hj
  constructor
  · rw [← List.getElem?_map, hnear', List.getElem?_map, hcenter]
    rfl
  · rw [hnear']
    exact hperm.map Tile.key
  · refine ((List.reverse_perm fromFar).symm.map Tile.key).trans ?_
    rw [hfar']
    exact hperm.map Tile.key
  · intro tile htile tile' htile' hkey
    obtain ⟨i, hi⟩ := List.mem_iff_getElem?.mp htile
    exact (hplaces i tile tile' hi (hmatch i tile tile' hi htile' hkey)).1
  · intro i tile tile' htile htile' hkey
    exact (hplaces i tile tile' htile (hmatch i tile tile' htile htile' hkey)).2

/-- In a row on a line, the nearest tile is nearer than those on either side of it. -/
theorem IsNearest.nearer_of_append (h : IsNearest g row.tiles nearest)
    (hrow : Row.Lined g.edge level row.tiles) {anchor : Point ℝ} {before after : List (Tile ℝ)}
    (hsorted : Row.sortTiles anchor row.tiles = before ++ nearest :: after) :
    (∀ other ∈ before, pointerDistance g nearest < pointerDistance g other) ∧
      ∀ other ∈ after, pointerDistance g nearest < pointerDistance g other := by
  have hmem : ∀ other ∈ before ++ nearest :: after, other ∈ row.tiles := by
    intro other hother
    rw [← hsorted] at hother
    exact (Row.sortTiles_perm anchor row.tiles).mem_iff.mp hother
  have hne : (Row.sortTiles anchor row.tiles).Pairwise
      fun tile other => tile.place g.edge ≠ other.place g.edge := hrow.pairwise_ne
  rw [hsorted, List.pairwise_append, List.pairwise_cons] at hne
  constructor
  · intro other hother
    refine h.nearer other (hmem other (List.mem_append_left _ hother)) ?_
    rintro rfl
    exact hne.2.2 other hother other List.mem_cons_self rfl
  · intro other hother
    refine h.nearer other
      (hmem other (List.mem_append_right _ (List.mem_cons_of_mem _ hother))) ?_
    rintro rfl
    exact hne.2.1.1 other hother rfl

/-- **THE TWO ENDS AGREE** on the scale of every tile, and on its target exactly if there is no
    spread, the pointer is too far away for the lens, the tile is the nearest one, or it lies beyond
    the reach of the waves. -/
theorem endsAgree_iff (hrow : Row.Lined g.edge level row.tiles)
    (hkeys : (row.tiles.map Tile.key).Nodup) (hmagnify : 0 ≤ s.magnify) (hspread : 0 ≤ s.spread)
    (hnearest : IsNearest g row.tiles nearest)
    (hnear : g.edge.perpendicularAxis.of near = level)
    (hfar : g.edge.perpendicularAxis.of far = level)
    (hbelow : ∀ tile ∈ row.tiles, g.edge.inlineAxis.of near ≤ tile.place g.edge)
    (habove : ∀ tile ∈ row.tiles, tile.place g.edge ≤ g.edge.inlineAxis.of far) :
    ∃ fromNear fromFar magnified center, round g s near row = .ok (fromNear, magnified) ∧
      round g s far row = .ok (fromFar, magnified) ∧
      EndsCompare g s row nearest fromNear fromFar center := by
  have hperm := Row.sortTiles_perm near row.tiles
  obtain ⟨before, after, hsorted⟩ := List.append_of_mem (hperm.mem_iff.mpr hnearest.mem)
  -- from the far end the row is the same in reverse, so that one split serves both rounds
  have hreversed := hrow.sortTiles_reverse hnear hfar hbelow habove
  rw [hsorted, List.reverse_append, List.reverse_cons, List.append_assoc, List.singleton_append]
    at hreversed
  obtain ⟨hbefore, hafter⟩ := hnearest.nearer_of_append hrow hsorted
  have hvisible := hrow.visible nearest hnearest.mem
  have hroundNear := round_eq (s := s) hsorted hvisible hnearest.hit hbefore hafter
  have hroundFar := round_eq (s := s) hreversed hvisible hnearest.hit
    (fun other hother => hafter other (List.mem_reverse.mp hother))
    (fun other hother => hbefore other (List.mem_reverse.mp hother))
  rw [List.map_reverse, List.map_reverse] at hroundFar
  have hcenter : (Row.sortTiles near row.tiles)[before.length]? = some nearest := by
    rw [hsorted, List.getElem?_append_right (Nat.le_refl _), Nat.sub_self]
    rfl
  have hresting : Tile.identities (before.map Tile.reset ++ nearest.reset :: after.map Tile.reset) =
      Tile.identities (Row.sortTiles near row.tiles) := by
    rw [hsorted, ← List.map_cons, ← List.map_append]
    exact Row.identities_reset ⟨_, 0⟩
  have hflip : ∀ tiles : List (Tile ℝ),
      Tile.identities tiles.reverse = (Tile.identities tiles).reverse :=
    fun tiles => List.map_reverse
  have hmirror : (after.map Tile.reset).reverse ++ nearest.reset :: (before.map Tile.reset).reverse =
      (before.map Tile.reset ++ nearest.reset :: after.map Tile.reset).reverse := by
    rw [List.reverse_append, List.reverse_cons, List.append_assoc]
    rfl
  -- the distance is the same from both ends, and so is whether the lens is put on at all
  by_cases hlens : isNear g (focusOn g 0 nearest) = true
  · obtain ⟨hsize, hfactor⟩ := size_pos hnearest.hit hlens
    rw [if_pos hlens] at hroundNear hroundFar
    refine ⟨_, _, true, before.length, hroundNear, hroundFar, ?_⟩
    refine .of_reverse hperm hkeys hcenter ?_ ?_ ?_
    · rw [identities_magnifyAt, hresting]
    · rw [hflip, identities_magnifyAt, hmirror, hflip, List.reverse_reverse, hresting]
    · intro i tile tile' htile htile'
      obtain ⟨hscales, htargets⟩ :=
        magnifyAt_opposite hsize hfactor hmagnify hspread htile htile'
      rw [List.length_map] at htargets
      refine ⟨hscales, htargets.trans (or_congr_right ?_)⟩
      exact (or_iff_right (not_le.mpr (isNear_iff.mp hlens))).symm
  · rw [if_neg hlens] at hroundNear hroundFar
    refine ⟨_, _, false, before.length, hroundNear, hroundFar, ?_⟩
    refine .of_reverse hperm hkeys hcenter hresting ?_ ?_
    · rw [hmirror, List.reverse_reverse, hresting]
    · intro i tile tile' htile htile'
      rw [hmirror, List.reverse_reverse] at htile'
      obtain rfl := Option.some.inj (htile.symm.trans htile')
      exact ⟨rfl, fun _ => .inr (.inl (not_lt.mp fun hlt => hlens (isNear_iff.mpr hlt))),
        fun _ => rfl⟩

/-! ## Two icons

    The shortest row that has two ends: the pointer is on the first icon, and the second one is
    pushed away from it or toward it. -/

/-- A bottom dock of icons of 48, with the pointer on the center of the first. -/
def onFirst : Geometry ℝ where
  edge := .bottom
  nominalSize := 48
  scaleFactor := 1
  pointer := ⟨24, 24⟩
  anchor := ⟨0, 0⟩
  inFullscreen := false
  autohideHidden := false

noncomputable def firstTile : Tile ℝ := .ofIcon (Row.idAt 0) (.favorite 1 ⟨0, 0⟩)

noncomputable def secondTile : Tile ℝ := .ofIcon (Row.idAt 1) (.favorite 2 ⟨48, 0⟩)

theorem iconSize_onFirst : onFirst.iconSize = 48 := by
  show ((⌊(48 : ℝ) / 2.0⌋ : ℤ) : ℝ) * 2.0 = 48
  rw [ofScientific_real]
  norm_num

/-- Of a tile in the line of the pointer, only the place along the edge counts. -/
theorem pointerDistance_onFirst (tile : Tile ℝ) (htop : tile.fixed.y = 0) :
    pointerDistance onFirst tile = |tile.fixed.x| := by
  have hhalf : onFirst.iconSize * 1 / 2.0 = 24 := by
    rw [iconSize_onFirst, ofScientific_real]
    norm_num
  have hlevel : Axis.x.across.of onFirst.pointer = Axis.x.across.of (restingCenter onFirst tile) := by
    show (24 : ℝ) = tile.fixed.y + onFirst.iconSize * 1 / 2.0
    rw [hhalf, htop, zero_add]
  have hoffset : Axis.x.of onFirst.pointer - Axis.x.of (restingCenter onFirst tile)
      = -tile.fixed.x := by
    show (24 : ℝ) - (tile.fixed.x + onFirst.iconSize * 1 / 2.0) = -tile.fixed.x
    rw [hhalf]
    ring
  unfold pointerDistance
  rw [Point.distance_of_level hlevel, hoffset, abs_neg]

/-- The first of the two tiles is the nearest one. -/
theorem isNearest_firstTile : IsNearest onFirst [firstTile, secondTile] firstTile where
  mem := List.mem_cons_self
  hit := by
    rw [pointerDistance_onFirst firstTile rfl]
    show |(0 : ℝ)| < onFirst.iconSize * 1.25 * 1
    rw [iconSize_onFirst, ofScientific_real]
    norm_num
  nearer := by
    intro other hother hne
    rcases List.mem_cons.mp hother with rfl | hother
    · exact absurd rfl hne
    · obtain rfl := List.mem_singleton.mp hother
      rw [pointerDistance_onFirst firstTile rfl, pointerDistance_onFirst secondTile rfl]
      show |(0 : ℝ)| < |(48 : ℝ)|
      norm_num

private theorem lined_twoTiles : Row.Lined .bottom 0 [firstTile, secondTile] where
  visible := by
    intro tile htile
    rcases List.mem_cons.mp htile with rfl | htile
    · rfl
    · obtain rfl := List.mem_singleton.mp htile
      rfl
  level := by
    intro tile htile
    rcases List.mem_cons.mp htile with rfl | htile
    · rfl
    · obtain rfl := List.mem_singleton.mp htile
      rfl
  distinct := by
    show ([0, 48] : List ℝ).Nodup
    simp

/-- The second icon has two targets. -/
theorem endsAgree_iff_twoTiles : ∃ fromNear fromFar magnified,
    round onFirst ⟨1, 1, 1⟩ ⟨0, 0⟩ ⟨[firstTile, secondTile], 2⟩ = .ok (fromNear, magnified) ∧
    round onFirst ⟨1, 1, 1⟩ ⟨200, 0⟩ ⟨[firstTile, secondTile], 2⟩ = .ok (fromFar, magnified) ∧
    ∃ tile ∈ fromNear, ∃ tile' ∈ fromFar, tile.key = 2 ∧ tile'.key = 2 ∧
      tile.target ≠ tile'.target := by
  have hends : ∀ tile ∈ [firstTile, secondTile], (0 : ℝ) ≤ tile.place .bottom ∧
      tile.place .bottom ≤ 200 := by
    intro tile htile
    rcases List.mem_cons.mp htile with rfl | htile
    · show (0 : ℝ) ≤ 0 ∧ (0 : ℝ) ≤ 200
      norm_num
    · obtain rfl := List.mem_singleton.mp htile
      show (0 : ℝ) ≤ 48 ∧ (48 : ℝ) ≤ 200
      norm_num
  have hkeys : ([firstTile, secondTile].map Tile.key).Nodup := by
    show ([1, 2] : List Icon.Key).Nodup
    decide
  obtain ⟨fromNear, fromFar, magnified, center, hnear, hfar, h⟩ :=
    @endsAgree_iff onFirst ⟨1, 1, 1⟩ ⟨[firstTile, secondTile], 2⟩ 0 firstTile ⟨0, 0⟩ ⟨200, 0⟩
      lined_twoTiles hkeys zero_le_one zero_le_one isNearest_firstTile rfl rfl
      (fun tile htile => (hends tile htile).1) (fun tile htile => (hends tile htile).2)
  refine ⟨fromNear, fromFar, magnified, hnear, hfar, ?_⟩
  have hlast : (2 : Icon.Key) ∈ [firstTile, secondTile].map Tile.key :=
    List.mem_cons_of_mem _ List.mem_cons_self
  obtain ⟨tile, htile, hkey⟩ := List.mem_map.mp (h.keys_near.mem_iff.mpr hlast)
  obtain ⟨tile', htile', hkey'⟩ := List.mem_map.mp (h.keys_far.mem_iff.mpr hlast)
  obtain ⟨i, hi⟩ := List.mem_iff_getElem?.mp htile
  refine ⟨tile, htile, tile', htile', hkey, hkey', ?_⟩
  have hlength : fromNear.length = 2 := by
    have hlengths := h.keys_near.length_eq
    rwa [List.length_map] at hlengths
  obtain ⟨middle, hmiddle, hmiddleKey⟩ := Option.map_eq_some_iff.mp h.center_key
  have hi' := (List.getElem?_eq_some_iff.mp hi).1
  have hcenter := (List.getElem?_eq_some_iff.mp hmiddle).1
  rw [Ne, h.target_iff i tile tile' hi htile' (hkey.trans hkey'.symm)]
  rintro (hpinned | htooFar | hsame | hbeyond)
  · exact one_ne_zero hpinned
  · rw [pointerDistance_onFirst firstTile rfl, iconSize_onFirst] at htooFar
    have hzero : |(0 : ℝ)| = 0 := abs_zero
    change (48 : ℝ) * 2 ≤ |(0 : ℝ)| at htooFar
    linarith
  · rw [hsame, hmiddle] at hi
    rw [← Option.some.inj hi, hmiddleKey] at hkey
    exact absurd hkey (by decide)
  · unfold Nat.dist waveReach at hbeyond
    omega

end FisheyeDock.Lens
