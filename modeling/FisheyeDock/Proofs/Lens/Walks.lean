import Mathlib.Data.Nat.Dist
import FisheyeDock.Proofs.Lens.Sweep

/-! # Two walks outward

    From the magnified tile one can walk outward on either side, and at every step find the place of
    the next tile from that of the last one, with a scale and a pull that dwindle from step to step.

    `Lens.Walks` says this of a row, tile by tile, and `Lens.magnifyInPlace_walks` that this is what
    the lens does in place: the walks do not know of each other, they end after eighty steps, and
    nothing else about the tiles changes.  All of it holds in every arithmetic, rounding or not. -/

namespace FisheyeDock.Lens

variable {α : Type} [Scalar α]

/-! ## What is said of a row -/

/-- A number that is multiplied by one factor at every step. -/
def dwindled (factor start : α) : Nat → α
  | 0 => start
  | steps + 1 => dwindled factor start steps * factor

/-- What has been faded once is one step ahead. -/
theorem dwindled_succ (factor start : α) (steps : Nat) :
    dwindled factor (start * factor) steps = dwindled factor start (steps + 1) := by
  induction steps with
  | zero => rfl
  | succ steps ih => exact congrArg (· * factor) ih

/-- What the lens makes of the tile that it is on: larger, raised, moved along the dock with the
    pointer, and lowered by half of that move.  Without spread it keeps its place along the dock. -/
structure Magnified (g : Geometry α) (s : Strengths α) (focus : Focus α) (tile center : Tile α) :
    Prop where
  inline : g.edge.inlineAxis.of center.target =
    if s.spreads then
      g.edge.inlineAxis.of tile.target + g.edge.inlineAxis.of focus.offset / 4.0
    else g.edge.inlineAxis.of tile.fixed
  perpendicular : g.edge.perpendicularAxis.of center.target =
    if s.spreads then
      g.edge.perpendicularAxis.of tile.target
        + g.edge.awaySign * g.iconSize * 0.25 * s.rise * g.scaleFactor
        - g.edge.awaySign * Scalar.abs (g.edge.inlineAxis.of focus.offset / 4.0) / 2.0
    else
      g.edge.perpendicularAxis.of tile.target
        + g.edge.awaySign * g.iconSize * 0.25 * s.rise * g.scaleFactor
  others : center = { tile with
    distance := some focus.distance
    pointerOffset := focus.offset
    targetScale := 1.0 + 0.9 * s.magnify
    target := center.target }

/-- What a walk that begins with the scale `largest` makes at a step of the tile that it comes to,
    next to the tile `inner` that it comes from. -/
def walkTo (g : Geometry α) (s : Strengths α) (direction largest : α) (step : Nat)
    (inner tile : Tile α) : Tile α :=
  let scale := dwindled s.decay largest step
  let pull := dwindled 0.9 1.8 (step - 1)
  settle g (placeBeside g s direction scale pull (g.edge.inlineAxis.of inner.target) tile) scale tile

/-- The row `tiles'` is the row `tiles` after a walk outward on both sides. -/
structure Walks (g : Geometry α) (s : Strengths α) (focus : Focus α) (tiles tiles' : List (Tile α)) :
    Prop where
  length : tiles'.length = tiles.length
  center : ∀ tile, tiles[focus.index]? = some tile →
    ∃ center, tiles'[focus.index]? = some center ∧ Magnified g s focus tile center
  after : ∀ step < 80, ∀ tile, tiles[focus.index + (step + 1)]? = some tile →
    ∃ inner, tiles'[focus.index + step]? = some inner ∧
      tiles'[focus.index + (step + 1)]? =
        some (walkTo g s 1.0 (1.0 + 0.9 * s.magnify) (step + 1) inner tile)
  before : ∀ step < 80, step + 1 ≤ focus.index →
    ∀ tile, tiles[focus.index - (step + 1)]? = some tile →
    ∃ inner, tiles'[focus.index - step]? = some inner ∧
      tiles'[focus.index - (step + 1)]? =
        some (walkTo g s (-1.0) (1.0 + 0.9 * s.magnify) (step + 1) inner tile)
  beyond : ∀ i, 80 < Nat.dist i focus.index → tiles'[i]? = tiles[i]?

/-- What the lens has made of `tiles` on either side of the magnified tile depends on no tile of the
    other side, not even on how many there are. -/
structure Apart (g : Geometry α) (s : Strengths α) (focus : Focus α) (tiles tiles' : List (Tile α)) :
    Prop where
  after : ∀ index others, others.drop index = tiles.drop focus.index →
    ∃ others', magnifyInPlace g s { focus with index } others = .ok (others', true) ∧
      others'.drop index = tiles'.drop focus.index
  before : ∀ others, others.take (focus.index + 1) = tiles.take (focus.index + 1) →
    ∃ others', magnifyInPlace g s focus others = .ok (others', true) ∧
      others'.take (focus.index + 1) = tiles'.take (focus.index + 1)

variable {g : Geometry α} {s : Strengths α}

/-! ## The magnified tile -/

/-- The tile in the center is magnified in full. -/
theorem magnified_magnifyCenter (focus : Focus α) (tile : Tile α) :
    Magnified g s focus tile (magnifyCenter g s focus tile) where
  inline := by
    by_cases hspreads : s.spreads = true
    · simp [magnifyCenter, centerTarget, Axis.modify, Edge.perpendicularAxis_eq_across, hspreads]
    · simp [magnifyCenter, centerTarget, hspreads]
  perpendicular := by
    by_cases hspreads : s.spreads = true
    · simp [magnifyCenter, centerTarget, riseOffset, Axis.modify,
        Edge.perpendicularAxis_eq_across, hspreads]
    · simp [magnifyCenter, centerTarget, riseOffset, Axis.modify,
        Edge.perpendicularAxis_eq_across, hspreads]
  others := rfl

/-! ## One side -/

/-- The wave that has gone some steps takes the next one as the walk does. -/
theorem getElem?_spreadOut {direction : α} {reach step : Nat} (hstep : step < reach)
    {wave : Wave α} {inner : Tile α} (hinner : wave.inner = g.edge.inlineAxis.of inner.target)
    {tiles : List (Tile α)} {tile : Tile α} (htile : tiles[step]? = some tile) :
    ∃ last, (inner :: spreadOut g s direction reach wave tiles)[step]? = some last ∧
      (inner :: spreadOut g s direction reach wave tiles)[step + 1]? =
        some (settle g
          (placeBeside g s direction (dwindled s.decay wave.scale (step + 1))
            (dwindled 0.9 wave.pull step) (g.edge.inlineAxis.of last.target) tile)
          (dwindled s.decay wave.scale (step + 1)) tile) := by
  induction tiles generalizing reach step wave inner with
  | nil => simp at htile
  | cons first rest ih =>
      obtain ⟨reach, rfl⟩ : ∃ more, reach = more + 1 := ⟨reach - 1, by omega⟩
      cases step with
      | zero =>
          obtain rfl : first = tile := Option.some.inj htile
          refine ⟨inner, rfl, ?_⟩
          rw [← hinner]
          rfl
      | succ step =>
          simp only [List.getElem?_cons_succ] at htile ⊢
          let next : Wave α := ⟨wave.scale * s.decay, wave.pull * 0.9,
            neighborInline g s direction wave (wave.scale * s.decay) first⟩
          -- what is placed here is what the next tile is placed beside
          have hnext : next.inner =
              g.edge.inlineAxis.of (settle g next.inner next.scale first).target :=
            (Axis.of_set _ _ _).symm
          have hrest := ih (Nat.lt_of_succ_lt_succ hstep) hnext htile
          simp only [next, dwindled_succ] at hrest
          exact hrest

/-- The wave leaves the tiles beyond its reach as they are. -/
theorem getElem?_spreadOut_beyond {direction : α} {reach step : Nat} (hreach : reach ≤ step)
    (wave : Wave α) (tiles : List (Tile α)) :
    (spreadOut g s direction reach wave tiles)[step]? = tiles[step]? := by
  induction tiles generalizing reach step wave with
  | nil => rw [spreadOut_nil]
  | cons first rest ih =>
      cases reach with
      | zero => rfl
      | succ reach =>
          obtain ⟨step, rfl⟩ : ∃ more, step = more + 1 := ⟨step - 1, by omega⟩
          exact ih (Nat.le_of_succ_le_succ hreach) _

/-! ## Both sides -/

omit [Scalar α] in
/-- A list counted outward from one of its members, toward the front. -/
theorem getElem?_outward {left right : List (Tile α)} {tile : Tile α} {step : Nat}
    (hstep : step ≤ left.length) :
    (left.reverse ++ tile :: right)[left.length - step]? = (tile :: left)[step]? := by
  cases step with
  | zero => simp
  | succ step =>
      rw [List.getElem?_append_left (by rw [List.length_reverse]; omega),
        List.getElem?_reverse (by omega), List.getElem?_cons_succ]
      congr 1
      omega

omit [Scalar α] in
/-- Counted toward the end. -/
theorem getElem?_onward {left right : List (Tile α)} {tile : Tile α} (step : Nat) :
    (left.reverse ++ tile :: right)[left.length + step]? = (tile :: right)[step]? := by
  rw [List.getElem?_append_right (by rw [List.length_reverse]; omega), List.length_reverse,
    Nat.add_sub_cancel_left]

/-- The lens on a tile between others, of which those before it are listed outward, walks outward on
    both sides. -/
theorem walks_magnifyAt {focus : Focus α} {left right : List (Tile α)} {tile : Tile α}
    (hindex : focus.index = left.length) : Walks g s focus (left.reverse ++ tile :: right)
      (magnifyAt g s focus left.reverse tile right) := by
  have hinner : (Wave.start g (magnifyCenter g s focus tile)).inner =
      g.edge.inlineAxis.of (magnifyCenter g s focus tile).target := rfl
  have hleft : left.length = (spreadOut g s (-1.0) waveReach
      (Wave.start g (magnifyCenter g s focus tile)) left).length := (length_spreadOut ..).symm
  unfold magnifyAt
  rw [List.reverse_reverse]
  constructor
  case length => simp
  case center =>
    intro other hother
    rw [hindex, ← Nat.add_zero left.length, getElem?_onward] at hother
    obtain rfl : tile = other := Option.some.inj hother
    refine ⟨magnifyCenter g s focus tile, ?_, magnified_magnifyCenter focus tile⟩
    rw [hindex, hleft]
    exact getElem?_onward 0
  case after =>
    intro step hstep other hother
    rw [hindex, getElem?_onward, List.getElem?_cons_succ] at hother
    rw [hindex, hleft, getElem?_onward, getElem?_onward]
    exact getElem?_spreadOut hstep hinner hother
  case before =>
    intro step hstep hle other hother
    rw [hindex] at hle
    rw [hindex, getElem?_outward hle, List.getElem?_cons_succ] at hother
    rw [hleft] at hle
    rw [hindex, hleft, getElem?_outward hle, getElem?_outward (Nat.le_of_succ_le hle)]
    exact getElem?_spreadOut hstep hinner hother
  case beyond =>
    intro i hi
    rw [hindex] at hi
    -- a place out of reach is on one side or the other, further on than the wave goes
    rcases Nat.le_total left.length i with hle | hle
    · obtain ⟨step, rfl⟩ : ∃ step, i = left.length + (step + 1) :=
        ⟨i - left.length - 1, by unfold Nat.dist at hi; omega⟩
      have hreach : waveReach ≤ step := by
        unfold Nat.dist at hi
        unfold waveReach
        omega
      rw [getElem?_onward, hleft, getElem?_onward]
      exact getElem?_spreadOut_beyond hreach _ _
    · obtain ⟨step, hstep, rfl⟩ : ∃ step, step + 1 ≤ left.length ∧ i = left.length - (step + 1) :=
        ⟨left.length - i - 1, by unfold Nat.dist at hi; omega, by unfold Nat.dist at hi; omega⟩
      have hreach : waveReach ≤ step := by
        unfold Nat.dist at hi
        unfold waveReach
        omega
      rw [getElem?_outward hstep]
      rw [hleft] at hstep ⊢
      rw [getElem?_outward hstep]
      exact getElem?_spreadOut_beyond hreach _ _

/-! ## The lens in place -/

/-- The loop in place comes to what the walks come to, on a row around its center. -/
theorem magnifyInPlace_around {focus : Focus α} {left right : List (Tile α)} {tile : Tile α}
    (hindex : focus.index = left.length) (hnear : ¬ g.iconSize * 2.0 ≤ focus.distance) :
    magnifyInPlace g s focus (left.reverse ++ tile :: right) =
      .ok (magnifyAt g s focus left.reverse tile right, true) := by
  rw [magnifyInPlace, magnifyWithin_around 80 hindex hnear]
  unfold magnifyAt
  rw [List.reverse_reverse]
  rfl

/-- What stands from the magnified tile on, and what stands up to it. -/
theorem sides_magnifyAt {focus : Focus α} {left right : List (Tile α)} {tile : Tile α}
    (hindex : focus.index = left.length) :
    (magnifyAt g s focus left.reverse tile right).drop focus.index =
        magnifyAt g s focus [] tile right ∧
      (magnifyAt g s focus left.reverse tile right).take (focus.index + 1) =
        magnifyAt g s focus left.reverse tile [] := by
  have hlength : focus.index = (spreadOut g s (-1.0) waveReach
      (Wave.start g (magnifyCenter g s focus tile)) left).reverse.length := by
    rw [List.length_reverse, length_spreadOut, hindex]
  unfold magnifyAt
  dsimp only
  rw [List.reverse_reverse, List.reverse_nil, spreadOut_nil, spreadOut_nil, hlength]
  exact ⟨List.drop_left, by rw [List.take_length_add_append]; rfl⟩

/-- **IN PLACE, THE LENS WALKS OUTWARD TWICE.**  On a tile of the row that the pointer is near enough
    to, it magnifies that tile, walks outward from it on either side with no regard to the other, and
    changes nothing else; otherwise it changes nothing at all.  It never leaves the row, and does what
    the two waves do. -/
theorem magnifyInPlace_walks {focus : Focus α} {tiles : List (Tile α)}
    (hfocus : focus.index < tiles.length) :
    magnifyInPlace g s focus tiles = magnify g s focus tiles ∧
      (g.iconSize * 2.0 ≤ focus.distance → magnifyInPlace g s focus tiles = .ok (tiles, false)) ∧
      (¬ g.iconSize * 2.0 ≤ focus.distance → ∃ tiles',
        magnifyInPlace g s focus tiles = .ok (tiles', true) ∧
        Walks g s focus tiles tiles' ∧ Apart g s focus tiles tiles') := by
  refine ⟨magnifyInPlace_eq g s focus tiles, ?_, ?_⟩
  · intro hfar
    unfold magnifyInPlace magnifyWithin
    rw [if_pos hfar]
  · intro hnear
    have hdrop := List.drop_eq_getElem_cons hfocus
    obtain ⟨left, hindex, htiles⟩ := exists_around hdrop
    generalize tiles[focus.index] = tile at *
    generalize tiles.drop (focus.index + 1) = right at *
    subst htiles
    -- each side is what the lens leaves of a row that has nothing on the other side
    obtain ⟨hafter, hbefore⟩ := @sides_magnifyAt α _ g s focus left right tile hindex
    refine ⟨_, magnifyInPlace_around hindex hnear, walks_magnifyAt hindex, ?_⟩
    constructor
    case after =>
      intro index others hothers
      rw [hdrop] at hothers
      obtain ⟨left', hindex', rfl⟩ := exists_around hothers
      have hafter' := (@sides_magnifyAt α _ g s { focus with index } left' right tile hindex').1
      exact ⟨_, magnifyInPlace_around hindex' hnear, hafter'.trans hafter.symm⟩
    case before =>
      intro others hothers
      have hfront : others.take (focus.index + 1) = left.reverse ++ [tile] := by
        rw [hothers, hindex, ← List.length_reverse, List.take_length_add_append]
        rfl
      obtain ⟨right', rfl⟩ : ∃ right', others = left.reverse ++ tile :: right' := by
        refine ⟨others.drop (focus.index + 1), ?_⟩
        calc others = others.take (focus.index + 1) ++ others.drop (focus.index + 1) :=
              (List.take_append_drop ..).symm
          _ = left.reverse ++ [tile] ++ others.drop (focus.index + 1) := by rw [hfront]
          _ = left.reverse ++ tile :: others.drop (focus.index + 1) := List.append_assoc ..
      have hbefore' := (@sides_magnifyAt α _ g s focus left right' tile hindex).2
      exact ⟨_, magnifyInPlace_around hindex hnear, hbefore'.trans hbefore.symm⟩

/-! ### A row of three

    The pointer is on the second of three tiles, and its neighbors are pushed away from it. -/

private def threeTiles : List (Tile Float) :=
  [Tile.ofIcon ⟨0⟩ (Icon.favorite 1 ⟨0.0, 0.0⟩), Tile.ofIcon ⟨1⟩ (Icon.favorite 2 ⟨48.0, 0.0⟩),
    Tile.ofIcon ⟨2⟩ (Icon.favorite 3 ⟨96.0, 0.0⟩)]

private def onSecond : Focus Float := ⟨1, 0.0, Point.zero⟩

/-- Both neighbors grow, and leave their place in opposite directions. -/
theorem magnifyInPlace_walks_threeTiles : onSecond.index < threeTiles.length ∧
    ∃ tiles', magnifyInPlace Geometry.standard ⟨1.0, 1.0, 1.0⟩ onSecond threeTiles =
        .ok (tiles', true) ∧
      Walks Geometry.standard ⟨1.0, 1.0, 1.0⟩ onSecond threeTiles tiles' ∧
      Apart Geometry.standard ⟨1.0, 1.0, 1.0⟩ onSecond threeTiles tiles' ∧
      (tiles'.map fun tile => (decide (1.0 < tile.targetScale),
        decide (tile.target.x < tile.fixed.x), decide (tile.fixed.x < tile.target.x))) =
      [(true, true, false), (true, false, false), (true, false, true)] := by
  have hfocus : onSecond.index < threeTiles.length := by decide
  have hnear : ¬ (Geometry.standard : Geometry Float).iconSize * 2.0 ≤ onSecond.distance := by
    decide +kernel
  obtain ⟨tiles', hmagnify, hwalks, hapart⟩ :=
    (@magnifyInPlace_walks Float _ Geometry.standard ⟨1.0, 1.0, 1.0⟩ onSecond threeTiles
      hfocus).2.2 hnear
  have hmoved : (magnifyInPlace Geometry.standard ⟨1.0, 1.0, 1.0⟩ onSecond threeTiles).toOption.map
      (fun result => result.1.map fun tile => (decide (1.0 < tile.targetScale),
        decide (tile.target.x < tile.fixed.x), decide (tile.fixed.x < tile.target.x))) =
      some [(true, true, false), (true, false, false), (true, false, true)] := by
    decide +kernel
  rw [hmagnify] at hmoved
  exact ⟨hfocus, tiles', hmagnify, hwalks, hapart, Option.some.inj hmoved⟩

end FisheyeDock.Lens
