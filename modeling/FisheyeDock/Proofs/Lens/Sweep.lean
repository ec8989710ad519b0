import FisheyeDock.Lens

/-! # Both waves at once

    The lens can be put on a row in place.  One loop walks outward on both sides at once: at every step
    it writes the next tile before the magnified one and the next one after it, as far as there are
    such tiles, with a scale and a pull that both sides share.  It ends when both sides have run out,
    or after eighty steps (`Lens.sweepFrom`).

    The two sides do not meet, so the loop does what two waves do that run one after the other, and
    it writes no tile that is not there (`Lens.magnifyInPlace_eq`). -/

namespace FisheyeDock.Lens

variable {α : Type} [Scalar α]

/-! ## The loop -/

/-- The loop between two steps: the tiles, what both sides share, and where the last tile of either
    side has been placed along the dock. -/
structure Sweep (α : Type) where
  tiles : List (Tile α)
  scale : α
  pull : α
  before : α
  after : α

/-- Where a tile is placed along the dock next to an inner neighbor. -/
def placeBeside (g : Geometry α) (s : Strengths α) (direction scale pull inner : α)
    (tile : Tile α) : α :=
  if s.spreads then
    (g.edge.inlineAxis.of tile.target + inner * pull) / (pull + 1.0)
      + direction * (g.iconSize * (scale + 0.2) * g.scaleFactor)
  else g.edge.inlineAxis.of tile.fixed

/-- A tile placed along the dock, with the scale of the step unless it is too small. -/
def settle (g : Geometry α) (place scale : α) (tile : Tile α) : Tile α :=
  { tile with
    target := g.edge.inlineAxis.set tile.target place
    targetScale := if 1.0 < scale then scale else tile.targetScale }

/-- Writes the tile of one side, if there is one, and gives its place. -/
def writeSide (g : Geometry α) (s : Strengths α) (direction scale pull : α) (index : Option Nat)
    (inner : α) (tiles : List (Tile α)) : Except Fault (List (Tile α) × α) :=
  match index with
  | none => .ok (tiles, inner)
  | some index =>
    match tiles[index]? with
    | none => .error (.indexOutOfBounds tiles.length index)
    | some tile =>
      let place := placeBeside g s direction scale pull inner tile
      .ok (tiles.set index (settle g place scale tile), place)

/-- The index that a step reaches on the left. -/
def leftIndex? (center step : Nat) : Option Nat :=
  if step ≤ center then some (center - step) else none

/-- The index that a step reaches on the right, in a row of a length. -/
def rightIndex? (center step length : Nat) : Option Nat :=
  if center + step < length then some (center + step) else none

/-- Runs at most `steps` steps of the loop, from the given one on. -/
def sweepFrom (g : Geometry α) (s : Strengths α) (center : Nat) :
    (steps : Nat) → (step : Nat) → Sweep α → Except Fault (List (Tile α))
  | 0, _, sweep => .ok sweep.tiles
  | steps + 1, step, sweep =>
    let scale := sweep.scale * s.decay
    let left := leftIndex? center step
    let right := rightIndex? center step sweep.tiles.length
    if left.isNone && right.isNone then .ok sweep.tiles
    else do
      let (tiles, before) ← writeSide g s (-1.0) scale sweep.pull left sweep.before sweep.tiles
      let (tiles, after) ← writeSide g s 1.0 scale sweep.pull right sweep.after tiles
      sweepFrom g s center steps (step + 1) ⟨tiles, scale, sweep.pull * 0.9, before, after⟩

/-- Puts the lens on the tile with the index of the focus in place, unless the pointer is too far
    away.  The loop runs at most `limit` steps. -/
def magnifyWithin (limit : Nat) (g : Geometry α) (s : Strengths α) (focus : Focus α)
    (tiles : List (Tile α)) : Except Fault (List (Tile α) × Bool) :=
  if g.iconSize * 2.0 ≤ focus.distance then .ok (tiles, false)
  else
    match tiles[focus.index]? with
    | none => .error (.indexOutOfBounds tiles.length focus.index)
    | some tile => do
      let center := magnifyCenter g s focus tile
      let inner := g.edge.inlineAxis.of center.target
      let tiles ← sweepFrom g s focus.index limit 1
        ⟨tiles.set focus.index center, center.targetScale, 1.8, inner, inner⟩
      pure (tiles, true)

/-- Puts the lens on a tile in place. -/
def magnifyInPlace (g : Geometry α) (s : Strengths α) (focus : Focus α) (tiles : List (Tile α)) :
    Except Fault (List (Tile α) × Bool) :=
  magnifyWithin 80 g s focus tiles

/-! ## One step of one side -/

/-- What a step does on one side: the tile that it writes there, if there is one left, those that are
    left after it, and the place for the next one to stand beside. -/
def stepSide (g : Geometry α) (s : Strengths α) (direction scale pull inner : α) :
    List (Tile α) → List (Tile α) × List (Tile α) × α
  | [] => ([], [], inner)
  | tile :: rest =>
    let place := placeBeside g s direction scale pull inner tile
    ([settle g place scale tile], rest, place)

variable (g : Geometry α) (s : Strengths α) (direction scale pull inner : α)

/-- A wave goes on after a step as it has begun. -/
theorem spreadOut_succ (reach : Nat) (wave : Wave α) (tiles : List (Tile α)) :
    let written := stepSide g s direction (wave.scale * s.decay) wave.pull wave.inner tiles
    spreadOut g s direction (reach + 1) wave tiles = written.1 ++
      spreadOut g s direction reach ⟨wave.scale * s.decay, wave.pull * 0.9, written.2.2⟩
        written.2.1 := by
  cases tiles with
  | nil => cases reach <;> rfl
  | cons tile rest => rfl

/-- One step of a side takes one tile off those that are left, if there is any. -/
theorem length_stepSide (tiles : List (Tile α)) :
    (stepSide g s direction scale pull inner tiles).1.length +
        (stepSide g s direction scale pull inner tiles).2.1.length = tiles.length ∧
      (stepSide g s direction scale pull inner tiles).2.1.length = tiles.length - 1 := by
  cases tiles with
  | nil => exact ⟨rfl, rfl⟩
  | cons tile rest => exact ⟨Nat.add_comm 1 _, rfl⟩

/-- At most one tile is written. -/
theorem reverse_stepSide (tiles : List (Tile α)) :
    (stepSide g s direction scale pull inner tiles).1.reverse =
      (stepSide g s direction scale pull inner tiles).1 := by
  cases tiles <;> rfl

/-- The tile at an index is written where it stands. -/
theorem writeSide_at {index : Nat} {front back : List (Tile α)} (hindex : index = front.length)
    (tile : Tile α) : writeSide g s direction scale pull (some index) inner (front ++ tile :: back) =
      .ok (front ++ settle g (placeBeside g s direction scale pull inner tile) scale tile :: back,
        placeBeside g s direction scale pull inner tile) := by
  subst hindex
  simp [writeSide]

/-- On the left, where the tiles that are left are listed outward and stand first in the row. -/
theorem writeSide_left {center step : Nat} {left : List (Tile α)}
    (hleft : left.length = center + 1 - step) (others : List (Tile α)) :
    writeSide g s direction scale pull (leftIndex? center step) inner (left.reverse ++ others) =
      .ok ((stepSide g s direction scale pull inner left).2.1.reverse ++
          ((stepSide g s direction scale pull inner left).1 ++ others),
        (stepSide g s direction scale pull inner left).2.2) := by
  cases left with
  | nil =>
      have hnone : ¬ step ≤ center := by
        rw [List.length_nil] at hleft
        omega
      simp [leftIndex?, hnone, writeSide, stepSide]
  | cons tile rest =>
      rw [List.length_cons] at hleft
      have hsome : step ≤ center := by omega
      have hindex : center - step = rest.reverse.length := by
        rw [List.length_reverse]
        omega
      rw [leftIndex?, if_pos hsome, List.reverse_cons, List.append_assoc]
      exact writeSide_at g s direction scale pull inner hindex tile

/-- On the right, where the tiles that are left stand last. -/
theorem writeSide_right {center step total : Nat} {right others : List (Tile α)}
    (htotal : total = others.length + right.length)
    (hright : right.length = total - (center + step)) :
    writeSide g s direction scale pull (rightIndex? center step total) inner (others ++ right) =
      .ok (others ++ ((stepSide g s direction scale pull inner right).1 ++
          (stepSide g s direction scale pull inner right).2.1),
        (stepSide g s direction scale pull inner right).2.2) := by
  cases right with
  | nil =>
      have hnone : ¬ center + step < total := by
        rw [List.length_nil] at hright
        omega
      simp [rightIndex?, hnone, writeSide, stepSide]
  | cons tile rest =>
      rw [List.length_cons] at htotal hright
      have hsome : center + step < total := by omega
      have hindex : center + step = others.length := by omega
      rw [rightIndex?, if_pos hsome]
      exact writeSide_at g s direction scale pull inner hindex tile

/-! ## The whole loop -/

variable {g s}

omit [Scalar α] in
/-- The loop ends where both sides have run out. -/
theorem isNone_indices_iff {center step : Nat} {left middle right : List (Tile α)}
    (hleft : left.length = center + 1 - step)
    (hright : right.length = left.length + middle.length + right.length - (center + step)) :
    ((leftIndex? center step).isNone &&
      (rightIndex? center step (left.length + middle.length + right.length)).isNone) = true ↔
        left = [] ∧ right = [] := by
  have hout : ((leftIndex? center step).isNone &&
      (rightIndex? center step (left.length + middle.length + right.length)).isNone) = true ↔
        center < step ∧ left.length + middle.length + right.length ≤ center + step := by
    simp [leftIndex?, rightIndex?]
  rw [hout, ← List.length_eq_zero_iff, ← List.length_eq_zero_iff]
  omega

/-- A wave over no tile leaves none. -/
theorem spreadOut_nil (direction : α) (reach : Nat) (wave : Wave α) :
    spreadOut g s direction reach wave [] = [] := by
  cases reach <;> rfl

/-- From any step on, the loop does on either side what a wave does over the tiles that are left
    there.  Those on the left are listed outward, and `middle` is what is done. -/
theorem sweepFrom_eq {center : Nat} (steps step : Nat) (left middle right : List (Tile α))
    (scale pull before after : α) (hleft : left.length = center + 1 - step)
    (hright : right.length = left.length + middle.length + right.length - (center + step)) :
    sweepFrom g s center steps step
        ⟨left.reverse ++ (middle ++ right), scale, pull, before, after⟩ =
      .ok ((spreadOut g s (-1.0) steps ⟨scale, pull, before⟩ left).reverse ++
        (middle ++ spreadOut g s 1.0 steps ⟨scale, pull, after⟩ right)) := by
  induction steps generalizing step left middle right scale pull before after with
  | zero => rfl
  | succ steps ih =>
      have htotal : (left.reverse ++ (middle ++ right)).length =
          left.length + middle.length + right.length := by
        simp only [List.length_append, List.length_reverse, Nat.add_assoc]
      unfold sweepFrom
      dsimp only
      rw [htotal]
      have hends := isNone_indices_iff hleft hright
      by_cases hdone : left = [] ∧ right = []
      · -- waves over nothing write nothing
        rw [if_pos (hends.mpr hdone)]
        obtain ⟨rfl, rfl⟩ := hdone
        rw [spreadOut_nil, spreadOut_nil]
      · rw [if_neg (mt hends.mp hdone)]
        -- what is written on the left is not read on the right, and the other way round
        have hwriteLeft := writeSide_left g s (-1.0) (scale * s.decay) pull before hleft
          (middle ++ right)
        have hlengthLeft := length_stepSide g s (-1.0) (scale * s.decay) pull before left
        have hreverse := reverse_stepSide g s (-1.0) (scale * s.decay) pull before left
        have hlengthRight := length_stepSide g s 1.0 (scale * s.decay) pull after right
        rw [spreadOut_succ, spreadOut_succ, hwriteLeft]
        dsimp only
        generalize stepSide g s (-1.0) (scale * s.decay) pull before left = stepLeft at *
        obtain ⟨writtenLeft, restLeft, placeLeft⟩ := stepLeft
        dsimp only at *
        have hothers : left.length + middle.length + right.length =
            (restLeft.reverse ++ (writtenLeft ++ middle)).length + right.length := by
          simp only [List.length_append, List.length_reverse]
          omega
        have hwriteRight :=
          writeSide_right g s 1.0 (scale * s.decay) pull after hothers hright
        rw [List.append_assoc, List.append_assoc] at hwriteRight
        generalize stepSide g s 1.0 (scale * s.decay) pull after right = stepRight at *
        obtain ⟨writtenRight, restRight, placeRight⟩ := stepRight
        dsimp only at *
        have hnext := ih (step + 1) restLeft (writtenLeft ++ (middle ++ writtenRight)) restRight
          (scale * s.decay) (pull * 0.9) placeLeft placeRight (by omega) (by
            simp only [List.length_append]
            omega)
        simp only [List.append_assoc] at hnext
        simp only [bind, Except.bind, hwriteRight, hnext, List.reverse_append, hreverse,
          List.append_assoc]

omit [Scalar α] in
/-- A row around the tile with an index, with those before it listed outward. -/
theorem exists_around {tiles : List (Tile α)} {index : Nat} {tile : Tile α} {right : List (Tile α)}
    (h : tiles.drop index = tile :: right) :
    ∃ left : List (Tile α), index = left.length ∧ tiles = left.reverse ++ tile :: right := by
  have hlt : index < tiles.length := by
    refine Nat.lt_of_not_le fun hle => ?_
    rw [List.drop_eq_nil_iff.mpr hle] at h
    exact nomatch h
  refine ⟨(tiles.take index).reverse, ?_, ?_⟩
  · rw [List.length_reverse, List.length_take, Nat.min_eq_left (Nat.le_of_lt hlt)]
  · rw [List.reverse_reverse, ← h, List.take_append_drop]

/-- On a tile between others, the loop does what one wave for each side does. -/
theorem magnifyWithin_around (limit : Nat) {focus : Focus α} {left right : List (Tile α)}
    {tile : Tile α} (hindex : focus.index = left.length)
    (hnear : ¬ g.iconSize * 2.0 ≤ focus.distance) :
    let center := magnifyCenter g s focus tile
    magnifyWithin limit g s focus (left.reverse ++ tile :: right) =
      .ok ((spreadOut g s (-1.0) limit (Wave.start g center) left).reverse ++
        center :: spreadOut g s 1.0 limit (Wave.start g center) right, true) := by
  intro center
  have htile : (left.reverse ++ tile :: right)[focus.index]? = some tile := by
    rw [hindex]
    simp
  have hset : (left.reverse ++ tile :: right).set focus.index center =
      left.reverse ++ ([center] ++ right) := by
    rw [hindex]
    simp
  have hsweep := @sweepFrom_eq α _ g s focus.index limit 1 left [center] right center.targetScale 1.8
    (g.edge.inlineAxis.of center.target) (g.edge.inlineAxis.of center.target) (by omega) (by
      rw [List.length_singleton]
      omega)
  unfold magnifyWithin
  simp only [if_neg hnear, htile]
  rw [hset, hsweep]
  rfl

/-- **ONE LOOP OVER BOTH SIDES IS TWO WAVES.**  In place, the lens does what it does by one wave for
    each side, and ends with a fault only where there is no tile to put it on. -/
theorem magnifyInPlace_eq (g : Geometry α) (s : Strengths α) (focus : Focus α)
    (tiles : List (Tile α)) : magnifyInPlace g s focus tiles = magnify g s focus tiles := by
  by_cases hfar : g.iconSize * 2.0 ≤ focus.distance
  · simp [magnifyInPlace, magnifyWithin, magnify, isNear, hfar]
  · have hnear : isNear g focus = true := by simpa [isNear] using hfar
    cases hdrop : tiles.drop focus.index with
    | nil =>
        have hnone : tiles[focus.index]? = none :=
          List.getElem?_eq_none_iff.mpr (List.drop_eq_nil_iff.mp hdrop)
        simp [magnifyInPlace, magnifyWithin, magnify, hfar, hnear, hnone, hdrop]
    | cons tile right =>
        obtain ⟨left, hindex, rfl⟩ := exists_around hdrop
        have hindex' : focus.index = left.reverse.length := by rw [List.length_reverse, hindex]
        rw [magnifyInPlace, magnifyWithin_around 80 hindex hfar, magnify_append focus hindex',
          if_pos hnear]
        unfold magnifyAt
        rw [List.reverse_reverse]
        rfl

end FisheyeDock.Lens
