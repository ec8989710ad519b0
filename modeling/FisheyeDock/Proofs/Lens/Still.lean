import FisheyeDock.Proofs.Dock.Reckoning
import FisheyeDock.Proofs.Lens.Walks
import FisheyeDock.Proofs.Scalar.Zeros

/-! # A lens without spread

    Without spread the lens pins its row.  Wherever a wave comes from, it sends each tile to the place
    along the dock that the tile rests at, and the tile under the lens rises straight away from the
    edge (`Pinned`).  This holds in every arithmetic, whatever the numbers of the neighbors are,
    because no number of a neighbor is looked at.

    Without rise and magnification, the lens has no effect at all (`Idle`).  That is said of doubles,
    where each of the three strengths may be either zero, and where what a tile rises by is a zero
    only as long as nothing overflows on the way. -/

namespace FisheyeDock

/-- What happens across the dock moves nothing along it. -/
theorem Edge.inline_of_modify {α : Type} (edge : Edge) (p : Point α) (f : α → α) :
    edge.inlineAxis.of (edge.perpendicularAxis.modify p f) = edge.inlineAxis.of p := by
  rw [Axis.modify, Edge.perpendicularAxis_eq_across, Axis.of_set_across]

namespace Tile

variable {α : Type} {tile : Tile α}

/-- Where a tile is heading, and where it rests. -/
def aim (tile : Tile α) : Point α × Point α := (tile.target, tile.fixed)

variable [Scalar α]

/-- A tile that is heading for where it rests, and for the size it has there. -/
structure Settled (tile : Tile α) : Prop where
  target : tile.target = tile.fixed
  scale : tile.targetScale = 1.0

/-- What has been reset is settled. -/
theorem settled_of_mem_reset {tiles : List (Tile α)} (h : tile ∈ tiles.map reset) :
    tile.Settled := by
  obtain ⟨tile, -, rfl⟩ := List.mem_map.mp h
  exact ⟨rfl, rfl⟩

end Tile

namespace Lens

variable {α : Type} [Scalar α] {g : Geometry α} {s : Strengths α} {focus : Focus α}
variable {tile : Tile α} {tiles tiles' : List (Tile α)} {magnified : Bool}

/-! ## Pinned rows -/

/-- Each tile of the row is heading for its place along the dock, and for its resting position itself
    unless the lens is on it.  The tile under the lens is raised. -/
structure Pinned (g : Geometry α) (s : Strengths α) (focus : Option (Focus α))
    (tiles : List (Tile α)) : Prop where
  inline : ∀ tile ∈ tiles, g.edge.inlineAxis.of tile.target = g.edge.inlineAxis.of tile.fixed
  only : ∀ i tile, tiles[i]? = some tile → tile.target ≠ tile.fixed →
    ∃ on, focus = some on ∧ on.index = i ∧ isNear g on = true
  raised : ∀ on, focus = some on → isNear g on = true → ∀ tile, tiles[on.index]? = some tile →
    g.edge.perpendicularAxis.of tile.target = g.edge.perpendicularAxis.of tile.fixed
      + g.edge.awaySign * g.iconSize * 0.25 * s.rise * g.scaleFactor

/-- The aim of a tile that is raised straight away from the edge. -/
def raise (g : Geometry α) (s : Strengths α) (aim : Point α × Point α) : Point α × Point α :=
  (g.edge.perpendicularAxis.modify aim.2 (· + riseOffset g s), aim.2)

/-- The aims of a row at rest once a lens without spread has been put on it. -/
def raisedAt (g : Geometry α) (s : Strengths α) (focus : Option (Focus α))
    (aims : List (Point α × Point α)) : List (Point α × Point α) :=
  match focus with
  | some on => if isNear g on then aims.modify on.index (raise g s) else aims
  | none => aims

/-- What has become of one aim. -/
theorem getElem?_raisedAt {aims : List (Point α × Point α)} {on : Option (Focus α)} {i : Nat}
    {aim : Point α × Point α} (h : (raisedAt g s on aims)[i]? = some aim) :
    (aims[i]? = some aim ∧ ∀ focus, on = some focus → isNear g focus = true → focus.index ≠ i) ∨
    ∃ focus before, on = some focus ∧ isNear g focus = true ∧ focus.index = i ∧
      aims[i]? = some before ∧ aim = raise g s before := by
  cases on with
  | none => exact .inl ⟨h, nofun⟩
  | some focus =>
      unfold raisedAt at h
      dsimp only at h
      by_cases hnear : isNear g focus = true
      · rw [if_pos hnear, List.getElem?_modify] at h
        obtain ⟨before, hbefore, rfl⟩ := Option.map_eq_some_iff.mp h
        by_cases hindex : focus.index = i
        · rw [if_pos hindex]
          exact .inr ⟨focus, before, rfl, hnear, hindex, hbefore, rfl⟩
        · rw [if_neg hindex]
          refine .inl ⟨hbefore, ?_⟩
          rintro _ ⟨⟩ -
          exact hindex
      · rw [if_neg hnear] at h
        refine .inl ⟨h, ?_⟩
        rintro _ ⟨⟩ hon
        exact absurd hon hnear

/-- A row is pinned if nothing else has happened to its aims since it was at rest. -/
theorem pinned_of_aims {on : Option (Focus α)} (hrest : ∀ tile ∈ tiles, tile.Settled)
    (h : tiles'.map Tile.aim = raisedAt g s on (tiles.map Tile.aim)) : Pinned g s on tiles' := by
  have haim : ∀ {i : Nat} {tile' : Tile α}, tiles'[i]? = some tile' →
      (raisedAt g s on (tiles.map Tile.aim))[i]? = some tile'.aim := by
    intro i tile' htile
    rw [← h, List.getElem?_map, htile]
    rfl
  have hsettled : ∀ {i : Nat} {tile' : Tile α}, (tiles.map Tile.aim)[i]? = some tile'.aim →
      tile'.target = tile'.fixed := by
    intro i tile' hsame
    obtain ⟨tile, hmem, haims⟩ := List.mem_map.mp (List.mem_of_getElem? hsame)
    obtain ⟨htarget, hfixed⟩ := Prod.mk.inj haims
    rw [← htarget, ← hfixed]
    exact (hrest tile hmem).target
  constructor
  case inline =>
    intro tile' hmem
    obtain ⟨i, htile⟩ := List.mem_iff_getElem?.mp hmem
    rcases getElem?_raisedAt (haim htile) with ⟨hsame, -⟩ | ⟨_, before, -, -, -, -, hraised⟩
    · rw [hsettled hsame]
    · obtain ⟨htarget, hfixed⟩ := Prod.mk.inj hraised
      rw [htarget, hfixed, Edge.inline_of_modify]
  case only =>
    intro i tile' htile hmoved
    rcases getElem?_raisedAt (haim htile) with ⟨hsame, -⟩ | ⟨focus, _, hon, hnear, hindex, -, -⟩
    · exact absurd (hsettled hsame) hmoved
    · exact ⟨focus, hon, hindex, hnear⟩
  case raised =>
    intro focus hon hnear tile' htile
    rcases getElem?_raisedAt (haim htile) with ⟨-, hother⟩ | ⟨_, before, -, -, -, -, hraised⟩
    · exact absurd rfl (hother focus hon hnear)
    · obtain ⟨htarget, hfixed⟩ := Prod.mk.inj hraised
      rw [htarget, hfixed, Axis.modify, Axis.of_set]
      rfl

/-! ## What the lens does without spread -/

/-- The lens is on a tile between others, or it is on none and nothing happens. -/
theorem magnify_cases (h : magnify g s focus tiles = .ok (tiles', magnified)) :
    (isNear g focus = true ∧ ∃ (before : List (Tile α)) (tile : Tile α) (after : List (Tile α)),
      focus.index = before.length ∧ tiles = before.reverse ++ tile :: after ∧
      tiles' = magnifyAt g s focus before.reverse tile after) ∨
    (isNear g focus = false ∧ tiles' = tiles) := by
  by_cases hnear : isNear g focus = true
  · cases hdrop : tiles.drop focus.index with
    | nil =>
        rw [magnify, if_pos hnear, hdrop] at h
        cases h
    | cons tile after =>
        obtain ⟨before, hindex, rfl⟩ := exists_around hdrop
        rw [magnify_append focus (hindex.trans List.length_reverse.symm), if_pos hnear] at h
        obtain ⟨rfl, -⟩ := Prod.mk.inj (Except.ok.inj h)
        exact .inl ⟨hnear, before, tile, after, hindex, rfl, rfl⟩
  · rw [magnify, if_neg hnear] at h
    obtain ⟨rfl, -⟩ := Prod.mk.inj (Except.ok.inj h)
    exact .inr ⟨(Bool.not_eq_true _).mp hnear, rfl⟩

section Still

variable (hspreads : s.spreads = false)

include hspreads

/-- A wave sends every tile to where it is already heading for. -/
theorem set_neighborInline (hrest : tile.Settled) (direction scale : α) (wave : Wave α) :
    g.edge.inlineAxis.set tile.target (neighborInline g s direction wave scale tile) =
      tile.target := by
  unfold neighborInline
  dsimp only
  rw [hspreads, if_neg Bool.false_ne_true, ← hrest.target, Axis.set_of]

/-- At rest a tile in the center is only raised. -/
theorem centerTarget_of_still (hrest : tile.Settled) : centerTarget g s focus tile =
    g.edge.perpendicularAxis.modify tile.fixed (· + riseOffset g s) := by
  unfold centerTarget
  dsimp only
  rw [hspreads, hrest.target, if_neg Bool.false_ne_true,
    ← Edge.inline_of_modify g.edge tile.fixed (· + riseOffset g s), Axis.set_of]

/-- A wave that does not spread leaves the aims of all tiles. -/
theorem aims_spreadOut {direction : α} {reach : Nat} {wave : Wave α}
    (hrest : ∀ tile ∈ tiles, tile.Settled) :
    (spreadOut g s direction reach wave tiles).map Tile.aim = tiles.map Tile.aim := by
  induction tiles generalizing reach wave with
  | nil => rw [spreadOut_nil]
  | cons tile rest ih =>
      cases reach with
      | zero => rfl
      | succ reach =>
          exact congrArg₂ List.cons
            (Prod.ext (set_neighborInline hspreads (hrest tile List.mem_cons_self) ..) rfl)
            (ih fun other hmem => hrest other (List.mem_cons_of_mem _ hmem))

/-- A wave whose scale never exceeds the one at rest changes nothing. -/
theorem spreadOut_of_still {direction : α} {reach : Nat} {wave : Wave α}
    (hscale : ∀ step < reach, ¬ 1.0 < dwindled s.decay wave.scale (step + 1))
    (hrest : ∀ tile ∈ tiles, tile.Settled) :
    spreadOut g s direction reach wave tiles = tiles := by
  induction tiles generalizing reach wave with
  | nil => rw [spreadOut_nil]
  | cons tile rest ih =>
      cases reach with
      | zero => rfl
      | succ reach =>
          have hfirst : ¬ 1.0 < wave.scale * s.decay := hscale 0 (Nat.succ_pos reach)
          have hothers : ∀ step < reach,
              ¬ 1.0 < dwindled s.decay (wave.scale * s.decay) (step + 1) := by
            intro step hstep
            rw [dwindled_succ]
            exact hscale (step + 1) (Nat.succ_lt_succ hstep)
          unfold spreadOut
          dsimp only
          rw [set_neighborInline hspreads (hrest tile List.mem_cons_self), if_neg hfirst,
            ih hothers fun other hmem => hrest other (List.mem_cons_of_mem _ hmem)]

/-- The lens raises one tile at most. -/
theorem aims_magnify (hrest : ∀ tile ∈ tiles, tile.Settled)
    (h : magnify g s focus tiles = .ok (tiles', magnified)) :
    tiles'.map Tile.aim = raisedAt g s (some focus) (tiles.map Tile.aim) := by
  unfold raisedAt
  dsimp only
  obtain ⟨hnear, before, tile, after, hindex, rfl, rfl⟩ | ⟨hfar, rfl⟩ := magnify_cases h
  · have hbefore : ∀ other ∈ before, other.Settled := fun other hmem =>
      hrest other (List.mem_append_left _ (List.mem_reverse.mpr hmem))
    have hcenter := hrest tile (List.mem_append_right _ List.mem_cons_self)
    have hafter : ∀ other ∈ after, other.Settled := fun other hmem =>
      hrest other (List.mem_append_right _ (List.mem_cons_of_mem _ hmem))
    have hraised : (magnifyCenter g s focus tile).aim = raise g s tile.aim :=
      Prod.ext (centerTarget_of_still hspreads hcenter) rfl
    have hmodify := List.modifyTailIdx_add (List.modifyHead (raise g s)) 0
      (before.map Tile.aim).reverse (tile.aim :: after.map Tile.aim)
    rw [List.length_reverse, List.length_map, ← hindex] at hmodify
    unfold magnifyAt
    dsimp only
    rw [if_pos hnear, List.reverse_reverse, List.map_append, List.map_reverse, List.map_cons,
      aims_spreadOut hspreads hbefore, aims_spreadOut hspreads hafter, hraised,
      List.map_append, List.map_cons, List.map_reverse]
    exact hmodify.symm
  · rw [hfar, if_neg Bool.false_ne_true]

/-- If no wave exceeds the scale at rest, the lens does nothing but magnify the tile it is on. -/
theorem magnifyAt_of_still {before after : List (Tile α)}
    (hscale : ∀ step < waveReach, ¬ 1.0 < dwindled s.decay (1.0 + 0.9 * s.magnify) (step + 1))
    (hbefore : ∀ tile ∈ before, tile.Settled) (hafter : ∀ tile ∈ after, tile.Settled) :
    magnifyAt g s focus before.reverse tile after =
      before.reverse ++ magnifyCenter g s focus tile :: after := by
  unfold magnifyAt
  dsimp only
  rw [List.reverse_reverse, spreadOut_of_still hspreads hscale hbefore,
    spreadOut_of_still hspreads hscale hafter]

end Still

end Lens

/-! ## No effect at all -/

open Double

/-- The tile `tile'` is aimed as `tile` is, as far as comparing can tell. -/
structure Tile.AimedAs (tile tile' : Tile Float) : Prop where
  x : (tile'.target.x == tile.target.x) = true
  y : (tile'.target.y == tile.target.y) = true
  scale : tile'.targetScale = tile.targetScale

/-- A tile with a finite aim aims as it does. -/
theorem Tile.aimedAs_self {tile : Tile Float} (h : tile.target.isFinite = true) :
    tile.AimedAs tile := by
  obtain ⟨hx, hy⟩ := (Bool.and_eq_true _ _).mp h
  exact ⟨beq_self hx, beq_self hy, rfl⟩

/-- Strengths that are all zero, of either sign. -/
structure Strengths.Vanish (s : Strengths Float) : Prop where
  rise : Vanishes s.rise
  magnify : Vanishes s.magnify
  spread : Vanishes s.spread

namespace Lens

variable {g : Geometry Float} {s : Strengths Float}

/-- Whatever tile of a row at rest the lens is put on, every tile with a usable resting position goes
    on heading for it. -/
def Idle (g : Geometry Float) (s : Strengths Float) : Prop :=
  ∀ (focus : Focus Float) (tiles : List (Tile Float)),
    (focus.index < tiles.length → ∃ result, magnify g s focus (tiles.map Tile.reset) = .ok result) ∧
    ∀ tiles' magnified, magnify g s focus (tiles.map Tile.reset) = .ok (tiles', magnified) →
      List.Forall₂ (fun tile tile' => tile.fixed.isFinite = true → tile.AimedAs tile')
        (tiles.map Tile.reset) tiles'

/-- Strengths that vanish do not spread. -/
theorem spreads_of_vanish (h : s.Vanish) : s.spreads = false := by
  unfold Strengths.spreads
  rcases h.spread.eq with hzero | hzero <;> rw [hzero] <;> decide

theorem largest_of_vanish (h : s.Vanish) : 1.0 + 0.9 * s.magnify = 1.0 := by
  rcases h.magnify.eq with hzero | hzero <;> rw [hzero] <;> rfl

/-- The scale of a wave dwindles from one, and never exceeds it again. -/
theorem dwindled_of_vanish (h : s.Vanish) {step : Nat} (hstep : step < waveReach) :
    ¬ 1.0 < dwindled s.decay (1.0 + 0.9 * s.magnify) (step + 1) := by
  have hdecay : s.decay = 0.8 - 0.2 * (1.0 - 0.0) := by
    unfold Strengths.decay
    rcases h.spread.eq with hzero | hzero <;> rw [hzero]
    rfl
  rw [hdecay, largest_of_vanish h]
  revert step
  decide +kernel

/-- The tile under the lens rises by a zero. -/
theorem vanishes_riseOffset (h : s.Vanish) (hmeasured : g.isMeasured = true) :
    Vanishes (riseOffset g s) := by
  obtain ⟨hnominal, hfactor⟩ := (Bool.and_eq_true _ _).mp hmeasured
  have hsign : ∃ sign, (g.edge.awaySign : Float).toModel.unpack =
      .finite sign (2 ^ 52) (-52) (by decide) := by
    cases g.edge
    · exact ⟨.positive, rfl⟩
    · exact ⟨.negative, rfl⟩
    · exact ⟨.negative, rfl⟩
    · exact ⟨.positive, rfl⟩
  obtain ⟨sign, hsign⟩ := hsign
  have hsize : Bounded 971 (g.edge.awaySign * g.iconSize) := by
    rw [Double.mul_comm]
    exact (bounded_of_isFinite (isFinite_evenFloor hnominal)).mul_power hsign (by decide)
      (by decide)
  have hquarter : (0.25 : Float).toModel.unpack = .finite .positive (2 ^ 52) (-54) (by decide) :=
    rfl
  have hrise := h.rise.mul (hsize.mul_power hquarter (by decide) (by decide)).isFinite
  unfold riseOffset
  rw [Double.mul_comm]
  exact hrise.mul hfactor

theorem aimedAs_magnifyCenter (h : s.Vanish) (hmeasured : g.isMeasured = true) {focus : Focus Float}
    {tile : Tile Float} (hrest : tile.Settled) (hfinite : tile.fixed.isFinite = true) :
    tile.AimedAs (magnifyCenter g s focus tile) := by
  have hrise := vanishes_riseOffset h hmeasured
  obtain ⟨hx, hy⟩ := (Bool.and_eq_true _ _).mp hfinite
  have htarget : (magnifyCenter g s focus tile).target =
      g.edge.perpendicularAxis.modify tile.fixed (· + riseOffset g s) :=
    centerTarget_of_still (spreads_of_vanish h) hrest
  constructor
  case x =>
    rw [htarget, hrest.target]
    cases g.edge.perpendicularAxis with
    | x => exact hrise.add_beq hx
    | y => exact beq_self hx
  case y =>
    rw [htarget, hrest.target]
    cases g.edge.perpendicularAxis with
    | x => exact beq_self hy
    | y => exact hrise.add_beq hy
  case scale => exact (largest_of_vanish h).trans hrest.scale.symm

/-- **A LENS WITHOUT STRENGTH IS IDLE.** -/
theorem idle_of_vanish (h : s.Vanish) (hmeasured : g.isMeasured = true) : Idle g s := by
  intro focus tiles
  refine ⟨fun hlt => magnify_eq_ok g s (by rwa [List.length_map]), ?_⟩
  intro tiles' magnified hmagnify
  have hrest : ∀ tile ∈ tiles.map Tile.reset, tile.Settled := fun tile =>
    Tile.settled_of_mem_reset
  generalize tiles.map Tile.reset = resting at hmagnify hrest
  have hself : ∀ tile ∈ resting, tile.fixed.isFinite = true → tile.AimedAs tile := by
    intro tile hmem hfinite
    refine Tile.aimedAs_self ?_
    rw [(hrest tile hmem).target]
    exact hfinite
  obtain ⟨-, before, tile, after, -, rfl, rfl⟩ | ⟨-, rfl⟩ := magnify_cases hmagnify
  · have hcenter : tile ∈ before.reverse ++ tile :: after :=
      List.mem_append_right _ List.mem_cons_self
    have hbefore : ∀ other ∈ before.reverse, other ∈ before.reverse ++ tile :: after :=
      fun other hmem => List.mem_append_left _ hmem
    have hafter : ∀ other ∈ after, other ∈ before.reverse ++ tile :: after :=
      fun other hmem => List.mem_append_right _ (List.mem_cons_of_mem _ hmem)
    rw [magnifyAt_of_still (spreads_of_vanish h) (fun _ => dwindled_of_vanish h)
      (fun other hmem => hrest other (hbefore other (List.mem_reverse.mpr hmem)))
      fun other hmem => hrest other (hafter other hmem)]
    refine List.rel_append (List.forall₂_same.mpr fun other hmem => hself other (hbefore other hmem))
      (.cons ?_ (List.forall₂_same.mpr fun other hmem => hself other (hafter other hmem)))
    exact aimedAs_magnifyCenter h hmeasured (hrest tile hcenter)
  · exact List.forall₂_same.mpr hself

end Lens

/-- Magnification is found to be inert when it has no strength left, and only then. -/
theorem Magnification.isInert_iff {m : Magnification Float}
    (spread : Scalar.isZero m.spread = true) (hrise : 0.0 ≤ m.rise) (hmagnify : 0.0 ≤ m.magnify) :
    m.isInert = true ↔ Scalar.isZero m.rise = true ∧ Scalar.isZero m.magnify = true := by
  have hspread := vanishes_of_isZero spread
  unfold Magnification.isInert
  constructor
  · intro hinert
    obtain ⟨hrise, hmagnify⟩ :=
      Vanishes.of_add hrise hmagnify (hspread.of_add_right (vanishes_of_isZero hinert))
    exact ⟨hrise.isZero, hmagnify.isZero⟩
  · rintro ⟨rise, magnify⟩
    rcases (vanishes_of_isZero rise).eq with hrise | hrise <;>
      rcases (vanishes_of_isZero magnify).eq with hmagnify | hmagnify <;>
        rcases hspread.eq with hspread | hspread <;> rw [hrise, hmagnify, hspread] <;> decide

end FisheyeDock
