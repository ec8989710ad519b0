import FisheyeDock.Proofs.Scalar.Value
import FisheyeDock.Proofs.Dock.Quiet
import FisheyeDock.Proofs.Dock.Solo
import FisheyeDock.Proofs.Frame.Sound
import FisheyeDock.Proofs.Frame.Step

/-! # Positions settle before the ticks stop

    A tick that animates nothing has put every visible tile at rest on its icon, and a tick that
    animates anything begins a new quiet period.  As long as neither happens, no operation moves a
    tile.  So when the quiet period has passed, and there has been a tick in it, all tiles that can be
    seen are at rest (`Timed.settled`).

    There has been a tick, because the ticks fill the quiet period (`Cadence.Timely`).

    All this is said in exact values, in which an icon that is not laid out has no position.  Its tile
    takes its place at once when it is, and begins no quiet period by that. -/

namespace FisheyeDock

open Scene (Command)
open TimerService
open Exact (Value)

/-! ## One step -/

namespace Tile

/-- A tile is at rest on its icon. -/
structure Rested (tile : Tile Value) : Prop where
  placed : tile.fixed.isFinite = true
  position_eq : tile.position = tile.target
  target_eq : tile.target = tile.fixed
  targetScale_eq : tile.targetScale = .number 1
  distance_eq : tile.distance = none

/-- Markers have no say in whether a tile rests. -/
theorem rested_bare {tile : Tile Value} : tile.bare.Rested ↔ tile.Rested :=
  ⟨fun h => ⟨h.1, h.2, h.3, h.4, h.5⟩, fun h => ⟨h.1, h.2, h.3, h.4, h.5⟩⟩

variable {tile : Tile Value} {iconSize : Value} {retracting : Bool}

/-- A position that does not glide to a usable target is set to it: where there was no position, where
    it has as good as arrived, and where the way is too far. -/
theorem smoothPosition_of_not_glided (htarget : tile.target.isFinite = true)
    (h : (tile.smoothPosition iconSize retracting).2 = false) :
    (tile.smoothPosition iconSize retracting).1 = tile.target := by
  cases hposition : tile.position.isFinite with
  | false => rw [smoothPosition_of_unplaced hposition htarget]
  | true =>
      obtain ⟨p, hp⟩ := Point.exists_number hposition
      obtain ⟨q, hq⟩ := Point.exists_number htarget
      rw [smoothPosition_number hp hq] at h ⊢
      rw [hq]
      cases hmotion : Motion.over (.number (p.distance q)) iconSize with
      | arrive | jump => rfl
      | glide =>
          rw [hmotion] at h
          exact nomatch h

/-- From one usable position a step leads to another: by a part of the way where it glides, to the
    end of it otherwise. -/
theorem advance_number {p q : Point ℝ} {size : ℝ} (hvisible : tile.visible = true)
    (hposition : tile.position = .number p) (htarget : tile.target = .number q) :
    (Glides size (p.distance q) ∧
      (tile.advance (.number size) retracting).1.position =
        .number (Point.blend p q (2.0 * leaveFactor retracting)) ∧
      (tile.advance (.number size) retracting).2 = true) ∨
    (¬ Glides size (p.distance q) ∧
      (tile.advance (.number size) retracting).1.position = .number q ∧
      (tile.advance (.number size) retracting).2 = false) := by
  have hmoved : tile.bare.smoothPosition (.number size) retracting = _ :=
    smoothPosition_number hposition htarget (.number size) retracting
  rw [Motion.over_number] at hmoved
  unfold advance
  rw [if_pos hvisible]
  by_cases hglides : Glides size (p.distance q)
  · rw [(over_eq_glide_iff _ _).mpr hglides] at hmoved
    exact .inl ⟨hglides, Prod.mk.inj hmoved⟩
  · refine .inr ⟨hglides, ?_⟩
    cases hmotion : Motion.over (p.distance q) size with
    | glide => exact absurd ((over_eq_glide_iff _ _).mp hmotion) hglides
    | arrive | jump =>
        rw [hmotion] at hmoved
        exact Prod.mk.inj hmoved

/-- A tile that is sent to rest on a place and does not glide is there. -/
theorem rested_of_not_glided (hvisible : tile.visible = true) (hplaced : tile.fixed.isFinite = true)
    (h : (tile.reset.advance iconSize retracting).2 = false) :
    (tile.reset.advance iconSize retracting).1.Rested := by
  unfold advance at h ⊢
  rw [if_pos (show tile.reset.visible = true from hvisible)] at h ⊢
  exact ⟨hplaced, smoothPosition_of_not_glided hplaced h, rfl, congrArg Value.number one_real, rfl⟩

end Tile

namespace Dock

variable {τ : Type} [TimerService τ] {dock dock' : Dock Value τ}

/-! ## One tick -/

/-- All tiles that can be seen are at rest. -/
def AtRest (dock : Dock Value τ) : Prop :=
  ∀ tile ∈ dock.row.tiles, tile.visible = true → tile.Rested

omit [TimerService τ] in
/-- The icons of visible tiles have places. -/
theorem isFinite_updated {host : Host Value} {tile : Tile Value}
    (h : tile ∈ (dock.updated host).row.tiles) (hvisible : tile.visible = true) :
    tile.fixed.isFinite = true := by
  rcases mem_updated h with ⟨old, -, icon, -, rfl⟩ | ⟨id, icon, -, rfl⟩
  · exact Tile.fixed_refresh hvisible
  · exact Tile.isFinite_ofIcon hvisible

variable [TimedService τ] {allowed : Host Value → Prop}

/-- Where a tick of the present quiet period has come that did not rearm it, all tiles are at
    rest. -/
theorem atRest_of_counted {host : Host Value} {commands : List (Command Value)} {animated : Bool}
    (timely : dock.cadence.Timely) (henabled : dock.enabled = true)
    (htick : dock.tick host = .ok (dock', commands, animated))
    (running : dock'.cadence.phase = .running) (counted : dock'.cadence.delays ≠ []) :
    dock'.AtRest := by
  intro tile htile hvisible
  obtain ⟨shown, hanimate⟩ := unanimated_of_counted timely henabled htick running counted
  obtain ⟨old, hold, retracting, hbare, hglided⟩ := unanimated_of_mem hanimate htile
  have hvisible' : old.visible = true := by
    have hsame := congrArg Tile.visible hbare
    unfold Tile.advance at hsame
    split at hsame
    · assumption
    · exact hsame.trans hvisible
  rw [← Tile.rested_bare, ← hbare, Tile.rested_bare]
  exact Tile.rested_of_not_glided hvisible' (isFinite_updated hold hvisible') hglided

/-! ## Runs -/

/-- Once a tick has been counted in the present quiet period, all that can be seen is at rest. -/
theorem Timed.atRest (h : Timed allowed dock) (running : dock.cadence.phase = .running)
    (counted : dock.cadence.delays ≠ []) : dock.AtRest := by
  induction h with
  | new timers obliges nothing => exact nomatch running
  | @step dock dock' occurrence before step ih =>
      cases step.beat before.sound before.timely with
      | turns turn row =>
          -- a new quiet period has no ticks, and the old one has kept the row
          rcases turn.delays running with hnone | ⟨hrunning, hdelays⟩
          · exact absurd hnone counted
          · exact fun tile htile => ih hrunning (hdelays ▸ counted) tile (mem_of_row row htile)
      | passes obliges passes dock_eq =>
          subst dock_eq
          have hdelays : (dock.withTimers _).cadence.delays = dock.cadence.delays :=
            Cadence.delays_pass passes
          exact ih running (hdelays ▸ counted)
      | ticks allows hrunning tick_held obliges rings tick =>
          have hrung : (dock.withTimers _).cadence.Timely :=
            (before.timely.ring_tick hrunning tick_held obliges rings).1
          have henabled : (dock.withTimers _).enabled = true :=
            before.sound.enabled_of_held (a := .tick) tick_held
          -- what was at rest before does not matter, since the tick has gone through the whole row
          exact atRest_of_counted hrung henabled tick running counted

/-- **THE TILES HAVE SETTLED** whenever the quiet period passes and the ticks stop: there has been a
    tick in it, and every tile that can be seen is at rest on its icon, in exact arithmetic. -/
theorem Timed.settled (h : Timed allowed dock)
    (quiet : TimedStep allowed dock (some (.alarm .quiet)) dock') :
    dock.cadence.phase = .running ∧ dock'.cadence.phase = .idle ∧ dock.cadence.delays ≠ [] ∧
      ∀ tile ∈ dock'.row.tiles, tile.visible = true → tile.Rested := by
  obtain ⟨hrunning, hidle, hrow, hfilled⟩ := h.quiet_passed quiet
  -- no ticks cannot fill the quiet period
  have hcounted : dock.cadence.delays ≠ [] := by
    intro hnone
    rw [hnone] at hfilled
    simp [Cadence.quietPeriod, milliseconds] at hfilled
  refine ⟨hrunning, hidle, hcounted, ?_⟩
  rw [hrow]
  exact h.atRest hrunning hcounted

/-! ## A run that settles -/

section Late

open Cadence (Alike vigil baseInterval quietPeriod)

/-- A favorite that has been laid out at a place, or has not been yet. -/
noncomputable def lateIcon (place : Option (Point ℝ)) : Icon Value :=
  { (Icon.favorite 1 Point.undefined : Icon Value) with position := place.map Point.number }

/-- A host with that icon, and with no pointer on the screen. -/
noncomputable def lateHost (place : Option (Point ℝ)) : Host Value where
  settings := .standard
  geometry := .standard
  icons := [lateIcon place]

variable {place : Option (Point ℝ)} {p q : Point ℝ} {tile : Tile Value}

/-- The late host has one icon only. -/
theorem solo_lateHost (place : Option (Point ℝ)) : Solo (lateHost place) (lateIcon place) :=
  ⟨rfl, rfl, rfl, rfl⟩

theorem iconSize_standard : (Geometry.standard : Geometry Value).iconSize = .number 48 := by
  have htwo : Exact.literal 20 true 1 = 2 := by
    show (2.0 : ℝ) = 2
    rw [ofScientific_real]
    norm_num
  have hsize : Exact.literal 480 true 1 = 48 := by
    show (48.0 : ℝ) = 48
    rw [ofScientific_real]
    norm_num
  show Scalar.floor (Value.number (Exact.literal 480 true 1) / .number (Exact.literal 20 true 1))
    * .number (Exact.literal 20 true 1) = .number 48
  rw [htwo, hsize, Value.div_number (by norm_num)]
  show Value.number (((⌊(48 : ℝ) / 2⌋ : ℤ) : ℝ) * 2) = .number 48
  norm_num

/-- No tile is near a pointer that is not there. -/
theorem pointerFocus_lateHost (place : Option (Point ℝ)) (tile : Tile Value) :
    pointerFocus (lateHost place) [tile] = none := by
  have hfar : ¬ Lens.pointerDistance (lateHost place).geometry tile <
      Lens.hitRadius (lateHost place).geometry := fun h => h
  unfold pointerFocus
  dsimp only
  split
  · rfl
  · unfold Lens.nearest? Lens.nearestFrom Lens.improves
    rw [decide_eq_false hfar, Bool.and_false]
    rfl

/-- Where a run over the icon stands: the tile is at a position of its own, and knows the place that
    the icon had at the last tick. -/
structure Late (dock : Dock Value Chronicle) (cadence : Cadence Chronicle)
    (place : Option (Point ℝ)) (position : Point Value) : Prop where
  timed : Timed (fun _ => True) dock
  ready : dock.Ready
  alike : Alike cadence dock.cadence
  single : ∃ tile, dock.row.tiles = [tile] ∧ tile.key = 1 ∧ tile.position = position ∧
    tile.visible = place.isSome ∧ ∀ q ∈ place, tile.fixed = .number q

variable {dock : Dock Value Chronicle} {position : Point Value}
variable {now next quiet time next' : Nat} {handle : TimerHandle} {journal : List Note}

/-- The next tick of a run over the icon. -/
theorem Timed.late_tick (h : Timed (fun _ => True) dock) (ready : dock.Ready)
    (alike : Alike (vigil now next quiet handle journal) dock.cadence) (hnow : now ≤ time)
    (hdue : next ≤ time) (hfirst : next ≤ quiet) (hagain : next' ≤ time + baseInterval)
    (hrow : ∀ timers, ((dock.withTimers timers).updated (lateHost place)).row.tiles = [tile]) :
    ∃ dock', Timed (fun _ => True) dock' ∧
      Stepped (vigil time next' quiet handle (.rang .tick (time - next) :: journal)) dock'
        (tile.reset.advance (.number 48) true).1 (tile.reset.advance (.number 48) true).2 := by
  have hnone := pointerFocus_lateHost place tile.reset
  have hstep : soloStep (lateHost place) tile tile.reset =
      tile.reset.advance (.number 48) true := by
    unfold soloStep
    rw [hnone]
    show Tile.advance (Geometry.standard : Geometry Value).iconSize _ _ = _
    rw [iconSize_standard]
    rfl
  have hunlensed : magnify (lateHost place) (pointerFocus (lateHost place) [tile.reset])
      [tile.reset] = .ok ([tile.reset], false) := by
    rw [hnone]
    rfl
  have hticked := h.solo_tick trivial ready rfl alike hnow hdue hfirst hagain hrow hunlensed
  rwa [hstep, Bool.false_or] at hticked

/-- The tile of the icon has taken its step. -/
theorem Late.of_stepped {cadence : Cadence Chronicle} {animated : Bool}
    (timed : Timed (fun _ => True) dock) (hkey : tile.key = 1)
    (stepped : Stepped cadence dock
      ((tile.refresh (lateIcon (some q))).reset.advance (.number 48) true).1 animated) :
    Late dock (if animated then cadence.rearm else cadence) (some q)
      ((tile.refresh (lateIcon (some q))).reset.advance (.number 48) true).1.position := by
  obtain ⟨ready, alike, tile', hrow, hbare⟩ := stepped
  refine ⟨timed, ready, alike, tile', hrow, ?_, ?_, ?_, ?_⟩
  · exact (congrArg Tile.key hbare).trans hkey
  · exact show tile'.bare.position = _ from congrArg Tile.position hbare
  · exact congrArg Tile.visible hbare
  · rintro _ ⟨⟩
    exact congrArg Tile.fixed hbare

/-- A tick over the icon, where it is laid out.  The tile starts from where it is, or from the place of
    the icon if it is nowhere. -/
theorem Late.tick (h : Late dock (vigil now next quiet handle journal) place position)
    (hnow : now ≤ time) (hdue : next ≤ time) (hfirst : next ≤ quiet)
    (hagain : next' ≤ time + baseInterval)
    (hstart : position = .number p ∨ position.isFinite = false ∧ p = q) :
    ∃ dock',
      (Tile.Glides 48 (p.distance q) ∧
        Late dock' (vigil time next' quiet handle (.rang .tick (time - next) :: journal)).rearm
          (some q) (.number (Point.blend p q (2.0 * Tile.leaveFactor true)))) ∨
      (¬ Tile.Glides 48 (p.distance q) ∧
        Late dock' (vigil time next' quiet handle (.rang .tick (time - next) :: journal))
          (some q) (.number q)) := by
  obtain ⟨tile, hrow, hkey, rfl, -, -⟩ := h.single
  obtain ⟨dock', timed, stepped⟩ := h.timed.late_tick h.ready h.alike hnow hdue hfirst hagain
    fun timers => tiles_updated_of_single (solo_lateHost (some q)) hrow hkey
  have late := Late.of_stepped timed hkey stepped
  have hposition : (tile.refresh (lateIcon (some q))).reset.position = .number p := by
    show (if tile.position.isFinite then tile.position else Point.number q) = _
    rcases hstart with hplaced | ⟨hnowhere, rfl⟩
    · rw [hplaced]
      rfl
    · rw [hnowhere]
      rfl
  refine ⟨dock', ?_⟩
  rcases Tile.advance_number rfl hposition rfl with
    ⟨hglides, hmoved, hglided⟩ | ⟨hrests, hmoved, hglided⟩
  · rw [hmoved, hglided] at late
    exact .inl ⟨hglides, late⟩
  · rw [hmoved, hglided] at late
    exact .inr ⟨hrests, late⟩

/-- Three ways: none, one that is glided over, and what is left of it after that. -/
theorem glides_late : ¬ Tile.Glides 48 (Point.distance (⟨0, 0⟩ : Point ℝ) ⟨0, 0⟩) ∧
    Tile.Glides 48 (Point.distance (⟨0, 0⟩ : Point ℝ) ⟨3 / 5, 0⟩) ∧
    ¬ Tile.Glides 48 (Point.distance
      (Point.blend (⟨0, 0⟩ : Point ℝ) ⟨3 / 5, 0⟩ (2.0 * Tile.leaveFactor true)) ⟨3 / 5, 0⟩) := by
  have hblend : Point.blend (⟨0, 0⟩ : Point ℝ) ⟨3 / 5, 0⟩ (2.0 * Tile.leaveFactor true) =
      ⟨3 / 19, 0⟩ := by
    unfold Point.blend blend Tile.leaveFactor
    simp only [ofScientific_real]
    norm_num
  have hdistance : ∀ a b : ℝ, Point.distance (⟨a, 0⟩ : Point ℝ) ⟨b, 0⟩ = |a - b| := by
    intro a b
    have hlevel : Axis.x.across.of (⟨a, 0⟩ : Point ℝ) = Axis.x.across.of ⟨b, 0⟩ := rfl
    exact Point.distance_of_level hlevel
  rw [hblend, hdistance, hdistance, hdistance]
  unfold Tile.Glides
  refine ⟨?_, ?_, ?_⟩ <;> norm_num [abs_of_neg]

/-- The run up to the first tick: the icon is there, and is not laid out. -/
theorem exists_late : ∃ dock, Late dock
    (vigil (milliseconds 15) (milliseconds 30) (milliseconds 765) 0
      [.rang .tick 0, .asked .quiet, .asked .tick]) none Point.undefined := by
  have hinterval : Cadence.intervalFor (lateHost none).settings.magnification.fps =
      .ok baseInterval := by
    have hzero : Exact.literal 0 true 1 = 0 := by
      show (0.0 : ℝ) = 0
      rw [ofScientific_real]
      norm_num
    show Cadence.intervalFor (Value.number (Exact.literal 0 true 1)) = _
    rw [hzero, Cadence.intervalFor_number, Cadence.intervalFor_zero]
  have hwoken : ∃ dock : Dock Value Chronicle, Timed (fun _ => True) dock ∧ dock.Ready ∧
      dock.row = Row.empty ∧ Alike (vigil 0 (0 + baseInterval) (0 + (quietPeriod + baseInterval)) 0
        [.asked .quiet, .asked .tick]) dock.cadence :=
    Timed.woken (lateHost none) trivial rfl hinterval
  obtain ⟨dock, timed, ready, hempty, alike⟩ := hwoken
  obtain ⟨dock', timed', ready', alike', tile', hrow', hbare⟩ := timed.late_tick ready alike
    (by decide : 0 ≤ milliseconds 15) (by decide) (by decide)
    (by decide : milliseconds 30 ≤ milliseconds 15 + baseInterval)
    fun timers => tiles_updated_of_empty (solo_lateHost none) hempty
  refine ⟨dock', timed', ready', alike', tile', hrow', ?_⟩
  exact ⟨congrArg Tile.key hbare, congrArg Tile.position hbare, congrArg Tile.visible hbare, nofun⟩

/-- The icon is laid out late, and moves once more a little later.  Its tile takes its place at once,
    glides after it, and is at rest when the quiet period after that has passed. -/
theorem settled_after_glide : ∃ (dock dock' : Dock Value Chronicle) (tile : Tile Value),
    Timed (fun _ => True) dock ∧ TimedStep (fun _ => True) dock (some (.alarm .quiet)) dock' ∧
    dock'.cadence.phase = .idle ∧ dock'.row.tiles = [tile] ∧
    tile.fixed = .number ⟨3 / 5, 0⟩ ∧ tile.Rested := by
  obtain ⟨hrests, hglides, harrives⟩ := glides_late
  obtain ⟨dock₁, late₁⟩ := exists_late
  -- the tile takes its place, and begins no quiet period by that
  have hnowhere : (Point.undefined : Point Value).isFinite = false := rfl
  obtain ⟨dock₂, ⟨hglides₂, -⟩ | ⟨-, late₂⟩⟩ := late₁.tick
    (by decide : milliseconds 15 ≤ milliseconds 30) (Nat.le_refl _) (by decide)
    (by decide : milliseconds 45 ≤ milliseconds 30 + baseInterval) (.inr ⟨hnowhere, rfl⟩)
  · exact absurd hglides₂ hrests
  obtain ⟨dock₃, ⟨-, late₃⟩ | ⟨hrests₃, -⟩⟩ := late₂.tick
    (by decide : milliseconds 30 ≤ milliseconds 45) (Nat.le_refl _) (by decide)
    (by decide : milliseconds 60 ≤ milliseconds 45 + baseInterval) (.inl rfl)
  swap
  · exact absurd hglides hrests₃
  rw [Cadence.rearm_vigil] at late₃
  -- one tick, a late one, is all there is in the quiet period that the glide has begun
  obtain ⟨dock₄, ⟨hglides₄, -⟩ | ⟨-, late₄⟩⟩ := late₃.tick
    (by decide : milliseconds 45 ≤ milliseconds 800) (by decide) (by decide)
    (by decide : milliseconds 815 ≤ milliseconds 800 + baseInterval) (.inl rfl)
  · exact absurd hglides₄ harrives
  obtain ⟨dock', hquiet⟩ := late₄.timed.exists_quiet (lateHost none) trivial late₄.alike
    (by decide : milliseconds 800 ≤ milliseconds 45 + (quietPeriod + baseInterval))
    (by decide : _ ≤ milliseconds 815)
  obtain ⟨tile, hrow, -, -, hvisible, hfixed⟩ := late₄.single
  obtain ⟨-, -, hkept, -⟩ := late₄.timed.quiet_passed hquiet
  obtain ⟨-, hidle, -, hrested⟩ := late₄.timed.settled hquiet
  have htiles : dock'.row.tiles = [tile] := by rw [hkept, hrow]
  exact ⟨dock₄, dock', tile, late₄.timed, hquiet, hidle, htiles, hfixed _ rfl,
    hrested tile (htiles ▸ List.mem_cons_self) hvisible⟩

end Late

end Dock

end FisheyeDock
