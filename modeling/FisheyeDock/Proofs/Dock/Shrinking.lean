import FisheyeDock.Proofs.Scalar.Value
import FisheyeDock.Proofs.Dock.Quiet
import FisheyeDock.Proofs.Dock.Scales

/-! # How far scales settle before the ticks stop

    A tick that animates nothing lets every tile shrink by two ninths of what it is too large by, or
    more.  Nobody waits for the scales: a quiet period is over when it is over, and how many ticks fit
    into it is a matter of the interval between them.  So the tiles are too large by `leftover` at
    most when the ticks stop, for as many ticks as the quiet period had (`Timed.shrunk`). -/

namespace FisheyeDock.Dock

open Scene (Command)
open TimerService

/-- The largest scale of a tile after so many ticks on the way to rest. -/
noncomputable def leftover (ticks : Nat) : ℝ := 1 + 0.9 * (3.5 / 4.5) ^ ticks

/-- What is left of a scale after a number of ticks, each of which takes two ninths off. -/
theorem leftover_eq (ticks : Nat) : leftover ticks = 1 + 9 / 10 * (7 / 9) ^ ticks := by
  unfold leftover
  simp only [ofScientific_real]
  norm_num

/-- At first it may be the largest scale. -/
theorem leftover_zero : leftover 0 = largestScale := by
  rw [leftover_eq, largestScale_eq, pow_zero]
  norm_num

/-- One more tick takes two ninths off what a scale is above one. -/
theorem leftover_succ (ticks : Nat) :
    leftover (ticks + 1) = 7 / 9 * (leftover ticks - 1) + 1 := by
  rw [leftover_eq, leftover_eq, pow_succ]
  ring

/-- A scale does not fall below one. -/
theorem one_le_leftover (ticks : Nat) : 1 ≤ leftover ticks := by
  rw [leftover_eq]
  have hpow : (0 : ℝ) ≤ (7 / 9) ^ ticks := by positivity
  linarith

/-- After twenty-seven ticks next to nothing is left. -/
theorem leftover_lt {ticks : Nat} (h : 27 < ticks) : leftover ticks < 1001 / 1000 := by
  have hpow : ((7 : ℝ) / 9) ^ ticks ≤ (7 / 9) ^ 28 :=
    pow_le_pow_of_le_one (by norm_num) (by norm_num) h
  have hsmall : ((7 : ℝ) / 9) ^ 28 < 1 / 900 := by norm_num
  rw [leftover_eq]
  linarith

/-- Hosts with strengths from zero to one, in which every icon is laid out. -/
structure Mild (host : Host ℝ) : Prop where
  strengths : (Strengths.ofMagnification host.settings.magnification).Mild
  laidOut : ∀ icon ∈ host.icons, icon.position.isSome = true

variable {τ : Type} [TimerService τ] {dock dock' : Dock ℝ τ} {host : Host ℝ} {bound : ℝ}
variable {commands : List (Command ℝ)} {animated : Bool}

/-- The scales of all tiles are from one to a bound. -/
def Within (dock : Dock ℝ τ) (bound : ℝ) : Prop :=
  ∀ tile ∈ dock.row.tiles, 1 ≤ tile.scale ∧ tile.scale ≤ bound

/-! ## One tick -/

omit [TimerService τ] in
/-- Bounds are kept where the row is the same or gone. -/
theorem within_of_row (h : dock.Within bound) (row : dock'.row = dock.row ∨ dock'.row.tiles = []) :
    dock'.Within bound :=
  fun tile htile => h tile (mem_of_row row htile)

omit [TimerService τ] in
/-- The icons come and go with tiles in bounds, all of which are visible. -/
theorem Within.updated (h : dock.Within bound) (hbound : 1 ≤ bound) (mild : Mild host) :
    ∀ tile ∈ (dock.updated host).row.tiles,
      tile.visible = true ∧ 1 ≤ tile.scale ∧ tile.scale ≤ bound := by
  have hresting : ∀ icon ∈ host.icons, ∃ resting, icon.restingPosition = some resting := by
    intro icon hicon
    obtain ⟨position, hposition⟩ := Option.isSome_iff_exists.mp (mild.laidOut icon hicon)
    refine ⟨position, ?_⟩
    unfold Icon.restingPosition
    rw [hposition]
    rfl
  intro tile htile
  rcases mem_updated htile with ⟨old, hold, icon, hicon, rfl⟩ | ⟨id, icon, hicon, rfl⟩
  · obtain ⟨resting, hsome⟩ := hresting icon hicon
    unfold Tile.refresh
    rw [hsome]
    exact ⟨rfl, h old hold⟩
  · obtain ⟨resting, hsome⟩ := hresting icon hicon
    have hone : (Tile.ofIcon id icon).scale = 1 := one_real
    rw [hone]
    exact ⟨congrArg Option.isSome hsome, le_rfl, hbound⟩

/-- Whatever a tick animates, no tile leaves the bounds. -/
theorem within_of_animate (mild : Mild host)
    (h : ∀ tile ∈ dock.row.tiles, 1 ≤ tile.scale ∧ tile.scale ≤ largestScale)
    (hanimate : dock.animate host = .ok (dock', commands, animated)) :
    dock'.Within largestScale := by
  obtain ⟨tiles, magnified, _, hmagnify, -, -, -, rfl⟩ := animate_cases hanimate
  intro tile hmem
  have hin := inScale_framed mild.strengths h hmagnify tile hmem
  exact ⟨hin.one_le, hin.le_largest⟩

/-- In a tick that animates nothing, what every tile is too large by shrinks. -/
theorem shrinks_of_unanimated (mild : Mild host) {ticks : Nat} (h : dock.Within (leftover ticks))
    (hanimate : (dock.updated host).animate host = .ok (dock', commands, false)) :
    dock'.Within (leftover (ticks + 1)) := by
  intro tile' hmem
  obtain ⟨tile, htile, retracting, hbare, -⟩ := unanimated_of_mem hanimate hmem
  obtain ⟨hvisible, hone, hle⟩ := h.updated (one_le_leftover ticks) mild tile htile
  obtain ⟨hone', hshrinks⟩ := Tile.scale_advance_reset hvisible hone
  have hmoved : (tile.reset.advance host.geometry.iconSize retracting).1.scale = tile'.scale :=
    show Tile.scale (Tile.bare _) = tile'.bare.scale from congrArg Tile.scale hbare
  rw [← hmoved, leftover_succ]
  exact ⟨hone', by linarith⟩

variable [TimedService τ] {allowed : Host ℝ → Prop}

omit [TimedService τ] in
/-- A tick keeps the bound of all scales. -/
theorem within_of_tick (mild : Mild host) (h : dock.Within largestScale)
    (htick : dock.tick host = .ok (dock', commands, animated)) : dock'.Within largestScale := by
  have hlargest : 1 ≤ largestScale := leftover_zero ▸ one_le_leftover 0
  obtain ⟨-, rfl, -⟩ | ⟨-, -, heq⟩ | ⟨henabled, -, -, heq⟩ | ⟨-, -, -, shown, hanimate, -⟩ :=
    tick_cases htick
  · exact h
  · rw [show dock' = _ from congrArg Prod.fst heq]
    exact within_of_row h (.inr (tiles_withdraw _))
  · rw [show dock' = _ from congrArg Prod.fst heq, disable, if_pos henabled]
    exact within_of_row h (.inr (tiles_withdraw _))
  · exact within_of_animate mild (fun tile hmem => (h.updated hlargest mild tile hmem).2) hanimate

/-! ## Runs -/

/-- In every run no scale is out of bounds, and each tick of a quiet period lets all tiles shrink. -/
theorem Timed.within (h : Timed allowed dock) (mild : ∀ host, allowed host → Mild host) :
    dock.Within largestScale ∧
      (dock.cadence.phase = .running → dock.Within (leftover dock.cadence.delays.length)) := by
  induction h with
  | new timers obliges nothing =>
      have hempty : ∀ bound, (Dock.new timers : Dock ℝ τ).Within bound :=
        fun bound tile hmem => nomatch hmem
      exact ⟨hempty _, fun _ => hempty _⟩
  | @step dock dock' occurrence before step ih =>
      obtain ⟨hlargest, hleft⟩ := ih
      cases step.beat before.sound before.timely with
      | turns turn row =>
          have hwithin := within_of_row hlargest row
          refine ⟨hwithin, fun running => ?_⟩
          -- where a new quiet period begins, no more is known than that no scale is out of bounds
          rcases turn.delays running with hnone | ⟨hrunning, hdelays⟩
          · rw [hnone, List.length_nil, leftover_zero]
            exact hwithin
          · rw [hdelays]
            exact within_of_row (hleft hrunning) row
      | passes obliges passes dock_eq =>
          subst dock_eq
          have hdelays : (dock.withTimers _).cadence.delays = dock.cadence.delays :=
            Cadence.delays_pass passes
          rw [hdelays]
          exact ⟨hlargest, hleft⟩
      | @ticks timers _ _ host _ _ allows hrunning tick_held obliges rings tick =>
          obtain ⟨hrung, delay, hdelays⟩ :=
            before.timely.ring_tick hrunning tick_held obliges rings
          have henabled : (dock.withTimers timers).enabled = true :=
            before.sound.enabled_of_held (a := .tick) tick_held
          have hmild := mild host allows
          have hrow : (dock.withTimers timers).Within largestScale := hlargest
          have hticked := within_of_tick hmild hrow tick
          refine ⟨hticked, fun running => ?_⟩
          rcases (turn_tick hrung tick).delays running with hnone | ⟨-, hsame⟩
          · rw [hnone, List.length_nil, leftover_zero]
            exact hticked
          · -- the tick is counted in the quiet period it leaves behind: it has animated nothing
            have hcounted : dock'.cadence.delays = delay :: dock.cadence.delays :=
              hsame.trans hdelays
            obtain ⟨shown, hanimate⟩ := unanimated_of_counted hrung henabled tick running
              (by rw [hcounted]; exact List.cons_ne_nil _ _)
            have hbefore : (dock.withTimers timers).Within (leftover dock.cadence.delays.length) :=
              hleft hrunning
            rw [hcounted, List.length_cons]
            exact shrinks_of_unanimated hmild hbefore hanimate

/-- **THE SCALES SETTLE** as far as the quiet period lets them: when it passes, the tiles are too large
    by what the ticks since its beginning have left over.  Those ticks have filled it, so that there
    were many of them where they follow each other fast, and the scales are then below 1.001. -/
theorem Timed.shrunk (h : Timed allowed dock) (mild : ∀ host, allowed host → Mild host)
    (quiet : TimedStep allowed dock (some (.alarm .quiet)) dock') :
    Cadence.quietPeriod ≤
        dock.cadence.delays.length * dock.cadence.interval + dock.cadence.delays.sum ∧
      (∀ tile ∈ dock'.row.tiles,
        1 ≤ tile.scale ∧ tile.scale ≤ leftover dock.cadence.delays.length) ∧
      (27 * dock.cadence.interval + dock.cadence.delays.sum < Cadence.quietPeriod →
        ∀ tile ∈ dock'.row.tiles, tile.scale < 1001 / 1000) := by
  obtain ⟨hrunning, -, hrow, hfilled⟩ := h.quiet_passed quiet
  have hwithin := (h.within mild).2 hrunning
  refine ⟨hfilled, hrow ▸ hwithin, fun hfast tile htile => ?_⟩
  -- so few ticks would not have filled the quiet period
  have hticks : 27 < dock.cadence.delays.length := by
    by_contra hfew
    have hle : dock.cadence.delays.length * dock.cadence.interval ≤ 27 * dock.cadence.interval :=
      Nat.mul_le_mul_right _ (Nat.le_of_not_lt hfew)
    omega
  exact lt_of_le_of_lt (hwithin tile (hrow ▸ htile)).2 (leftover_lt hticks)

/-! ## A tile that shrinks -/

section Left

open Cadence (Alike vigil baseInterval quietPeriod)

/-- The host of the tile that grows, after the pointer has left. -/
noncomputable def leftHost : Host ℝ :=
  { hoveredHost with geometry :=
    { Lens.onFirst with pointer := ⟨1024, Lens.onFirst.pointer.y⟩ } }

theorem mild_hoveredHost : Mild hoveredHost where
  strengths := mildlySet_hoveredHost
  laidOut := by
    intro icon hicon
    rw [List.mem_singleton.mp hicon]
    rfl

theorem mild_leftHost : Mild leftHost := ⟨mildlySet_hoveredHost, mild_hoveredHost.laidOut⟩

theorem solo_leftHost : Solo leftHost (Icon.favorite 1 ⟨0, 0⟩) := ⟨rfl, rfl, rfl, rfl⟩

variable {tile : Tile ℝ}

/-- The pointer is out of reach. -/
theorem pointerFocus_leftHost (hfixed : tile.fixed = ⟨0, 0⟩) :
    pointerFocus leftHost [tile.reset] = none := by
  have hsize : leftHost.geometry.iconSize = 48 := Lens.iconSize_onFirst
  have hcenter : Lens.restingCenter leftHost.geometry tile.reset = ⟨24, 24⟩ := by
    have hhalf : leftHost.geometry.iconSize * 1 / 2.0 = 24 := by
      rw [hsize, ofScientific_real]
      norm_num
    show Point.mk (tile.fixed.x + leftHost.geometry.iconSize * 1 / 2.0)
      (tile.fixed.y + leftHost.geometry.iconSize * 1 / 2.0) = _
    rw [hhalf, hfixed, zero_add]
  have hdistance : Lens.pointerDistance leftHost.geometry tile.reset = 1000 := by
    have hlevel : Axis.x.across.of leftHost.geometry.pointer =
        Axis.x.across.of (⟨24, 24⟩ : Point ℝ) := rfl
    unfold Lens.pointerDistance
    rw [hcenter, Point.distance_of_level hlevel]
    show |(1024 : ℝ) - 24| = 1000
    norm_num
  have hfar : ¬ Lens.pointerDistance leftHost.geometry tile.reset <
      Lens.hitRadius leftHost.geometry := by
    show ¬ _ < leftHost.geometry.iconSize * 1.25 * 1
    rw [hdistance, hsize, ofScientific_real]
    norm_num
  unfold pointerFocus
  dsimp only
  split
  · rfl
  · unfold Lens.nearest? Lens.nearestFrom Lens.improves
    rw [decide_eq_false hfar, Bool.and_false]
    rfl

/-- A tile that is in its place and larger than at rest stays in its place, and larger than at rest. -/
theorem advance_in_place (hvisible : tile.visible = true) (hposition : tile.position = tile.fixed)
    (hscale : 1 < tile.scale) (iconSize : ℝ) (retracting : Bool) :
    (tile.reset.advance iconSize retracting).2 = false ∧
      (tile.reset.advance iconSize retracting).1.position = tile.fixed ∧
      1 < (tile.reset.advance iconSize retracting).1.scale := by
  have hstill : ¬ Tile.Glides iconSize tile.reset.bare.way := by
    rw [Tile.way_of_eq (show tile.reset.bare.position = tile.reset.bare.target from hposition)]
    exact Tile.not_glides_zero iconSize
  have hinertia := Tile.inertia_pos retracting
  have htarget : tile.reset.bare.targetScale = 1 := Tile.targetScale_reset tile
  have hone : 1 ≤ tile.reset.bare.scale := hscale.le
  have hleft := @Tile.smoothScale_sub tile.reset.bare retracting hone htarget.ge
  rw [htarget] at hleft
  have hpositive : 0 < Tile.inertia retracting / (Tile.inertia retracting + 1) *
      (tile.reset.bare.scale - 1) := by
    refine mul_pos (by positivity) ?_
    exact sub_pos.mpr hscale
  unfold Tile.advance
  rw [if_pos (show tile.reset.visible = true from hvisible)]
  refine ⟨?_, Tile.smoothPosition_of_not_glides hstill, ?_⟩
  · exact (Bool.not_eq_true _).mp (mt Tile.glided_iff.mp hstill)
  · show 1 < tile.reset.bare.smoothScale retracting
    linarith

/-- Where a run stands after the pointer has left the tile: it is in its place, and still larger than
    at rest. -/
structure Left (dock : Dock ℝ Chronicle) (cadence : Cadence Chronicle) : Prop where
  timed : Timed Mild dock
  ready : dock.Ready
  alike : Alike cadence dock.cadence
  single : ∃ tile, dock.row.tiles = [tile] ∧ tile.key = 1 ∧ tile.position = ⟨0, 0⟩ ∧ 1 < tile.scale

variable {dock : Dock ℝ Chronicle} {now next quiet : Nat} {handle : TimerHandle}
variable {journal : List Note}

/-- A tick animates nothing, as the scale alone has a way to go. -/
theorem Left.tick (h : Left dock (vigil now next quiet handle journal)) (hnow : now ≤ next)
    (hfirst : next ≤ quiet) : ∃ dock', Left dock'
      (vigil next (next + baseInterval) quiet handle (.rang .tick (next - next) :: journal)) := by
  obtain ⟨tile, hrow, hkey, hposition, hscale⟩ := h.single
  let refreshed := tile.refresh (Icon.favorite 1 ⟨0, 0⟩)
  have hnone : pointerFocus leftHost [refreshed.reset] = none := pointerFocus_leftHost rfl
  have hunlensed : magnify leftHost (pointerFocus leftHost [refreshed.reset]) [refreshed.reset] =
      .ok ([refreshed.reset], false) := by
    rw [hnone]
    rfl
  obtain ⟨dock', timed, ready, alike, tile', hrow', hbare⟩ := h.timed.solo_tick mild_leftHost
    h.ready rfl h.alike hnow (Nat.le_refl next) hfirst (Nat.le_refl _)
    (fun timers => tiles_updated_of_single solo_leftHost hrow hkey) hunlensed
  have hvisible : refreshed.visible = true := rfl
  obtain ⟨hstill, hstays, hlarger⟩ := advance_in_place hvisible
    (show refreshed.position = refreshed.fixed from hposition)
    (show 1 < refreshed.scale from hscale) leftHost.geometry.iconSize
    (pointerFocus leftHost [refreshed.reset]).isNone
  have hunanimated : (false || (soloStep leftHost refreshed refreshed.reset).2) = false := hstill
  rw [hunanimated] at alike
  refine ⟨dock', timed, ready, alike, tile', hrow', ?_, ?_, ?_⟩
  · exact (congrArg Tile.key hbare).trans hkey
  · exact (show tile'.bare.position = _ from congrArg Tile.position hbare).trans hstays
  · have hsame : tile'.bare.scale = _ := congrArg Tile.scale hbare
    show 1 < tile'.bare.scale
    rw [hsame]
    exact hlarger

/-- As many ticks as fit into the quiet period that the last tick under the lens has begun. -/
theorem Left.ticks (h : Left dock (vigil (1 * baseInterval) (2 * baseInterval)
      (1 * baseInterval + (quietPeriod + baseInterval)) handle (.asked .quiet :: journal)))
    {ticks : Nat} (hticks : ticks ≤ 50) : ∃ dock', Left dock'
      (vigil ((ticks + 1) * baseInterval) ((ticks + 2) * baseInterval)
        (1 * baseInterval + (quietPeriod + baseInterval)) handle
        (List.replicate ticks (.rang .tick 0) ++ .asked .quiet :: journal)) := by
  induction ticks with
  | zero => exact ⟨dock, h⟩
  | succ ticks ih =>
      obtain ⟨dock₁, left₁⟩ := ih (Nat.le_of_succ_le hticks)
      have hperiod : 1 * baseInterval + (quietPeriod + baseInterval) = 52 * baseInterval := by
        decide
      have hfirst : (ticks + 2) * baseInterval ≤
          1 * baseInterval + (quietPeriod + baseInterval) := by
        rw [hperiod]
        exact Nat.mul_le_mul_right _ (by omega)
      obtain ⟨dock', left'⟩ := left₁.tick (Nat.mul_le_mul_right _ (Nat.le_succ _)) hfirst
      rw [Nat.sub_self, ← Nat.succ_mul] at left'
      exact ⟨dock', left'⟩

/-- Ticks that ring in time are late by nothing. -/
theorem delays_replicate (ticks : Nat) (journal : List Note) :
    tickDelays (List.replicate ticks (.rang .tick 0) ++ .asked .quiet :: journal) =
      List.replicate ticks 0 := by
  induction ticks with
  | zero => rfl
  | succ ticks ih => exact congrArg (List.cons 0) ih

/-- The run up to the first tick, which finds the pointer on the icon. -/
theorem exists_left : ∃ (dock : Dock ℝ Chronicle) (journal : List Note), Left dock
    (vigil (1 * baseInterval) (2 * baseInterval) (1 * baseInterval + (quietPeriod + baseInterval)) 1
      (.asked .quiet :: journal)) := by
  obtain ⟨woken, timed, ready, hempty, alike⟩ :=
    Timed.woken hoveredHost mild_hoveredHost rfl Cadence.intervalFor_zero
  have hvisible : hoveredTile.visible = true := rfl
  obtain ⟨-, hmagnify⟩ := magnify_hoveredHost hvisible rfl
  obtain ⟨hgrown, hstays⟩ := soloStep_hovered hvisible rfl rfl one_real
  obtain ⟨dock, timed', ready', alike', tile, hrow, hbare⟩ := timed.solo_tick mild_hoveredHost ready
    rfl alike (by decide : 0 ≤ 1 * baseInterval) (by decide) (by decide)
    (by decide : 2 * baseInterval ≤ 1 * baseInterval + baseInterval)
    (fun timers => tiles_updated_of_empty solo_hoveredHost hempty) hmagnify
  rw [Bool.true_or, if_pos rfl, Cadence.rearm_vigil] at alike'
  refine ⟨dock, _, timed', ready', alike', tile, hrow, congrArg Tile.key hbare, ?_, ?_⟩
  · exact (show tile.bare.position = _ from congrArg Tile.position hbare).trans hstays
  · have hsame : tile.bare.scale = _ := congrArg Tile.scale hbare
    show 1 < tile.bare.scale
    rw [hsame]
    exact hgrown

/-- A tile grows under the pointer, and shrinks when the pointer has left.  Fifty ticks later the quiet
    period passes, and the tile is too large by less than a thousandth. -/
theorem shrunk_after_hover : ∃ (dock dock' : Dock ℝ Chronicle) (tile : Tile ℝ), Timed Mild dock ∧
    TimedStep Mild dock (some (.alarm .quiet)) dock' ∧ dock'.row.tiles = [tile] ∧
    27 * dock.cadence.interval + dock.cadence.delays.sum < quietPeriod ∧
    1 < tile.scale ∧ tile.scale < 1001 / 1000 := by
  obtain ⟨dock₁, journal, left₁⟩ := exists_left
  obtain ⟨dock, left⟩ := left₁.ticks (Nat.le_refl 50)
  obtain ⟨dock', hquiet⟩ := left.timed.exists_quiet leftHost mild_leftHost left.alike (by decide)
    (by decide)
  obtain ⟨tile, hrow, -, -, hlarger⟩ := left.single
  obtain ⟨-, -, hkept, -⟩ := left.timed.quiet_passed hquiet
  have htiles : dock'.row.tiles = [tile] := by rw [hkept, hrow]
  have hdelays : dock.cadence.delays = List.replicate 50 0 := by
    unfold Cadence.delays
    rw [left.alike.timers]
    exact delays_replicate 50 journal
  have hfast : 27 * dock.cadence.interval + dock.cadence.delays.sum < quietPeriod := by
    rw [hdelays, left.alike.interval]
    show 27 * baseInterval + (List.replicate 50 0).sum < quietPeriod
    decide
  obtain ⟨-, -, hshrunk⟩ := left.timed.shrunk (fun _ mild => mild) hquiet
  exact ⟨dock, dock', tile, left.timed, hquiet, htiles, hfast, hlarger,
    hshrunk hfast tile (htiles ▸ List.mem_cons_self)⟩

end Left

end FisheyeDock.Dock
