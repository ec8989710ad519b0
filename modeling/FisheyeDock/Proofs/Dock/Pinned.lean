import FisheyeDock.Proofs.Dock.TearDown
import FisheyeDock.Proofs.Lens.Still

/-! # A tick without spread

    Nothing that happens in a tick after the lens says anew where a tile is heading, and nothing that
    happens before it is remembered: the tick sends all tiles back to rest.  So a row is pinned by
    every tick that finds no spread in the settings, whatever has been done to it before
    (`tick_pinned`).  A tick that draws nothing leaves no tile behind. -/

namespace FisheyeDock

variable {α : Type} [Scalar α]

/-- A frame does not aim the tiles that it moves. -/
theorem Frame.aims_build (g : Geometry α) (settings : Settings α) (retracting : Bool)
    (pool : Marker.Pool) (tiles : List (Tile α)) :
    (build g settings retracting pool tiles).tiles.map Tile.aim = tiles.map Tile.aim := by
  have hadvance : ∀ tile : Tile α,
      ((tile.advance g.iconSize retracting).1.bare).aim = tile.aim := by
    intro tile
    unfold Tile.advance
    split
    · rfl
    · rfl
  have hmoves := congrArg (List.map Tile.aim) (build_moves g settings retracting pool tiles).1
  rw [List.map_map, List.map_map] at hmoves
  exact hmoves.trans (List.map_congr_left fun tile _ => hadvance tile)

namespace Lens

variable {g : Geometry α} {s : Strengths α}

/-- No tile is out of place in an empty row. -/
theorem pinned_nil (focus : Option (Focus α)) : Pinned g s focus [] :=
  ⟨nofun, nofun, nofun⟩

end Lens

namespace Dock

open Scene (Command)

variable {τ : Type} [TimerService τ]

/-! ## One tick -/

section Tick

variable {dock dock' : Dock α τ} {host : Host α} {trace commands : List (Command α)}
variable {animated : Bool}

/-- The tile that a tick puts the lens on, if it draws. -/
def lensOn (dock : Dock α τ) (host : Host α) : Option (Focus α) :=
  ((dock.updated host).focus host (dock.updated host).row.reset.tiles).1

omit [TimerService τ] in
/-- With or without a lens, the tiles are raised as it says. -/
theorem aims_magnify (hspread : Scalar.isZero host.settings.magnification.spread = true)
    {focus : Option (Focus α)} {row : Row α} {tiles : List (Tile α)} {magnified : Bool}
    (h : magnify host focus row.reset.tiles = .ok (tiles, magnified)) :
    tiles.map Tile.aim = Lens.raisedAt host.geometry
      (.ofMagnification host.settings.magnification) focus (row.reset.tiles.map Tile.aim) := by
  have hspreads : (Strengths.ofMagnification host.settings.magnification).spreads = false :=
    congrArg not hspread
  cases focus with
  | none =>
      obtain ⟨rfl, -⟩ := Prod.mk.inj (Except.ok.inj h)
      rfl
  | some focus => exact Lens.aims_magnify hspreads (fun _ => Tile.settled_of_mem_reset) h

/-- What has been animated is pinned, if nothing spreads. -/
theorem pinned_of_animate (hspread : Scalar.isZero host.settings.magnification.spread = true)
    (h : dock.animate host = .ok (dock', commands, animated)) :
    Lens.Pinned host.geometry (.ofMagnification host.settings.magnification)
      (dock.focus host dock.row.reset.tiles).1 dock'.row.tiles := by
  obtain ⟨tiles, magnified, layers, hmagnify, -, -, -, rfl⟩ := animate_cases h
  have hrest : ∀ tile ∈ dock.row.reset.tiles, tile.Settled := fun _ => Tile.settled_of_mem_reset
  exact Lens.pinned_of_aims hrest ((Frame.aims_build ..).trans (aims_magnify hspread hmagnify))

/-- A dock that is disabled is empty, whatever its timers have done. -/
theorem Ran.empty (h : Ran dock trace) (disabled : dock.enabled = false) : dock.Empty := by
  induction h with
  | new timers => exact ⟨rfl, rfl, rfl, rfl⟩
  | @event dock dock' trace commands host event before step ih =>
      have heffect := handle_effect step
      cases henabled : dock.enabled with
      | true =>
          rw [heffect.disabled henabled disabled, disable, if_pos henabled]
          exact empty_withdraw _
      | false =>
          refine heffect.empty ?_ fun _ => ih henabled
          rw [← Bool.not_eq_true]
          intro hdraws
          rw [(drawsOn_cases hdraws).2] at henabled
          cases henabled
  | drift timers before ih => exact (ih disabled).congr rfl rfl rfl

/-- Whatever has happened before, a tick that finds no spread pins the row. -/
theorem tick_pinned (ran : Ran dock trace)
    (hspread : Scalar.isZero host.settings.magnification.spread = true)
    (h : dock.tick host = .ok (dock', commands, animated)) :
    Lens.Pinned host.geometry (.ofMagnification host.settings.magnification) (dock.lensOn host)
      dock'.row.tiles := by
  obtain ⟨hdisabled, rfl, -⟩ | ⟨-, -, hwithdraw⟩ | ⟨henabled, -, -, hdisable⟩
    | ⟨-, -, -, shown, hanimate, -⟩ := tick_cases h
  · rw [(ran.empty hdisabled).row]
    exact Lens.pinned_nil _
  · rw [show dock' = _ from congrArg Prod.fst hwithdraw, tiles_withdraw]
    exact Lens.pinned_nil _
  · rw [show dock' = _ from congrArg Prod.fst hdisable, disable, if_pos henabled, tiles_withdraw]
    exact Lens.pinned_nil _
  · exact pinned_of_animate hspread hanimate

end Tick

/-! ## Runs -/

/-- **WITHOUT SPREAD THE ROW IS PINNED.**  At any moment of any run, a tick comes to its end, and after
    it each tile is heading for its place along the dock.  All but the tile under the lens are heading
    for where they rest, and that one is raised straight away from the edge.

    Settings without spread are found to be inert if there is no rise and no magnification either.  The
    lens is put on no tile then, and it would have had no effect on any. -/
theorem Ran.pinned {dock : Dock Float τ} {trace : List (Command Float)} (ran : Ran dock trace)
    (host : Host Float) (spread : Scalar.isZero host.settings.magnification.spread = true) :
    (∃ dock' commands animated, dock.tick host = .ok (dock', commands, animated) ∧
      Lens.Pinned host.geometry (.ofMagnification host.settings.magnification) (dock.lensOn host)
        dock'.row.tiles) ∧
    (0.0 ≤ host.settings.magnification.rise → 0.0 ≤ host.settings.magnification.magnify →
      (host.settings.magnification.isInert = true ↔
        Scalar.isZero host.settings.magnification.rise = true ∧
          Scalar.isZero host.settings.magnification.magnify = true)) ∧
    (Scalar.isZero host.settings.magnification.rise = true →
      Scalar.isZero host.settings.magnification.magnify = true →
      host.geometry.isMeasured = true →
      Lens.Idle host.geometry (.ofMagnification host.settings.magnification)) := by
  refine ⟨?_, Magnification.isInert_iff spread, ?_⟩
  · obtain ⟨⟨dock', commands, animated⟩, htick⟩ := tick_ok dock host
    exact ⟨dock', commands, animated, htick, tick_pinned ran spread htick⟩
  · intro rise magnify measured
    exact Lens.idle_of_vanish ⟨Double.vanishes_of_isZero rise, Double.vanishes_of_isZero magnify,
      Double.vanishes_of_isZero spread⟩ measured

/-- The pointer is on the second of two icons, and neither makes way for the other. -/
private def noSpread : Host Float where
  settings := { (Settings.standard : Settings Float) with
    magnification := ⟨false, 0.25, 0.5, -0.0, 0.0⟩ }
  geometry := { (Geometry.standard : Geometry Float) with pointer := ⟨72.0, 24.0⟩ }
  icons := [Icon.favorite 1 ⟨0.0, 0.0⟩, Icon.favorite 2 ⟨48.0, 0.0⟩]

/-- The same, with nothing left of the effects. -/
private def noEffect : Host Float where
  settings := { (Settings.standard : Settings Float) with
    magnification := ⟨false, 0.0, -0.0, 0.0, 0.0⟩ }
  geometry := noSpread.geometry
  icons := noSpread.icons

/-- The second tile is raised by the first tick of an enabled dock.  Without effects the lens would be
    on the same tile, and would do nothing there. -/
theorem pinned_noSpread : ∃ (dock dock' : Dock Float Clock) (trace commands : List (Command Float)),
    Ran dock trace ∧ dock.tick noSpread = .ok (dock', commands, true) ∧
      Lens.Pinned noSpread.geometry (.ofMagnification noSpread.settings.magnification)
        (dock.lensOn noSpread) dock'.row.tiles ∧
      (dock'.row.tiles.map fun tile => decide (tile.target.y < tile.fixed.y)) = [false, true] ∧
      noEffect.settings.magnification.isInert = true ∧
      Lens.Idle noEffect.geometry (.ofMagnification noEffect.settings.magnification) := by
  have henabled := (Ran.new (α := Float) Clock.start).event noSpread .enable rfl
  obtain ⟨⟨dock', commands, animated, htick, hpinned⟩, -⟩ := henabled.pinned noSpread (by decide)
  obtain ⟨-, hinert, hidle⟩ := henabled.pinned noEffect (by decide)
  have hshown : (((new Clock.start).enable noSpread.settings).tick noSpread).toOption.map
      (fun ticked => (ticked.2.2,
        ticked.1.row.tiles.map fun tile => decide (tile.target.y < tile.fixed.y))) =
      some (true, [false, true]) := by
    decide +kernel
  rw [htick] at hshown
  obtain ⟨rfl, hraised⟩ := Prod.mk.inj (Option.some.inj hshown)
  exact ⟨_, dock', _, commands, henabled, htick, hpinned, hraised,
    (hinert (by decide) (by decide)).mpr ⟨by decide, by decide⟩,
    hidle (by decide) (by decide) (by decide)⟩

end Dock

end FisheyeDock
