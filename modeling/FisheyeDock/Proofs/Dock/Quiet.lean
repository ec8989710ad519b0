import FisheyeDock.Proofs.Dock.Timed
import FisheyeDock.Proofs.Frame.Motion

/-! # Ticks that animate nothing

    A tick that animates nothing sends every tile to rest, and finds that none of them glides there.
    A tick that animates anything begins a new quiet period, in which it is not counted; so each tick
    that is counted in a quiet period is one that animates nothing (`unanimated_of_counted`). -/

namespace FisheyeDock.Dock

open Scene (Command)

variable {α τ : Type} [Scalar α] [TimerService τ] {dock dock' : Dock α τ} {host : Host α}
variable {commands : List (Command α)}

omit [TimerService τ] in
/-- A lens that is put on no tile leaves the tiles as they are. -/
theorem eq_of_not_magnified {focus : Option (Focus α)} {tiles tiles' : List (Tile α)}
    (h : magnify host focus tiles = .ok (tiles', false)) : tiles' = tiles := by
  cases focus with
  | none =>
      obtain ⟨rfl, -⟩ := Prod.mk.inj (Except.ok.inj h)
      rfl
  | some focus =>
      have hlens : Lens.magnify host.geometry (.ofMagnification host.settings.magnification) focus
          tiles = .ok (tiles', false) := h
      unfold Lens.magnify at hlens
      split at hlens
      · split at hlens
        · exact nomatch (Prod.mk.inj (Except.ok.inj hlens)).2
        · exact nomatch hlens
      · obtain ⟨rfl, -⟩ := Prod.mk.inj (Except.ok.inj hlens)
        rfl

/-- In a tick that animates nothing, every tile is sent to rest and does not glide. -/
theorem unanimated_of_mem (h : dock.animate host = .ok (dock', commands, false)) {tile' : Tile α}
    (hmem : tile' ∈ dock'.row.tiles) : ∃ tile ∈ dock.row.tiles, ∃ retracting,
      (tile.reset.advance host.geometry.iconSize retracting).1.bare = tile'.bare ∧
      (tile.reset.advance host.geometry.iconSize retracting).2 = false := by
  obtain ⟨tiles, magnified, _, hmagnify, hanimated, -, -, rfl⟩ := animate_cases h
  obtain ⟨rfl, hglided⟩ := Bool.or_eq_false_iff.mp hanimated.symm
  obtain rfl := eq_of_not_magnified hmagnify
  obtain ⟨tile, htile, hbare⟩ := Frame.moved_of_mem hmem
  obtain ⟨old, hold, rfl⟩ := List.mem_map.mp htile
  exact ⟨old, hold, _, hbare, Frame.not_glided_of_mem hglided htile⟩

variable [TimedService τ]

/-- A tick that is counted in the quiet period it leaves behind has animated nothing. -/
theorem unanimated_of_counted {animated : Bool} (timely : dock.cadence.Timely)
    (henabled : dock.enabled = true) (htick : dock.tick host = .ok (dock', commands, animated))
    (running : dock'.cadence.phase = .running) (counted : dock'.cadence.delays ≠ []) :
    ∃ shown, (dock.updated host).animate host = .ok (dock', shown, false) := by
  obtain ⟨hdisabled, -⟩ | ⟨-, -, heq⟩ | ⟨-, -, -, heq⟩ | ⟨-, -, -, shown, hanimate, -⟩ :=
    tick_cases htick
  · exact nomatch henabled.symm.trans hdisabled
  · rw [show dock' = _ from congrArg Prod.fst heq, cadence_withdraw] at running
    exact nomatch (show Cadence.Phase.suspended = .running from running)
  · rw [show dock' = _ from congrArg Prod.fst heq, disable, if_pos henabled, cadence_withdraw]
      at running
    exact nomatch (show Cadence.Phase.idle = .running from running)
  · cases animated with
    | false => exact ⟨shown, hanimate⟩
    | true =>
        -- the tick has begun a new quiet period, in which there is no tick
        obtain ⟨_, _, _, -, -, -, -, rfl⟩ := animate_cases hanimate
        have hupdated := (turn_updated dock host).timely timely
        have hrunning : (dock.updated host).cadence.phase = .running :=
          ((dock.updated host).cadence.phase_rearm).symm.trans running
        exact absurd (hupdated.delays_rearm hrunning) counted

omit [Scalar α] [TimerService τ] [TimedService τ] in
/-- A row that stays or is cleared holds no other tiles. -/
theorem mem_of_row (row : dock'.row = dock.row ∨ dock'.row.tiles = []) {tile : Tile α}
    (h : tile ∈ dock'.row.tiles) : tile ∈ dock.row.tiles := by
  rcases row with hsame | hempty
  · rwa [hsame] at h
  · rw [hempty] at h
    cases h

end FisheyeDock.Dock
