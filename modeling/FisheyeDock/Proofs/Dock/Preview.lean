import FisheyeDock.Proofs.Dock.Pulse
import FisheyeDock.Proofs.Dock.Suspension

/-! # The ticks of a preview

    A preview is counted down by ticks and not by a timer: each tick takes its interval off what is
    left, and stops at zero.  No other event touches what is left, drags and the end of the engine
    aside (`Event.sparesPreview`).  So in a run from the beginning of a preview on (`After`), the
    number of ticks tells how much of it is left (`After.underway`), and with that where the next tick
    puts its lens: on the middle tile in the first `previewTicks` of them, and where the pointer is in
    all others (`Underway.tick_lens`). -/

namespace FisheyeDock.Dock

open Scene (Command)
open Cadence (SameDrag sameDrag_start sameDrag_rearm sameDrag_halt sameDrag_orderLayouts)

variable {α τ : Type} [Scalar α] {dock dock' : Dock α τ} {host : Host α} {event : Event}
variable {commands : List (Command α)} {animated : Bool}

/-- Events that leave a preview alone, as far as they are not ticks. -/
def Event.sparesPreview : Event → Bool
  | .preview _ | .dragBegin | .dragEnd | .disable => false
  | _ => true

/-- How long the preview still lasts, if there is one. -/
def previewTime (dock : Dock α τ) : Nat := dock.previewLeft.getD 0

/-- How many ticks at an interval it takes to count a preview down. -/
def previewTicks (interval : Nat) : Nat := (previewPeriod + interval - 1) / interval

/-- A tick is within a preview as long as some of its time is left. -/
theorem lt_previewTicks {interval : Nat} (hpos : 0 < interval) (ticks : Nat) :
    ticks < previewTicks interval ↔ 0 < previewPeriod - ticks * interval := by
  rw [previewTicks, Nat.lt_iff_add_one_le, Nat.le_div_iff_mul_le hpos, Nat.succ_mul]
  omega

/-! ## Where a tick puts its lens -/

/-- While a preview lasts, the lens is on the middle tile, and the preview is shorter by an
    interval. -/
theorem focus_of_preview (h : 0 < dock.previewTime) (tiles : List (Tile α)) :
    dock.focus host tiles =
      (previewFocus tiles, some (dock.previewTime - dock.cadence.interval)) := by
  unfold focus
  unfold previewTime at h ⊢
  cases hleft : dock.previewLeft with
  | none =>
      rw [hleft] at h
      exact absurd h (Nat.lt_irrefl 0)
  | some left =>
      rw [hleft] at h
      cases left with
      | zero => exact absurd h (Nat.lt_irrefl 0)
      | succ left => rfl

/-- Without a preview the lens is where the pointer is. -/
theorem focus_of_no_preview (h : dock.previewTime = 0) (tiles : List (Tile α)) :
    dock.focus host tiles = (pointerFocus host tiles, none) := by
  unfold focus
  unfold previewTime at h
  cases hleft : dock.previewLeft with
  | none => rfl
  | some left =>
      rw [hleft] at h
      obtain rfl : left = 0 := h
      rfl

/-- What a tick leaves of a preview, which may be nothing and may have been nothing before. -/
theorem previewTime_focus (dock : Dock α τ) (host : Host α) (tiles : List (Tile α)) :
    (dock.focus host tiles).2.getD 0 = dock.previewTime - dock.cadence.interval := by
  rcases Nat.eq_zero_or_pos dock.previewTime with hzero | hpos
  · rw [focus_of_no_preview hzero, hzero, Nat.zero_sub]
    rfl
  · rw [focus_of_preview hpos]
    rfl

theorem previewTime_updated (dock : Dock α τ) (host : Host α) :
    (dock.updated host).previewTime = dock.previewTime := by
  obtain ⟨cadence, hlayout, -⟩ := takeLayout_cases dock
  unfold updated
  rw [hlayout]
  rfl

/-- The lens is on the tile in the middle, and at no distance, if that tile can be seen.  It is on none
    otherwise. -/
structure OnMiddle (tiles : List (Tile α)) (focus : Option (Focus α)) : Prop where
  visible : ∀ tile, tiles[tiles.length / 2]? = some tile → tile.visible = true →
    focus = some ⟨tiles.length / 2, 0.0, Point.zero⟩
  hidden : (∀ tile, tiles[tiles.length / 2]? = some tile → tile.visible = false) → focus = none

/-- The lens of a preview is on the middle tile, if that is visible. -/
theorem onMiddle_previewFocus (tiles : List (Tile α)) :
    OnMiddle tiles (previewFocus (tiles.map Tile.reset)) := by
  unfold previewFocus
  dsimp only
  rw [List.length_map, List.getElem?_map]
  constructor
  · intro tile hmiddle hvisible
    have hreset : tile.reset.visible = true := hvisible
    rw [hmiddle, Option.map_some, Option.filter_some, if_pos hreset]
    rfl
  · intro hhidden
    cases hmiddle : tiles[tiles.length / 2]? with
    | none => rfl
    | some tile =>
        have hreset : ¬ tile.reset.visible = true := Bool.not_eq_true _ ▸ hhidden tile hmiddle
        rw [Option.map_some, Option.filter_some, if_neg hreset]
        rfl

/-- A tick brings the row up to date, puts the lens on a tile of it or on none, and builds a frame. -/
def TicksWith (dock : Dock α τ) (host : Host α) (focus : Option (Focus α)) (dock' : Dock α τ)
    (commands : List (Command α)) : Prop :=
  ∃ tiles magnified before after,
    magnify host focus (dock.updated host).row.reset.tiles = .ok (tiles, magnified) ∧
    dock'.row.tiles =
      (Frame.build host.geometry host.settings focus.isNone (dock.updated host).pool tiles).tiles ∧
    commands = before
      ++ (Frame.build host.geometry host.settings focus.isNone (dock.updated host).pool
        tiles).commands
      ++ after

/-- A dock that is in the middle of a preview, which so many ticks have counted down. -/
structure Underway (dock : Dock α τ) (interval ticks : Nat) : Prop where
  enabled : dock.enabled = true
  unqueued : dock.cadence.dragQueued = false
  previewTime : dock.previewTime = previewPeriod - ticks * interval

/-- A tick at an interval, at which the engine is not turned off. -/
structure TicksAt (interval : Nat) (dock : Dock α τ) (host : Host α) : Prop where
  interval_eq : dock.cadence.interval = interval
  on : host.settings.magnification.off = false

variable [TimerService τ]

/-- A tick that draws neither suspends nor disables the dock. -/
theorem animates_of_drawsOn (drawn : dock.drawsOn host (.alarm .tick) = true)
    (htick : dock.tick host = .ok (dock', commands, animated)) : ∃ shown,
      (dock.updated host).animate host = .ok (dock', shown, animated) ∧
      commands = dock.updates host ++ shown := by
  have hdraws := dock.drawsOn_tick host
  obtain ⟨hdisabled, -⟩ | ⟨-, hqueued, -⟩ | ⟨-, -, hoff, -⟩ | ⟨-, -, -, hanimate⟩ := tick_cases htick
  · rw [hdisabled, Bool.false_and] at hdraws
    exact nomatch drawn.symm.trans hdraws
  · rw [hqueued, Bool.true_or, Bool.not_true, Bool.and_false] at hdraws
    exact nomatch drawn.symm.trans hdraws
  · rw [hoff, Bool.or_true, Bool.not_true, Bool.and_false] at hdraws
    exact nomatch drawn.symm.trans hdraws
  · exact hanimate

/-- Where a tick that draws puts its lens. -/
theorem ticksWith_of_drawsOn (drawn : dock.drawsOn host (.alarm .tick) = true)
    (htick : dock.tick host = .ok (dock', commands, animated)) :
    dock.TicksWith host
      ((dock.updated host).focus host (dock.updated host).row.reset.tiles).1 dock' commands := by
  obtain ⟨shown, hanimate, rfl⟩ := animates_of_drawsOn drawn htick
  obtain ⟨tiles, magnified, layers, hmagnify, -, -, rfl, rfl⟩ := animate_cases hanimate
  refine ⟨tiles, magnified, dock.updates host ++ (dock.updated host).row.tiles.map
    (fun tile => .activateTile tile.id (!host.geometry.autohideHidden)), layers, hmagnify, rfl, ?_⟩
  rw [← List.append_assoc, ← List.append_assoc]
  rfl

namespace Underway

variable {interval ticks : Nat}

omit [Scalar α] [TimerService τ] in
/-- The ticks of a preview draw. -/
theorem drawsOn_tick (h : dock.Underway interval ticks) (fit : TicksAt interval dock host) :
    dock.drawsOn host (.alarm .tick) = true := by
  rw [dock.drawsOn_tick, h.enabled, h.unqueued, fit.on]
  rfl

/-- A tick counts the preview down by one. -/
theorem tick (h : dock.Underway interval ticks) (fit : TicksAt interval dock host)
    (htick : dock.tick host = .ok (dock', commands, animated)) :
    dock'.Underway interval (ticks + 1) := by
  have hunqueued : dock'.cadence.dragQueued = false := by
    obtain hsame | ⟨hqueued, -⟩ | hreset := drag_of_tick h.enabled htick
    · exact hsame.dragQueued.trans h.unqueued
    · exact nomatch h.unqueued.symm.trans hqueued
    · rw [hreset]
      rfl
  obtain ⟨shown, hanimate, -⟩ := animates_of_drawsOn (h.drawsOn_tick fit) htick
  obtain ⟨_, _, _, -, -, -, -, rfl⟩ := animate_cases hanimate
  refine ⟨h.enabled, hunqueued, ?_⟩
  have hleft := previewTime_focus (dock.updated host) host (dock.updated host).row.reset.tiles
  rw [(alike_updated dock host).interval, previewTime_updated, fit.interval_eq, h.previewTime] at hleft
  refine hleft.trans ?_
  rw [Nat.succ_mul, Nat.sub_sub]

omit [Scalar α] [TimerService τ] in
/-- What keeps the engine on, asks for no drag and leaves the countdown alone. -/
theorem congr (h : dock.Underway interval ticks) (enabled : dock'.enabled = true)
    (dragQueued : dock'.cadence.dragQueued = dock.cadence.dragQueued)
    (previewLeft : dock'.previewLeft = dock.previewLeft) : dock'.Underway interval ticks where
  enabled := enabled
  unqueued := dragQueued.trans h.unqueued
  previewTime := by
    unfold Dock.previewTime
    rw [previewLeft]
    exact h.previewTime

/-- Waking keeps the preview underway, with any cadence that has queued as much. -/
theorem wake (h : dock.Underway interval ticks) {settings : Settings α} {cadence : Cadence τ}
    (dragQueued : cadence.dragQueued = dock.cadence.dragQueued)
    (hwake : Dock.wake { dock with cadence } settings = .ok dock') : dock'.Underway interval ticks := by
  obtain ⟨hdisabled, -⟩ | ⟨-, started, hstart, rfl⟩ := wake_cases hwake
  · exact nomatch h.enabled.symm.trans hdisabled
  · have hstarted := (sameDrag_start hstart).trans (sameDrag_rearm started)
    exact h.congr h.enabled (hstarted.dragQueued.trans dragQueued) rfl

theorem resume (h : dock.Underway interval ticks) {settings : Settings α}
    (hresume : dock.resume settings = .ok dock') : dock'.Underway interval ticks := by
  unfold Dock.resume Cadence.resume at hresume
  by_cases hsuspended : dock.cadence.phase = .suspended
  · simp only [if_pos hsuspended] at hresume
    refine h.wake ?_ hresume
    rfl
  · simp only [if_neg hsuspended] at hresume
    obtain rfl := Except.ok.inj hresume
    exact h.congr h.enabled rfl rfl

/-- Whatever happens between two ticks leaves the countdown alone. -/
theorem handle (h : dock.Underway interval ticks) (spares : event.sparesPreview = true)
    (noTick : event ≠ .alarm .tick) (step : dock.handle host event = .ok (dock', commands)) :
    dock'.Underway interval ticks := by
  -- drags and disabling are ruled out, and nothing else between two ticks touches the count
  cases event with
  | disable | dragBegin | dragEnd | preview => exact nomatch spares
  | enable =>
      have hstays : (dock.enabled || host.settings.magnification.off) = true := by
        rw [h.enabled, Bool.true_or]
      rw [eq_of_handle step rfl, enable, if_pos hstays]
      exact h
  | pointerEnter | pointerMotion =>
      obtain ⟨hwake, -⟩ := ok_of_silent step
      exact h.wake (Eq.refl dock.cadence.dragQueued) hwake
  | pointerLeave =>
      rw [eq_of_handle step rfl]
      exact h.congr h.enabled (sameDrag_rearm _).dragQueued rfl
  | focusChanged =>
      obtain ⟨hfocus, -⟩ := ok_of_silent step
      rw [focusChanged, if_pos h.enabled] at hfocus
      obtain ⟨woken, hwake, hordered⟩ := bind_eq_ok_iff.mp hfocus
      obtain rfl := Except.ok.inj hordered
      have hwoken := h.wake (sameDrag_halt dock.cadence).dragQueued hwake
      exact hwoken.congr hwoken.enabled rfl rfl
  | fullscreenChanged =>
      rw [eq_of_handle step rfl, fullscreenChanged, if_pos h.enabled, showLayers_fst]
      exact h.congr h.enabled rfl rfl
  | relayout =>
      obtain ⟨hrelayout, -⟩ := ok_of_silent step
      unfold relayout at hrelayout
      refine h.wake ?_ hrelayout
      rfl
  | alarm alarm =>
      cases alarm with
      | tick => exact absurd rfl noTick
      | quiet =>
          rw [eq_of_handle step rfl]
          exact h.congr h.enabled (sameDrag_halt { dock.cadence with quietTimer := none }).dragQueued
            rfl
      | resume =>
          obtain ⟨hresume, -⟩ := resume_of_handle step
          exact h.resume hresume

/-- A preview is under way from its beginning on. -/
theorem begun (enabled : dock.enabled = true) (unqueued : dock.cadence.dragQueued = false)
    (step : dock.handle host (.preview true) = .ok (dock', commands)) : dock'.Underway interval 0 := by
  obtain ⟨hpreview, -⟩ := ok_of_silent step
  have hset : Underway { dock with previewLeft := some previewPeriod } interval 0 := by
    refine ⟨enabled, unqueued, ?_⟩
    rw [Nat.zero_mul, Nat.sub_zero]
    exact Option.getD_some
  rw [preview, if_pos rfl] at hpreview
  exact hset.wake (Eq.refl dock.cadence.dragQueued) hpreview

end Underway

/-! ## Runs -/

/-- The docks that a dock comes to by events that spare a preview, with the number of ticks on the
    way.  The ticks may come from anywhere, and each of them finds the dock and the host as is asked
    for. -/
inductive After (asked : Dock α τ → Host α → Prop) (begun : Dock α τ) : Nat → Dock α τ → Prop where
  | begun : After asked begun 0 begun
  | event {dock dock' : Dock α τ} {commands : List (Command α)} {ticks : Nat} (host : Host α)
      (event : Event) (before : After asked begun ticks dock) (spares : event.sparesPreview = true)
      (noTick : event ≠ .alarm .tick) (step : dock.handle host event = .ok (dock', commands)) :
      After asked begun ticks dock'
  | tick {dock dock' : Dock α τ} {commands : List (Command α)} {ticks : Nat} (host : Host α)
      (before : After asked begun ticks dock) (fit : asked dock host)
      (step : dock.handle host (.alarm .tick) = .ok (dock', commands)) :
      After asked begun (ticks + 1) dock'
  | drift {dock : Dock α τ} {ticks : Nat} (timers : τ) (before : After asked begun ticks dock) :
      After asked begun ticks (dock.withTimers timers)

variable {begun : Dock α τ} {interval ticks : Nat}

/-- The number of ticks tells how much of a preview is left. -/
theorem After.underway (h : After (TicksAt interval) begun ticks dock)
    (hbegun : begun.Underway interval 0) : dock.Underway interval ticks := by
  induction h with
  | begun => exact hbegun
  | event host event before spares noTick step ih => exact ih.handle spares noTick step
  | tick host before fit step ih =>
      obtain ⟨animated, htick⟩ := tick_of_handle step
      exact ih.tick fit htick
  | drift timers before ih => exact ih.congr ih.enabled rfl rfl

/-- What the lens of a tick is on that comes after so many others. -/
structure TickLens (dock : Dock α τ) (host : Host α) (interval ticks : Nat) (dock' : Dock α τ)
    (commands : List (Command α)) : Prop where
  /-- The preview lasts: the lens is on the middle tile, wherever the pointer is. -/
  overridden : ticks < previewTicks interval → ∃ focus,
    OnMiddle (dock.updated host).row.tiles focus ∧ dock.TicksWith host focus dock' commands
  /-- The preview is over: the lens is where the pointer is. -/
  passed : previewTicks interval ≤ ticks →
    dock.TicksWith host (pointerFocus host (dock.updated host).row.reset.tiles) dock' commands

/-- As long as a preview lasts, it overrides the pointer. -/
theorem Underway.tick_lens (h : dock.Underway interval ticks) (hpos : 0 < interval)
    (fit : TicksAt interval dock host)
    (step : dock.handle host (.alarm .tick) = .ok (dock', commands)) :
    dock.TickLens host interval ticks dock' commands := by
  obtain ⟨animated, htick⟩ := tick_of_handle step
  have hwith := ticksWith_of_drawsOn (h.drawsOn_tick fit) htick
  have htime : (dock.updated host).previewTime = previewPeriod - ticks * interval :=
    (previewTime_updated dock host).trans h.previewTime
  constructor
  · intro hlasts
    have hpositive := (lt_previewTicks hpos ticks).mp hlasts
    rw [focus_of_preview (htime ▸ hpositive)] at hwith
    exact ⟨_, onMiddle_previewFocus _, hwith⟩
  · intro hover
    have hzero : previewPeriod - ticks * interval = 0 := by
      have hnot := mt (lt_previewTicks hpos ticks).mpr (Nat.not_lt.mpr hover)
      exact Nat.eq_zero_of_not_pos hnot
    rw [focus_of_no_preview (htime.trans hzero)] at hwith
    exact hwith

end FisheyeDock.Dock
