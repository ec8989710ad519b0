import FisheyeDock.Proofs.Dock.Debounce
import FisheyeDock.Proofs.Dock.Preview
import FisheyeDock.Proofs.Scalar.Whole

/-! # A preview lasts its full time

    Nothing keeps the ticks of a preview going but the ticks themselves: the lens that they put on the
    middle tile is an animation, and every animated tick begins a new quiet period.  So the end of a
    quiet period is never due before the next tick (`Cadence.Leads`), and the cadence runs until the
    preview is counted down (`InTime.lasts`), if the middle tile is there to be magnified. -/

namespace FisheyeDock

namespace Cadence

open TimerService

variable {τ : Type} [TimerService τ] [TimedService τ] {c c' : Cadence τ}

/-- In a quiet period that has just begun the next tick comes first. -/
theorem Fresh.leads (h : c.Fresh) (running : c.phase = .running) : c.Leads := by
  obtain ⟨tick, quiet, next, hguarded⟩ := h running
  have hnext := hguarded.next_le
  have hquiet : 0 < quietPeriod := by decide
  exact ⟨tick, quiet, next, _, hguarded, by omega⟩

/-- As time passes, the tick leads as before. -/
theorem Leads.pass {timers : τ} (h : c.Leads)
    (passes : (timetable c.timers).Passes (timetable timers)) : (c.withTimers timers).Leads := by
  obtain ⟨tick, quiet, next, begun, hguarded, hlt⟩ := h
  exact ⟨tick, quiet, next, begun, hguarded.pass passes, hlt⟩

/-- No timer is refused, so that a start leads to ticks unless there is a suspension. -/
theorem Timely.running_of_start {α : Type} [Scalar α] {fps : α} (h : c.Timely) (sound : c.Sound)
    (awake : c.phase ≠ .suspended) (hstart : c.start fps = .ok c') : c'.phase = .running := by
  obtain rfl | ⟨-, hruns, -⟩ := h.started sound hstart
  · have hmoving := h.start_ne_idle hstart
    cases hphase : c'.phase with
    | idle => exact absurd hphase hmoving
    | running => rfl
    | suspended => exact absurd hphase awake
  · exact hruns

end Cadence

namespace Dock

open Scene (Command)
open TimerService
open Cadence (turn_orderLayouts)

variable {α τ : Type} [Scalar α] {dock dock' : Dock α τ} {host : Host α}
variable {commands : List (Command α)} {interval ticks : Nat}

/-! ## What makes a tick an animation -/

/-- The lens tells that it is on a tile if that is near enough. -/
theorem magnified_of_isNear {focus : Focus α} {tiles tiles' : List (Tile α)} {magnified : Bool}
    (near : Lens.isNear host.geometry focus = true)
    (h : magnify host (some focus) tiles = .ok (tiles', magnified)) : magnified = true := by
  have hlens : Lens.magnify host.geometry (.ofMagnification host.settings.magnification) focus tiles
      = .ok (tiles', magnified) := h
  unfold Lens.magnify at hlens
  rw [if_pos near] at hlens
  split at hlens
  · exact (Prod.mk.inj (Except.ok.inj hlens)).2.symm
  · exact nomatch hlens

/-- A tick at an interval that finds a tile in the middle that can be seen, and icons that are not too
    small for the lens. -/
structure ShowsMiddle (interval : Nat) (dock : Dock α τ) (host : Host α) : Prop
    extends TicksAt interval dock host where
  middle : ∃ tile, (dock.updated host).row.tiles[(dock.updated host).row.tiles.length / 2]? =
    some tile ∧ tile.visible = true
  sized : 2.0 ≤ host.geometry.iconSize

omit [Scalar α] in
/-- An event that spares a preview withdraws nothing, if it is not a tick. -/
theorem withdrawsOn_of_spares [TimerService τ] {event : Event} (spares : event.sparesPreview = true)
    (noTick : event ≠ .alarm .tick) : dock.withdrawsOn host event = false := by
  cases event with
  | disable | dragBegin | dragEnd | preview => exact nomatch spares
  | alarm alarm =>
      cases alarm with
      | tick => exact absurd rfl noTick
      | quiet | resume => rfl
  | _ => rfl

section Lasting

-- twice such a size is the distance within which the lens is on a tile
variable (reaches : ∀ {size : α}, 2.0 ≤ size → ¬ size * 2.0 ≤ 0.0)
variable [TimerService τ]

include reaches in
/-- As long as a preview lasts, its ticks are animated. -/
theorem Underway.rearmsOn_tick (h : dock.Underway interval ticks) (hpos : 0 < interval)
    (lasts : ticks < previewTicks interval) (fit : ShowsMiddle interval dock host) :
    dock.rearmsOn host (.alarm .tick) = true := by
  obtain ⟨⟨dock', commands, animated⟩, htick⟩ := tick_ok dock host
  obtain ⟨shown, hanimate, -⟩ := animates_of_drawsOn (h.drawsOn_tick fit.toTicksAt) htick
  obtain ⟨tiles, magnified, _, hmagnify, hanimated, -⟩ := animate_cases hanimate
  have htime : 0 < (dock.updated host).previewTime := by
    rw [previewTime_updated, h.previewTime]
    exact (lt_previewTicks hpos ticks).mp lasts
  obtain ⟨tile, hmiddle, hvisible⟩ := fit.middle
  have hfocus := (onMiddle_previewFocus (dock.updated host).row.tiles).visible tile hmiddle hvisible
  rw [focus_of_preview htime] at hmagnify
  have hlens : magnify host (some ⟨(dock.updated host).row.tiles.length / 2, 0.0, Point.zero⟩)
      (dock.updated host).row.reset.tiles = .ok (tiles, magnified) := hfocus ▸ hmagnify
  have hnear : Lens.isNear host.geometry
      ⟨(dock.updated host).row.tiles.length / 2, 0.0, Point.zero⟩ = true := by
    unfold Lens.isNear
    rw [decide_eq_false (reaches fit.sized)]
    rfl
  rw [magnified_of_isNear hnear hlens, Bool.true_or] at hanimated
  show dock.animates host = true
  rw [animates, htick]
  exact hanimated

/-! ## One step -/

variable [TimedService τ]

/-- A cadence that runs, and whose next tick comes before the quiet period ends. -/
def Onward (dock : Dock α τ) : Prop := dock.cadence.phase = .running ∧ dock.cadence.Leads

/-- What happens between two ticks of a preview does not stop them: a quiet period does not end, and
    nothing else would stop them. -/
theorem Onward.step {allowed : Host α → Prop} {occurrence : Option Event} (h : dock.Onward)
    (timed : Timed allowed dock) (step : TimedStep allowed dock occurrence dock')
    (spares : ∀ event, occurrence = some event →
      event.sparesPreview = true ∧ event ≠ .alarm .tick) : dock'.Onward := by
  obtain ⟨hrunning, hleads⟩ := h
  cases step with
  | @call _ _ event host allows call step =>
      obtain ⟨hspares, hnoTick⟩ := spares event rfl
      have hturn := (called call step).answer.turn timed.sound.cadence timed.timely
      have hruns : dock'.cadence.phase = .running := by
        cases pulse_of_call call timed.sound timed.timely step with
        | rearms rearms running fresh => exact running
        | stops marked phase =>
            rw [withdrawsOn_of_spares hspares hnoTick] at marked
            rcases marked with hquiet | hfalse
            · exact absurd hquiet (call .quiet)
            · exact nomatch hfalse
        | passes unmarked running_iff keeps => exact running_iff.mpr hrunning
      exact ⟨hruns, hturn.leads (fun _ => hleads) hruns⟩
  | @ring _ _ timers handle plan host allows obliges rings step =>
      obtain ⟨-, hnoTick⟩ := spares _ rfl
      have hheld := held_of_rings timed.sound timed.timely.obliges rings
      cases halarm : plan.alarm with
      | tick => exact absurd (congrArg Event.alarm halarm) hnoTick
      | quiet =>
          rw [halarm] at hheld
          exact absurd hheld (hleads.not_quiet rings)
      | resume =>
          rw [halarm] at hheld
          have hsuspended :=
            timed.sound.cadence.resume_suspended (Option.isSome_of_eq_some hheld)
          exact nomatch hrunning.symm.trans hsuspended
  | pass obliges passes => exact ⟨hrunning, hleads.pass passes⟩

/-- A pending tick rings, and finds the dock and the host as is asked for. -/
def TickRings (asked : Dock α τ → Host α → Prop) (dock dock' : Dock α τ) : Prop :=
  ∃ (host : Host α) (timers : τ) (handle : TimerHandle) (plan : Plan) (commands : List (Command α)),
    Obliges timers ∧ (timetable dock.cadence.timers).Rings handle plan (timetable timers) ∧
    plan.alarm = .tick ∧ asked (dock.withTimers timers) host ∧
    (dock.withTimers timers).handle host (.alarm .tick) = .ok (dock', commands)

include reaches in
/-- A tick of a preview calls for another one. -/
theorem Underway.onward (h : dock.Underway interval ticks) (hpos : 0 < interval)
    (lasts : ticks < previewTicks interval) {allowed : Host α → Prop} (timed : Timed allowed dock)
    (running : dock.cadence.phase = .running) (rings : dock.TickRings (ShowsMiddle interval) dock') :
    dock'.Onward := by
  obtain ⟨host, timers, handle, plan, commands, hobliges, hrings, halarm, hfit, hstep⟩ := rings
  have hunderway : (dock.withTimers timers).Underway interval ticks := h.congr h.enabled rfl rfl
  have hrearms := hunderway.rearmsOn_tick reaches hpos lasts hfit
  have hpulse := pulse_of_ring timed.sound timed.timely hobliges hrings (halarm ▸ hstep)
  rw [halarm] at hpulse
  cases hpulse with
  | rearms rearms running fresh => exact ⟨running, fresh.leads running⟩
  | stops marked phase =>
      have hstays : (dock.withTimers timers).withdrawsOn host (.alarm .tick) = false :=
        withdrawsOn_of_drawsOn (hunderway.drawsOn_tick hfit.toTicksAt)
      rw [hstays] at marked
      rcases marked with hquiet | hfalse
      · exact nomatch hquiet
      · exact nomatch hfalse
  | passes unmarked running_iff keeps =>
      have hruns := running_iff.mpr running
      exact nomatch hrearms.symm.trans (keeps hruns).1

/-- A preview starts the ticks, unless there is a suspension. -/
theorem onward_of_preview {allowed : Host α → Prop} (timed : Timed allowed dock)
    (enabled : dock.enabled = true) (awake : dock.cadence.phase ≠ .suspended)
    (step : dock.handle host (.preview true) = .ok (dock', commands)) : dock'.Onward := by
  obtain ⟨hpreview, -⟩ := ok_of_silent step
  rw [preview, if_pos rfl] at hpreview
  obtain ⟨hdisabled, -⟩ | ⟨-, started, hstart, rfl⟩ := wake_cases hpreview
  · exact Bool.noConfusion (enabled.symm.trans hdisabled)
  · have hstarted := timed.timely.running_of_start timed.sound.cadence awake hstart
    have hruns : started.rearm.phase = .running := (Cadence.phase_rearm started).trans hstarted
    exact ⟨hruns, (timed.timely.fresh_start timed.sound.cadence hstart).leads hruns⟩

/-! ## Runs -/

/-- The docks that a dock comes to in time by events that spare a preview, with the number of ticks on
    the way.  Every tick finds the dock and the host as is asked for. -/
inductive InTime (asked : Dock α τ → Host α → Prop) (begun : Dock α τ) : Nat → Dock α τ → Prop where
  | begun : InTime asked begun 0 begun
  | step {dock dock' : Dock α τ} {occurrence : Option Event} {ticks : Nat}
      (before : InTime asked begun ticks dock)
      (spares : ∀ event, occurrence = some event →
        event.sparesPreview = true ∧ event ≠ .alarm .tick)
      (step : TimedStep (fun _ => True) dock occurrence dock') : InTime asked begun ticks dock'
  | tick {dock dock' : Dock α τ} {ticks : Nat} (before : InTime asked begun ticks dock)
      (rings : dock.TickRings asked dock') : InTime asked begun (ticks + 1) dock'

variable {begun : Dock α τ} {asked : Dock α τ → Host α → Prop}

/-- A run that is in time for a preview is one in time. -/
theorem InTime.timed (h : InTime asked begun ticks dock) (timed : Timed (fun _ => True) begun) :
    Timed (fun _ => True) dock := by
  induction h with
  | begun => exact timed
  | step before spares step ih => exact ih.step step
  | tick before rings ih =>
      obtain ⟨host, timers, handle, plan, commands, hobliges, hrings, halarm, -, hstep⟩ := rings
      exact (ih.ring host trivial hobliges hrings (halarm ▸ hstep)).2

/-- What is left of a preview is counted down in time as well. -/
theorem InTime.underway (h : InTime (ShowsMiddle interval) begun ticks dock)
    (hbegun : begun.Underway interval 0) : dock.Underway interval ticks := by
  induction h with
  | begun => exact hbegun
  | step before spares step ih =>
      cases step with
      | @call _ _ event host allows call step =>
          obtain ⟨hspares, hnoTick⟩ := spares event rfl
          exact ih.handle hspares hnoTick step
      | @ring _ _ timers _ plan host allows obliges rings step =>
          obtain ⟨hspares, hnoTick⟩ := spares _ rfl
          have hrung : (Dock.withTimers _ timers).Underway interval _ := ih.congr ih.enabled rfl rfl
          exact hrung.handle hspares hnoTick step
      | pass obliges passes => exact ih.congr ih.enabled rfl rfl
  | tick before rings ih =>
      obtain ⟨host, timers, handle, plan, commands, -, -, -, hfit, hstep⟩ := rings
      obtain ⟨animated, htick⟩ := tick_of_handle hstep
      have hrung : (Dock.withTimers _ timers).Underway interval _ := ih.congr ih.enabled rfl rfl
      exact hrung.tick hfit.toTicksAt htick

include reaches in
/-- The ticks go on until the preview is counted down. -/
theorem InTime.onward (h : InTime (ShowsMiddle interval) begun ticks dock) (hpos : 0 < interval)
    (underway : begun.Underway interval 0) (timed : Timed (fun _ => True) begun)
    (onward : begun.Onward) (lasts : ticks ≤ previewTicks interval) : dock.Onward := by
  induction h with
  | begun => exact onward
  | step before spares step ih => exact (ih lasts).step (before.timed timed) step spares
  | @tick dock dock' ticks before rings ih =>
      have hbefore := ih (Nat.le_of_succ_le lasts)
      exact (before.underway underway).onward reaches hpos lasts (before.timed timed) hbefore.1 rings

end Lasting

/-- What a preview comes to that has been begun in a dock whose ticks come at an interval. -/
structure LastsFully {τ : Type} [TimerService τ] [TimedService τ] (dock begun : Dock Float τ)
    (interval : Nat) : Prop where
  /-- The lens is on the middle tile in as many ticks as it takes to fill the time of the preview, and
      in no other, whatever else happens. -/
  lens : ∀ {ticks dock₁ host dock₂ commands}, After (TicksAt interval) begun ticks dock₁ →
    TicksAt interval dock₁ host → dock₁.handle host (.alarm .tick) = .ok (dock₂, commands) →
    dock₁.TickLens host interval ticks dock₂ commands
  /-- If that tile can be seen, then the cadence does not stop before the last of these ticks, nor in
      it. -/
  running : Timed (fun _ => True) dock → ∀ {ticks dock₁}, InTime (ShowsMiddle interval) begun ticks dock₁ →
    ticks < previewTicks interval → dock₁.cadence.phase = .running ∧
      ∀ {dock₂}, dock₁.TickRings (ShowsMiddle interval) dock₂ → dock₂.cadence.phase = .running

/-- **A PREVIEW LASTS ITS FULL TIME**, whatever the interval between two ticks is: the first
    `previewTicks` of them put the lens on the middle tile, and the next one puts it where the pointer
    is.  No tick is missing among them, since each of them begins a new quiet period. -/
theorem preview_lastsFully {τ : Type} [TimerService τ] [TimedService τ] {dock begun : Dock Float τ}
    {host : Host Float} {commands : List (Command Float)} {interval : Nat}
    (hinterval : Cadence.baseInterval ≤ interval) (enabled : dock.enabled = true)
    (awake : dock.cadence.phase ≠ .suspended) (unqueued : dock.cadence.dragQueued = false)
    (begins : dock.handle host (.preview true) = .ok (begun, commands)) :
    LastsFully dock begun interval := by
  have hpos : 0 < interval := (show 0 < Cadence.baseInterval by decide).trans_le hinterval
  have hbegun : begun.Underway interval 0 := .begun enabled unqueued begins
  constructor
  · intro ticks dock₁ host₁ dock₂ shown hafter hfit hstep
    exact (hafter.underway hbegun).tick_lens hpos hfit hstep
  · intro timed ticks dock₁ hin hlasts
    have hstarted : Timed (fun _ => True) begun := timed.call host (.preview true) trivial nofun begins
    have honward := hin.onward Double.zero_lt_double hpos hbegun hstarted
      (onward_of_preview timed enabled awake begins) hlasts.le
    refine ⟨honward.1, fun {dock₂} hrings => ?_⟩
    exact ((hin.underway hbegun).onward Double.zero_lt_double hpos hlasts (hin.timed hstarted)
      honward.1 hrings).1

/-- A favorite in a dock that ticks every 600 milliseconds. -/
private def slowed : Host Float where
  settings :=
    { (Settings.standard : Settings Float) with
      magnification := { (Settings.standard : Settings Float).magnification with fps := 39.0 } }
  geometry := .standard
  icons := [Icon.favorite 1 ⟨0.0, 0.0⟩]

theorem intervalFor_slowed :
    Cadence.intervalFor slowed.settings.magnification.fps = .ok (milliseconds 600) := by
  decide +kernel

/-- The dock in which the preview is begun. -/
private def slowDock : Dock Float Chronicle := (new Chronicle.start).enable slowed.settings

/-- The first tick of the preview. -/
private def slowTick : PendingTimer := ⟨0, .tick, milliseconds 600, some (milliseconds 600)⟩

/-- The dock with that tick pending. -/
private def slowPreview : Dock Float Chronicle :=
  { slowDock with
    previewLeft := some previewPeriod
    cadence :=
      { slowDock.cadence with
        timers :=
          { clock :=
              { Clock.start with
                nextHandle := 2
                pending := [slowTick, ⟨1, .quiet, milliseconds 1350, none⟩] }
            journal := [.asked .quiet, .asked .tick] }
        phase := .running
        interval := milliseconds 600
        tickTimer := some 0
        quietTimer := some 1 } }

set_option maxRecDepth 4096 in
/-- A preview takes two ticks then.  After the first of them the cadence still runs, and the second
    one has its lens on the middle tile as well. -/
theorem preview_lastsFully_slowed : previewTicks (milliseconds 600) = 2 ∧
    ∃ (first second : Dock Float Chronicle) (commands : List (Command Float)),
      slowPreview.TickRings (ShowsMiddle (milliseconds 600)) first ∧
      first.cadence.phase = .running ∧
      first.handle slowed (.alarm .tick) = .ok (second, commands) ∧
      ∃ focus, OnMiddle (first.updated slowed).row.tiles focus ∧
        first.TicksWith slowed focus second commands := by
  have hnew : Timed (fun _ => True) (new Chronicle.start : Dock Float Chronicle) :=
    .new _ Chronicle.start_isObliging fun _ => rfl
  have henabled : Timed (fun _ => True) slowDock := hnew.call slowed .enable trivial nofun rfl
  have hbegins : slowDock.handle slowed (.preview true) = .ok (slowPreview, []) := rfl
  have hbegun := henabled.call slowed (.preview true) trivial nofun hbegins
  have hawake : slowDock.cadence.phase ≠ .suspended := by decide
  have hlasts : LastsFully slowDock slowPreview (milliseconds 600) :=
    preview_lastsFully (by decide) rfl hawake rfl hbegins
  have hobliges := hbegun.timely.obliges
  have hrings := Chronicle.rings slowTick (milliseconds 600) (milliseconds 1200) hobliges rfl
  have hfirst : slowPreview.TickRings (ShowsMiddle (milliseconds 600)) _ :=
    ⟨slowed, _, _, _, _, hobliges.ring, hrings, rfl, ⟨⟨rfl, rfl⟩, ⟨_, rfl, rfl⟩, by decide⟩, rfl⟩
  have hrunning := (hlasts.running henabled .begun (by decide)).2 hfirst
  have hafter : After (TicksAt (milliseconds 600)) slowPreview 1 _ :=
    (After.begun.drift (slowPreview.cadence.timers.ring slowTick (milliseconds 600)
      (milliseconds 1200))).tick slowed ⟨rfl, rfl⟩ rfl
  have hends : ∀ {first : Dock Float Chronicle},
      After (TicksAt (milliseconds 600)) slowPreview 1 first →
        ∃ result, first.handle slowed (.alarm .tick) = .ok result :=
    fun _ => handle_ok _ slowed (.alarm .tick) intervalFor_slowed
  obtain ⟨⟨second, commands⟩, hsecond⟩ := hends hafter
  have hlens := (hlasts.lens hafter ⟨rfl, rfl⟩ hsecond).overridden (by decide)
  exact ⟨by decide, _, second, commands, hfirst, hrunning, hsecond, hlens⟩

end Dock

end FisheyeDock
