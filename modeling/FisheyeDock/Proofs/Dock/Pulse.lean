import FisheyeDock.Proofs.Cadence.Instants
import FisheyeDock.Proofs.Dock.Drag

/-! # What an event does to the quiet period

    Some events rearm the cadence: they begin a new quiet period if they leave it running
    (`rearmsOn`).  Any other event leaves the deadlines of a running cadence as they are, unless it
    is the end of a quiet period or takes the dock out of the scene (`Pulse`).  No event takes any
    time. -/

namespace FisheyeDock.Dock

open Scene (Command)
open TimerService
open Cadence (Alike Turn sameDrag_halt turn_halt turn_orderLayouts)

variable {α τ : Type} [Scalar α] [TimerService τ]
variable {dock dock' : Dock α τ} {host : Host α} {event : Event} {commands : List (Command α)}

/-- Whether a tick finds anything to animate. -/
def animates (dock : Dock α τ) (host : Host α) : Bool :=
  match dock.tick host with
  | .ok (_, _, animated) => animated
  | .error _ => false

/-- Whether an event lets a running cadence stop only after another quiet period. -/
def rearmsOn (dock : Dock α τ) (host : Host α) : Event → Bool
  | .pointerEnter | .pointerMotion | .relayout | .focusChanged | .alarm .resume => dock.enabled
  | .preview on => on && dock.enabled
  | .pointerLeave => true
  | .alarm .tick => dock.animates host
  | _ => false

variable [TimedService τ]

/-- What an event does to the quiet period. -/
inductive Pulse (dock : Dock α τ) (host : Host α) (event : Event) (dock' : Dock α τ) : Prop where
  /-- A new one begins. -/
  | rearms (rearms : dock.rearmsOn host event = true) (running : dock'.cadence.phase = .running)
      (fresh : dock'.cadence.Fresh)
  /-- The cadence stops, or has stopped before. -/
  | stops (marked : event = .alarm .quiet ∨ dock.withdrawsOn host event = true)
      (phase : dock'.cadence.phase ≠ .running)
  /-- The cadence runs on with the same deadlines, or still does not run. -/
  | passes (unmarked : ¬ (event = .alarm .quiet ∨ dock.withdrawsOn host event = true))
      (running_iff : dock'.cadence.phase = .running ↔ dock.cadence.phase = .running)
      (keeps : dock'.cadence.phase = .running →
        dock.rearmsOn host event = false ∧ Alike dock.cadence dock'.cadence)

namespace Pulse

/-- What leaves the cadence alike passes, if nothing else was called for. -/
theorem of_alike (loud : event ≠ .alarm .quiet) (stays : dock.withdrawsOn host event = false)
    (off : dock.rearmsOn host event = false) (alike : Alike dock.cadence dock'.cadence) :
    Pulse dock host event dock' := by
  refine .passes ?_ (by rw [alike.phase]) fun _ => ⟨off, alike⟩
  rw [stays]
  simpa using loud

/-- The cadence does not run before, nor does it after. -/
theorem of_rest (loud : event ≠ .alarm .quiet) (stays : dock.withdrawsOn host event = false)
    (before : dock.cadence.phase ≠ .running) (after : dock'.cadence.phase ≠ .running) :
    Pulse dock host event dock' := by
  refine .passes ?_ (iff_of_false after before) fun running => absurd running after
  rw [stays]
  simpa using loud

/-- A start of a cadence, which is the one of the dock or one that is not suspended, unless that is.
    -/
theorem of_start (loud : event ≠ .alarm .quiet) (stays : dock.withdrawsOn host event = false)
    (rearms : dock.rearmsOn host event = true) {c started : Cadence τ} {fps : α} (sound : c.Sound)
    (timely : c.Timely) (start : c.start fps = .ok started)
    (suspended : c.phase = .suspended → dock.cadence.phase ≠ .running)
    (cadence : Alike started.rearm dock'.cadence) : Pulse dock host event dock' := by
  by_cases hrunning : dock'.cadence.phase = .running
  · exact .rearms rearms hrunning (cadence.fresh (timely.fresh_start sound start))
  · have hstarted : started.phase ≠ .running := by
      rw [← started.phase_rearm, ← cadence.phase]
      exact hrunning
    -- a start that leads nowhere finds the cadence suspended
    obtain rfl | ⟨-, hruns, -⟩ := timely.started sound start
    · refine of_rest loud stays (suspended ?_) hrunning
      cases hphase : started.phase with
      | idle => exact absurd hphase (timely.start_ne_idle start)
      | running => exact absurd hphase hstarted
      | suspended => rfl
    · exact absurd hruns hstarted

/-- A wake-up of a dock whose cadence may have been given an order for layouts before. -/
theorem of_wake (loud : event ≠ .alarm .quiet) (stays : dock.withdrawsOn host event = false)
    (rearms : dock.rearmsOn host event = dock.enabled) {settings : Settings α} {ticks : Nat}
    {previewLeft : Option Nat} (sound : dock.Sound) (timely : dock.cadence.Timely)
    (h : wake { dock with cadence := dock.cadence.orderLayouts ticks, previewLeft } settings
      = .ok dock') : Pulse dock host event dock' := by
  have hordered := turn_orderLayouts dock.cadence ticks
  obtain ⟨hdisabled, rfl⟩ | ⟨henabled, started, hstart, rfl⟩ := wake_cases h
  · exact of_alike loud stays (rearms.trans hdisabled) ⟨rfl, rfl, rfl, rfl, rfl⟩
  · refine of_start loud stays (rearms.trans henabled) (sound.cadence.orderLayouts ticks)
      (hordered.timely timely) hstart ?_ (.refl _)
    intro hsuspended
    rw [show dock.cadence.phase = .suspended from hsuspended]
    decide

/-- A change of focus rearms the quiet period, after a start where the cadence was at rest. -/
theorem focusChanged {settings : Settings α} (sound : dock.Sound) (timely : dock.cadence.Timely)
    (h : dock.focusChanged settings = .ok dock') : Pulse dock host .focusChanged dock' := by
  unfold Dock.focusChanged at h
  by_cases henabled : dock.enabled = true
  · rw [if_pos henabled] at h
    obtain ⟨woken, hwake, hdone⟩ := bind_eq_ok_iff.mp h
    obtain rfl := Except.ok.inj hdone
    obtain ⟨hdisabled, -⟩ | ⟨-, started, hstart, rfl⟩ := wake_cases hwake
    · exact nomatch henabled.symm.trans hdisabled
    · have hhalted : Turn dock.cadence dock.cadence.halt := turn_halt timely.obliges
      refine of_start nofun rfl henabled sound.cadence.halt (hhalted.timely timely) hstart ?_
        ⟨rfl, rfl, rfl, rfl, rfl⟩
      intro hsuspended
      rw [(sameDrag_halt dock.cadence).suspended_iff.mp hsuspended]
      decide
  · rw [if_neg henabled] at h
    obtain rfl := Except.ok.inj h
    exact of_alike nofun rfl ((Bool.not_eq_true _).mp henabled) (.refl _)

/-- Disabling, by whatever event. -/
theorem disable (loud : event ≠ .alarm .quiet) (leaves : dock.withdrawsOn host event = dock.enabled)
    (off : dock.rearmsOn host event = false) : Pulse dock host event dock.disable.1 := by
  unfold Dock.disable
  by_cases henabled : dock.enabled = true
  · rw [if_pos henabled]
    refine .stops (.inr (leaves.trans henabled)) ?_
    rw [cadence_withdraw]
    exact show Cadence.Phase.idle ≠ .running by decide
  · rw [if_neg henabled]
    exact of_alike loud (leaves.trans ((Bool.not_eq_true _).mp henabled)) off (.refl _)

/-- The beginning of a drag suspends a cadence at rest, and leaves a running one alone. -/
theorem dragBegin (sound : dock.Sound) : Pulse dock host .dragBegin dock.dragBegin.1 := by
  have hleaves := dock.withdrawsOn_dragBegin host
  unfold Dock.dragBegin
  by_cases henabled : dock.enabled = true
  · rw [if_pos henabled]
    rw [henabled, Bool.true_and] at hleaves
    dsimp only
    by_cases hsuspended : dock.cadence.beginDrag.phase = .suspended
    · rw [if_pos hsuspended]
      refine .stops (.inr (hleaves.trans (decide_eq_true hsuspended))) ?_
      rw [cadence_withdraw, hsuspended]
      decide
    · -- a cadence that a drag does not suspend runs, and has the drag queued
      rw [if_neg hsuspended]
      have hrunning : dock.cadence.phase = .running := by
        by_contra hphase
        exact hsuspended (Cadence.phase_beginDrag_of_ne hphase)
      have hresume := sound.cadence.resumeTimer_eq_none (by rw [hrunning]; decide)
      refine of_alike nofun (hleaves.trans (decide_eq_false hsuspended)) rfl ?_
      show Alike dock.cadence dock.cadence.beginDrag
      rw [Cadence.beginDrag_of_running hrunning hresume]
      exact ⟨rfl, rfl, rfl, rfl, rfl⟩
  · rw [if_neg henabled]
    rw [(Bool.not_eq_true _).mp henabled] at hleaves
    exact of_alike nofun hleaves rfl (.refl _)

/-- The end of a drag suspends a cadence for which the drag was queued. -/
theorem dragEnd (timely : dock.cadence.Timely) : Pulse dock host .dragEnd dock.dragEnd.1 := by
  have hleaves := dock.withdrawsOn_dragEnd host
  unfold Dock.dragEnd
  by_cases henabled : dock.enabled = true
  · rw [if_pos henabled]
    rw [henabled, Bool.true_and] at hleaves
    dsimp only
    by_cases hsuspends : dock.cadence.phase ≠ .suspended ∧ dock.cadence.endDrag.phase = .suspended
    · rw [if_pos hsuspends]
      refine .stops (.inr (hleaves.trans (decide_eq_true hsuspends))) ?_
      rw [cadence_withdraw, hsuspends.2]
      decide
    · rw [if_neg hsuspends]
      have hstays := hleaves.trans (decide_eq_false hsuspends)
      rcases timely.endDrag_cases with hsame | hsuspended
      · exact of_alike nofun hstays rfl (hsame.symm ▸ .refl _)
      · -- suspended before, and for now suspended still
        have hbefore : dock.cadence.phase = .suspended := by
          by_contra hphase
          exact hsuspends ⟨hphase, hsuspended⟩
        refine of_rest nofun hstays ?_ ?_
        · rw [hbefore]
          decide
        · rw [hsuspended]
          decide
  · rw [if_neg henabled]
    rw [(Bool.not_eq_true _).mp henabled] at hleaves
    exact of_alike nofun hleaves rfl (.refl _)

end Pulse

/-- What a call does to the quiet period. -/
theorem pulse_of_call (call : ∀ alarm, event ≠ .alarm alarm) (sound : dock.Sound)
    (timely : dock.cadence.Timely) (h : dock.handle host event = .ok (dock', commands)) :
    Pulse dock host event dock' := by
  cases event with
  | enable =>
      rw [eq_of_handle h rfl]
      unfold Dock.enable
      split
      · exact .of_alike nofun rfl rfl (.refl _)
      · exact .of_alike nofun rfl rfl ⟨rfl, rfl, rfl, rfl, rfl⟩
  | disable =>
      rw [eq_of_handle h rfl]
      exact .disable nofun rfl rfl
  | pointerEnter | pointerMotion =>
      obtain ⟨hwake, -⟩ := ok_of_silent h
      exact .of_wake nofun rfl rfl sound timely hwake
  | pointerLeave =>
      rw [eq_of_handle h rfl]
      by_cases hrunning : dock.cadence.phase = .running
      · exact .rearms rfl (dock.cadence.phase_rearm.trans hrunning) timely.fresh_rearm
      · exact .of_rest nofun rfl hrunning (dock.cadence.phase_rearm.symm ▸ hrunning)
  | focusChanged =>
      obtain ⟨hfocus, -⟩ := ok_of_silent h
      exact .focusChanged sound timely hfocus
  | fullscreenChanged =>
      rw [eq_of_handle h rfl]
      unfold Dock.fullscreenChanged
      split
      · rw [showLayers_fst]
        exact .of_alike nofun rfl rfl (.refl _)
      · exact .of_alike nofun rfl rfl (.refl _)
  | dragBegin =>
      rw [eq_of_handle h rfl]
      exact .dragBegin sound
  | dragEnd =>
      rw [eq_of_handle h rfl]
      exact .dragEnd timely
  | preview on =>
      obtain ⟨hpreview, -⟩ := ok_of_silent h
      cases on with
      | true => exact .of_wake nofun rfl rfl sound timely hpreview
      | false =>
          obtain rfl := Except.ok.inj hpreview
          exact .of_alike nofun rfl rfl (.refl _)
  | relayout =>
      obtain ⟨hrelayout, -⟩ := ok_of_silent h
      exact .of_wake nofun rfl rfl sound timely hrelayout
  | alarm alarm => exact absurd rfl (call alarm)

/-! ## Alarms -/

/-- What a tick does to the quiet period. -/
theorem pulse_of_tick {animated : Bool} (timely : dock.cadence.Timely)
    (h : dock.tick host = .ok (dock', commands, animated)) :
    Pulse dock host (.alarm .tick) dock' := by
  have hleaves := dock.withdrawsOn_tick host
  have hanimates : dock.rearmsOn host (.alarm .tick) = animated := by
    show dock.animates host = animated
    rw [animates, h]
  -- a tick is ignored, ends in a drag or in being disabled, or draws a frame
  obtain ⟨hdisabled, rfl, -⟩ | ⟨henabled, hdrag, heq⟩ | ⟨henabled, hdrag, hoff, heq⟩
    | ⟨henabled, hdrag, hon, shown, hanimate, -⟩ := tick_cases h
  · rw [hdisabled] at hleaves
    refine .of_alike (by simp) hleaves ?_ (.refl _)
    show dock'.animates host = false
    rw [animates, tick, hdisabled]
    rfl
  · rw [henabled, hdrag] at hleaves
    rw [show dock' = _ from congrArg Prod.fst heq]
    refine .stops (.inr hleaves) ?_
    rw [cadence_withdraw]
    exact show Cadence.Phase.suspended ≠ .running by decide
  · rw [show dock' = _ from congrArg Prod.fst heq]
    rw [henabled, hdrag, hoff] at hleaves
    unfold disable
    rw [if_pos henabled]
    refine .stops (.inr hleaves) ?_
    rw [cadence_withdraw]
    exact show Cadence.Phase.idle ≠ .running by decide
  · rw [henabled, hdrag, hon] at hleaves
    obtain ⟨_, _, _, _, _, _, _, rfl⟩ := animate_cases hanimate
    have halike := alike_updated dock host
    cases animated with
    | false => exact .of_alike (by simp) hleaves hanimates halike
    | true =>
        by_cases hrunning : dock.cadence.phase = .running
        · refine .rearms hanimates ?_ (halike.timely timely).fresh_rearm
          exact (Cadence.phase_rearm _).trans (halike.phase.trans hrunning)
        · refine .of_rest (by simp) hleaves hrunning ?_
          show (dock.updated host).cadence.rearm.phase ≠ .running
          rw [Cadence.phase_rearm, halike.phase]
          exact hrunning

/-- The end of a pause finds the cadence suspended, and starts it if the dock is enabled. -/
theorem pulse_of_resume {settings : Settings α} {timers : τ} (sound : dock.Sound)
    (obliges : Obliges timers) (suspended : dock.cadence.phase = .suspended)
    (acc : Accounts timers (Function.update dock.cadence.held .resume none))
    (h : (dock.withTimers timers).resume settings = .ok dock') :
    Pulse (dock.withTimers timers) host (.alarm .resume) dock' := by
  have hsound := sound.cadence.resume acc
  have hended : (dock.cadence.withTimers timers).resume = _ := Cadence.resume_of_suspended suspended
  rw [hended] at hsound
  rw [Dock.resume, show (dock.withTimers timers).cadence.resume = _ from hended] at h
  have hbefore : (dock.withTimers timers).cadence.phase ≠ .running := by
    show dock.cadence.phase ≠ .running
    rw [suspended]
    decide
  have hidle : Cadence.Phase.idle ≠ .running := by decide
  obtain ⟨-, rfl⟩ | ⟨henabled, started, hstart, rfl⟩ := wake_cases h
  · exact .of_rest (by simp) rfl hbefore hidle
  · exact .of_start (by simp) rfl henabled (hsound.orderLayouts _)
      ⟨obliges, fun hruns => absurd hruns hidle⟩ hstart (fun _ => hbefore) (.refl _)

/-! ## No event takes time -/

section Time

variable (obliges : Obliges dock.cadence.timers)

include obliges

omit [Scalar α] in
/-- To disable the dock takes no time. -/
theorem atOnce_disable : AtOnce dock.cadence.timers dock.disable.1.cadence.timers := by
  unfold disable
  split
  · rw [cadence_withdraw]
    exact Cadence.atOnce_reset obliges
  · exact .refl obliges

theorem Answer.atOnce (h : Answer dock event dock') :
    AtOnce dock.cadence.timers dock'.cadence.timers := by
  open Cadence in
  cases h with
  | counts ticks cadence_eq =>
      rw [cadence_eq]
      exact .refl obliges
  | rearms cadence_eq =>
      rw [cadence_eq]
      exact atOnce_rearm obliges
  | wakes ticks start cadence_eq =>
      rw [cadence_eq]
      have hstarted := atOnce_start start obliges
      exact hstarted.trans (atOnce_rearm hstarted.obliges)
  | restarts start ticks cadence_eq =>
      rw [cadence_eq]
      have hhalted := atOnce_halt obliges
      have hstarted := hhalted.trans (atOnce_start start hhalted.obliges)
      exact hstarted.trans (atOnce_rearm hstarted.obliges)
  | resets disabled cadence_eq =>
      rw [cadence_eq]
      exact atOnce_reset obliges
  | beginsDrag cadence_eq =>
      rw [cadence_eq]
      exact atOnce_beginDrag obliges
  | endsDrag event_eq cadence_eq =>
      rw [cadence_eq]
      exact atOnce_endDrag obliges

theorem atOnce_tick {animated : Bool} (h : dock.tick host = .ok (dock', commands, animated)) :
    AtOnce dock.cadence.timers dock'.cadence.timers := by
  obtain ⟨-, rfl, -⟩ | ⟨-, -, heq⟩ | ⟨-, -, -, heq⟩ | ⟨-, -, -, shown, hanimate, -⟩ := tick_cases h
  · exact .refl obliges
  · rw [show dock' = _ from congrArg Prod.fst heq, cadence_withdraw]
    exact Cadence.atOnce_halt obliges
  · rw [show dock' = _ from congrArg Prod.fst heq]
    exact atOnce_disable obliges
  · obtain ⟨_, _, _, _, _, _, _, rfl⟩ := animate_cases hanimate
    have hupdated := timers_updated dock host
    show AtOnce _ (Cadence.timers (if _ then _ else _))
    rw [← hupdated] at obliges ⊢
    split
    · exact Cadence.atOnce_rearm obliges
    · exact .refl obliges

theorem atOnce_resume {settings : Settings α} (h : dock.resume settings = .ok dock') :
    AtOnce dock.cadence.timers dock'.cadence.timers := by
  by_cases hsuspended : dock.cadence.phase = .suspended
  · rw [Dock.resume, Cadence.resume_of_suspended hsuspended] at h
    obtain ⟨-, rfl⟩ | ⟨-, started, hstart, rfl⟩ := wake_cases h
    · exact .refl obliges
    · have hstarted := Cadence.atOnce_start hstart obliges
      exact hstarted.trans (Cadence.atOnce_rearm hstarted.obliges)
  · rw [Dock.resume, Cadence.resume_of_ne hsuspended] at h
    obtain rfl := Except.ok.inj h
    exact .refl obliges

theorem atOnce_handle (h : dock.handle host event = .ok (dock', commands)) :
    AtOnce dock.cadence.timers dock'.cadence.timers := by
  by_cases hcall : ∀ alarm, event ≠ .alarm alarm
  · exact (called hcall h).answer.atOnce obliges
  · push Not at hcall
    obtain ⟨alarm, rfl⟩ := hcall
    cases alarm with
    | tick =>
        obtain ⟨animated, htick⟩ := tick_of_handle h
        exact atOnce_tick obliges htick
    | quiet =>
        obtain ⟨rfl, -⟩ := Prod.mk.inj (Except.ok.inj h)
        exact Cadence.atOnce_halt (c := { dock.cadence with quietTimer := none }) obliges
    | resume =>
        obtain ⟨hresume, -⟩ := resume_of_handle h
        exact atOnce_resume obliges hresume

end Time

end FisheyeDock.Dock
