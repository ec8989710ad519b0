import FisheyeDock.Proofs.Dock.Driven
import FisheyeDock.Proofs.Dock.Renumbering
import FisheyeDock.Proofs.Dock.Unnoticed

/-! # Enabling starts over

    Of what a dock has done before it was disabled nothing is left but the numbers of its tiles and
    markers, the interval of its last start and a count of layouts (`Blank`).  The numbers are
    names, and the other two are set before they are looked at.  So a disabled dock that is given
    any inputs does the same as a new one (`Lived.startsOver`).

    The one thing that does show through is a preview.  It is noted without a look at whether the
    dock is enabled, and waits for the first ticks after that. -/

namespace FisheyeDock

namespace Cadence

/-- A cadence that rests, and waits for nothing. -/
structure Resting {τ : Type} (c : Cadence τ) : Prop where
  phase : c.phase = .idle
  tickTimer : c.tickTimer = none
  quietTimer : c.quietTimer = none
  resumeTimer : c.resumeTimer = none
  dragQueued : c.dragQueued = false

namespace Resting

variable {τ : Type} {c : Cadence τ}

/-- At rest it does not run. -/
theorem ne_running (h : c.Resting) : c.phase ≠ .running := by
  rw [h.phase]
  decide

theorem ne_suspended (h : c.Resting) : c.phase ≠ .suspended := by
  rw [h.phase]
  decide

theorem withTimers (h : c.Resting) (timers : τ) : (c.withTimers timers).Resting :=
  ⟨h.phase, h.tickTimer, h.quietTimer, h.resumeTimer, h.dragQueued⟩

theorem orderLayouts (h : c.Resting) (ticks : Nat) : (c.orderLayouts ticks).Resting :=
  ⟨h.phase, h.tickTimer, h.quietTimer, h.resumeTimer, h.dragQueued⟩

/-- A resume that comes while it rests is forgotten. -/
theorem resume (h : c.Resting) : c.resume.2.Resting := by
  rw [Cadence.resume_of_ne h.ne_suspended]
  exact ⟨h.phase, h.tickTimer, h.quietTimer, rfl, h.dragQueued⟩

variable [TimerService τ]

/-- What rests is given no quiet period. -/
theorem rearm (h : c.Resting) : c.rearm.Resting := by
  rw [Cadence.rearm, if_neg h.ne_running]
  exact h

/-- The end of a quiet period that comes while it rests stops nothing. -/
theorem quietPassed (h : c.Resting) : c.quietPassed.Resting :=
  ⟨(if_neg h.ne_running).trans h.phase, rfl, rfl, h.resumeTimer, h.dragQueued⟩

end Resting

/-- After a reset a cadence rests. -/
theorem resting_reset {τ : Type} [TimerService τ] (c : Cadence τ) : c.reset.Resting :=
  ⟨rfl, rfl, rfl, rfl, rfl⟩

end Cadence

namespace Dock

open Scene (Command)
open TimerService

variable {α τ : Type}

/-! ## Any run -/

section Lived

variable [Scalar α] [TimerService τ] [LawfulTimerService τ]

/-- The docks that any run leads to, with what has happened, the latest first.  Even ticks may come
    at any moment, and the alarm of a timer that fires may be lost. -/
inductive Lived : Dock α τ → List (Moment α τ) → Prop where
  | new (timers : τ) (proper : Proper timers) (nothing : ∀ handle, pending timers handle = none) :
      Lived (new timers) []
  | event {dock dock' : Dock α τ} {past : List (Moment α τ)} {commands : List (Command α)}
      (host : Host α) (event : Event) (before : Lived dock past)
      (step : dock.handle host event = .ok (dock', commands)) :
      Lived dock' (⟨dock, host, event⟩ :: past)
  | fire {dock : Dock α τ} {past : List (Moment α τ)} {handle : TimerHandle}
      {engagement : Engagement} {timers : τ} (before : Lived dock past)
      (fires : Fires dock.cadence.timers handle engagement timers) :
      Lived (dock.withTimers timers) past
  | drift {dock : Dock α τ} {past : List (Moment α τ)} {timers : τ} (before : Lived dock past)
      (drifts : Drifts dock.cadence.timers timers) : Lived (dock.withTimers timers) past

/-- A dock that lives holds its tick. -/
theorem Lived.ticking {dock : Dock α τ} {past : List (Moment α τ)} (h : Lived dock past) :
    dock.cadence.Ticking := by
  induction h with
  | new timers proper nothing => exact Cadence.ticking_idle proper nothing
  | event host event before step ih => exact ticking_handle ih step
  | fire before fires ih => exact ih.withTimers (.of_fires fires)
  | drift before drifts ih => exact ih.withTimers (.of_drifts drifts)

end Lived

/-! ## Inputs -/

/-- What comes next: the state that the timer service has come to, and an event. -/
structure Input (α τ : Type) where
  timers : τ
  host : Host α
  event : Event

section Replay

variable [Scalar α] [TimerService τ]

/-- What a dock makes of an input. -/
def take (dock : Dock α τ) (input : Input α τ) : Except Fault (Dock α τ × List (Command α)) :=
  (dock.withTimers input.timers).handle input.host input.event

/-- What a dock makes of a sequence of inputs. -/
def replay : Dock α τ → List (Input α τ) → Except Fault (Dock α τ × List (Command α))
  | dock, [] => .ok (dock, [])
  | dock, input :: inputs => do
    let (dock, commands) ← dock.take input
    let (dock, more) ← dock.replay inputs
    pure (dock, commands ++ more)

variable [LawfulTimerService τ]

/-- What may come next.  A tick comes only from a pending timer. -/
inductive Admits (dock : Dock α τ) (input : Input α τ) : Prop where
  | event (noTick : input.event ≠ .alarm .tick) (drifts : Drifts dock.cadence.timers input.timers)
  | fire {handle : TimerHandle} {engagement : Engagement}
      (fires : Fires dock.cadence.timers handle engagement input.timers)
      (alarm : input.event = .alarm engagement.alarm)

/-- All inputs may come one after the other, as long as the dock does not fail. -/
def Playable : Dock α τ → List (Input α τ) → Prop
  | _, [] => True
  | dock, input :: inputs => dock.Admits input ∧
      ∀ dock' commands, dock.take input = .ok (dock', commands) → dock'.Playable inputs

variable {dock dock' first : Dock α τ} {input : Input α τ} {inputs : List (Input α τ)}
variable {past : List (Moment α τ)} {commands : List (Command α)}

/-- An input that the dock admits may come before all that may come afterwards. -/
theorem Playable.cons (admits : dock.Admits input) (step : dock.take input = .ok (dock', commands))
    (rest : dock'.Playable inputs) : dock.Playable (input :: inputs) := by
  refine ⟨admits, ?_⟩
  intro other more hother
  obtain ⟨rfl, -⟩ := Prod.mk.inj (Except.ok.inj (step.symm.trans hother))
  exact rest

/-- What a dock admits, it lives through. -/
theorem Lived.take (h : Lived dock past) (admits : dock.Admits input)
    (step : dock.take input = .ok (dock', commands)) : ∃ past', Lived dock' past' := by
  obtain ⟨timers, host, event⟩ := input
  cases admits with
  | event noTick drifts => exact ⟨_, (h.drift drifts).event host event step⟩
  | fire fires alarm => exact ⟨_, (h.fire fires).event host event step⟩

/-- A tick that comes from a timer finds the cadence running. -/
theorem Lived.running_of_admits (h : Lived dock past) (admits : dock.Admits input)
    (tick : input.event = .alarm .tick) : dock.cadence.phase = .running := by
  cases admits with
  | event noTick drifts => exact absurd tick noTick
  | @fire _ engagement fires alarm =>
      obtain ⟨_, repeats⟩ := engagement
      obtain rfl := Event.alarm.inj (alarm.symm.trans tick)
      exact h.ticking.running_of_pending fires.engaged

/-- Docks that are akin make the same of a sequence of inputs. -/
theorem Lived.replay_akin (h : Lived dock past) (akin : Akin first dock)
    (playable : dock.Playable inputs) :
    Agree AkinStep (first.replay inputs) (dock.replay inputs) := by
  induction inputs generalizing dock first past with
  | nil => exact .ok ⟨akin, rfl⟩
  | cons input inputs ih =>
      obtain ⟨hadmits, hplayable⟩ := playable
      have hrunning : input.event = .alarm .tick → first.cadence.phase = .running :=
        fun htick => akin.phase ▸ h.running_of_admits hadmits htick
      have hagree : Agree AkinStep (first.take input) (dock.take input) :=
        (akin.withTimers input.timers).handle input.host input.event hrunning
      unfold replay
      generalize first.take input = taken at hagree
      cases hstep : dock.take input with
      | error fault =>
          rw [hstep] at hagree
          cases hagree
          exact .error fault
      | ok step =>
          rw [hstep] at hagree
          obtain ⟨past', hlived⟩ := h.take hadmits hstep
          cases hagree with
          | ok related =>
              obtain ⟨hakin, hcommands⟩ := related
              refine (ih hlived hakin (hplayable _ _ hstep)).bind fun hmore => .ok ⟨hmore.1, ?_⟩
              exact congrArg₂ (· ++ ·) hcommands hmore.2

omit [LawfulTimerService τ] in
/-- Numbers that are ahead stay ahead through all inputs. -/
theorem replay_renumber {ahead : Offset} (dock : Dock α τ) (inputs : List (Input α τ)) :
    (dock.renumber ahead).replay inputs = renumberStep ahead <$> dock.replay inputs := by
  induction inputs generalizing dock with
  | nil => rfl
  | cons input inputs ih =>
      have htake : (dock.renumber ahead).take input = renumberStep ahead <$> dock.take input :=
        handle_renumber (dock.withTimers input.timers) input.host input.event
      unfold replay
      rw [htake]
      cases dock.take input with
      | error fault => rfl
      | ok step =>
          show (step.1.renumber ahead).replay inputs >>= _ = _ <$> (step.1.replay inputs >>= _)
          rw [ih]
          cases step.1.replay inputs with
          | error fault => rfl
          | ok more =>
              exact congrArg (fun commands => Except.ok (more.1.renumber ahead, commands))
                List.map_append.symm

end Replay

/-! ## What is left of a run -/

/-- A disabled dock with nothing in the scene, whose cadence rests. -/
structure Blank (dock : Dock α τ) (previewLeft : Option Nat) : Prop where
  enabled : dock.enabled = false
  tiles : dock.row.tiles = []
  dots : dock.pool.dots = []
  badges : dock.pool.badges = []
  cadence : dock.cadence.Resting
  previewLeft : dock.previewLeft = previewLeft
  tileCount : dock.tileCount = 0
  layersShown : dock.layersShown = false

/-- A new dock, on which a preview has been asked for or not. -/
def afresh (asked : Bool) (timers : τ) : Dock α τ :=
  { new timers with previewLeft := if asked then some previewPeriod else none }

/-- A blank dock is akin to a new one with numbers ahead. -/
theorem Blank.akin {dock : Dock α τ} {asked : Bool}
    (h : dock.Blank (if asked then some previewPeriod else none)) :
    Akin ((afresh asked dock.cadence.timers).renumber ⟨dock.row.created, dock.pool.created⟩)
      dock := by
  obtain ⟨enabled, ⟨tiles, tilesCreated⟩, ⟨dots, badges, markersCreated⟩,
    ⟨timers, phase, interval, tick, quiet, resume, layouts, queued⟩, left, count, shown⟩ := dock
  obtain ⟨rfl, rfl, rfl, rfl, ⟨rfl, rfl, rfl, rfl, rfl⟩, rfl, rfl, rfl⟩ := h
  unfold afresh renumber Row.renumber Marker.Pool.renumber
  simp only [new, Row.empty, Marker.Pool.empty, List.map_nil, Nat.zero_add]
  exact ⟨_, interval, layouts, nofun, nofun⟩

section Left

variable [TimerService τ] {dock dock' : Dock α τ}

/-- A dock is blank once it is disabled. -/
theorem blank_disable (h : dock.enabled = true) : dock.disable.1.Blank none := by
  unfold disable
  rw [if_pos h, withdraw_fst]
  exact ⟨rfl, rfl, rfl, rfl, Cadence.resting_reset _, rfl, rfl, rfl⟩

variable [Scalar α] {host : Host α} {event : Event} {commands : List (Command α)}

/-- What a preview that has been asked for, or not, comes to with an event. -/
def previewAfter (asked : Bool) : Event → Bool
  | .preview on => on
  | _ => asked

omit [TimerService τ] [Scalar α] in
/-- Whatever timers it is given, a blank dock stays blank. -/
theorem Blank.withTimers {previewLeft : Option Nat} (h : dock.Blank previewLeft) (timers : τ) :
    (dock.withTimers timers).Blank previewLeft :=
  ⟨h.enabled, h.tiles, h.dots, h.badges, h.cadence.withTimers timers, h.previewLeft, h.tileCount,
    h.layersShown⟩

omit [TimerService τ] [Scalar α] in
/-- While a dock is blank, its cadence and its preview may change. -/
theorem Blank.of_cadence {before previewLeft : Option Nat} {cadence : Cadence τ}
    (h : dock.Blank before) (resting : cadence.Resting) :
    { dock with cadence, previewLeft }.Blank previewLeft :=
  ⟨h.enabled, h.tiles, h.dots, h.badges, resting, rfl, h.tileCount, h.layersShown⟩

/-- A blank dock that is not enabled stays blank, and notes a preview. -/
theorem Blank.handle {asked : Bool} (h : dock.Blank (if asked then some previewPeriod else none))
    (step : dock.handle host event = .ok (dock', commands)) (disabled : dock'.enabled = false) :
    dock'.Blank (if previewAfter asked event then some previewPeriod else none) := by
  have hoff : ¬ dock.enabled = true := by
    rw [h.enabled]
    decide
  have hwake : ∀ {woken : Dock α τ} {settings : Settings α} {cadence : Cadence τ}
      {previewLeft : Option Nat}, wake { dock with cadence, previewLeft } settings = .ok woken →
        woken = { dock with cadence, previewLeft } := by
    intro woken settings cadence previewLeft hwoken
    obtain ⟨-, rfl⟩ | ⟨hon, -⟩ := wake_cases hwoken
    · rfl
    · exact absurd hon hoff
  -- what is done only while the dock is enabled is not done at all
  have hinert : ∀ {result : Dock α τ × List (Command α)},
      (.ok result : Except Fault _) = .ok (dock', commands) → result = (dock, []) →
        dock' = dock := by
    rintro result hresult rfl
    exact (Prod.mk.inj (Except.ok.inj hresult)).1.symm
  cases event with
  | enable =>
      obtain ⟨rfl, -⟩ := Prod.mk.inj (Except.ok.inj step)
      unfold Dock.enable at disabled ⊢
      split at disabled
      · rename_i hstays
        rw [if_pos hstays]
        exact h
      · exact nomatch disabled
  | disable | fullscreenChanged | dragBegin | dragEnd =>
      obtain rfl := hinert step (if_neg hoff)
      exact h
  | pointerEnter | pointerMotion =>
      obtain ⟨hwoken, -⟩ := ok_of_silent step
      rw [hwake hwoken]
      exact h
  | pointerLeave =>
      obtain ⟨rfl, -⟩ := Prod.mk.inj (Except.ok.inj step)
      exact h.previewLeft ▸ h.of_cadence h.cadence.rearm
  | focusChanged =>
      obtain ⟨hfocus, -⟩ := ok_of_silent step
      rw [Dock.focusChanged, if_neg hoff] at hfocus
      obtain rfl := Except.ok.inj hfocus
      exact h
  | preview on =>
      obtain ⟨hpreview, -⟩ := ok_of_silent step
      cases on with
      | true =>
          have hwoken : wake { dock with previewLeft := some previewPeriod } host.settings
              = .ok dock' := hpreview
          rw [hwake hwoken]
          exact h.of_cadence h.cadence
      | false =>
          obtain rfl := Except.ok.inj hpreview
          exact h.of_cadence h.cadence
  | relayout =>
      obtain ⟨hrelayout, -⟩ := ok_of_silent step
      have hwoken : wake { dock with cadence := dock.cadence.orderLayouts Cadence.longLayout }
          host.settings = .ok dock' := hrelayout
      rw [hwake hwoken]
      exact h.previewLeft ▸ h.of_cadence (h.cadence.orderLayouts _)
  | alarm alarm =>
      cases alarm with
      | tick =>
          obtain ⟨animated, htick⟩ := tick_of_handle step
          rw [tick_eq, if_neg hoff] at htick
          obtain ⟨rfl, -⟩ := Prod.mk.inj (Except.ok.inj htick)
          exact h
      | quiet =>
          obtain ⟨rfl, -⟩ := Prod.mk.inj (Except.ok.inj step)
          exact h.previewLeft ▸ h.of_cadence h.cadence.quietPassed
      | resume =>
          obtain ⟨hresume, -⟩ := resume_of_handle step
          have hrests := h.cadence.resume
          rw [Cadence.resume_of_ne h.cadence.ne_suspended] at hrests
          rw [Dock.resume, Cadence.resume_of_ne h.cadence.ne_suspended] at hresume
          obtain rfl := Except.ok.inj hresume
          exact h.previewLeft ▸ h.of_cadence hrests

/-- Whether a preview has been asked for since the dock was last enabled, and not taken back. -/
def previewAsked : List (Moment α τ) → Bool
  | [] => false
  | moment :: past => !moment.dock.enabled && previewAfter (previewAsked past) moment.event

/-- Nothing else is left of what a disabled dock has done. -/
theorem Lived.blank [LawfulTimerService τ] {past : List (Moment α τ)} (h : Lived dock past)
    (disabled : dock.enabled = false) :
    dock.Blank (if previewAsked past then some previewPeriod else none) := by
  induction h with
  | new timers proper nothing =>
      exact ⟨rfl, rfl, rfl, rfl, ⟨rfl, rfl, rfl, rfl, rfl⟩, rfl, rfl, rfl⟩
  | @event dock dock' past commands host event before step ih =>
      show dock'.Blank (if !dock.enabled && previewAfter (previewAsked past) event then _ else _)
      cases henabled : dock.enabled with
      | true =>
          rw [(handle_effect step).disabled henabled disabled]
          exact blank_disable henabled
      | false => exact (ih henabled).handle step disabled
  | fire before fires ih => exact (ih disabled).withTimers _
  | drift before drifts ih => exact (ih disabled).withTimers _

end Left

/-! ## Starting over -/

/-- The same run with the numbers moved on. -/
structure Echoes (ahead : Offset) (step step' : Dock α τ × List (Command α)) : Prop where
  commands : step'.2 = step.2.map (Command.renumber ahead)
  enabled : step'.1.enabled = step.1.enabled
  phase : step'.1.cadence.phase = step.1.cadence.phase
  /-- The service has been asked for the same. -/
  timers : step'.1.cadence.timers = step.1.cadence.timers
  held : step'.1.cadence.held = step.1.cadence.held

/-- Docks that are akin do the same, but for numbers. -/
theorem AkinStep.echoes {ahead : Offset} {step step' : Dock α τ × List (Command α)}
    (h : AkinStep (renumberStep ahead step) step') : Echoes ahead step step' := by
  obtain ⟨dock, commands⟩ := step
  obtain ⟨dock', commands'⟩ := step'
  obtain ⟨⟨_, ⟨⟩⟩, hcommands⟩ := h
  exact ⟨hcommands, rfl, rfl, rfl, rfl⟩

variable [Scalar α] [TimerService τ] [LawfulTimerService τ] {dock : Dock α τ}
variable {past : List (Moment α τ)}

/-- **A DISABLED DOCK STARTS OVER.**  Whatever comes next, it does the same as a new dock, but for
    the numbers of tiles and markers that have been created before, and for a preview that was asked
    for while it was disabled. -/
theorem Lived.startsOver (h : Lived dock past) (disabled : dock.enabled = false)
    (inputs : List (Input α τ)) (playable : dock.Playable inputs) :
    Agree (Echoes ⟨dock.row.created, dock.pool.created⟩)
      ((afresh (previewAsked past) dock.cadence.timers).replay inputs) (dock.replay inputs) := by
  have hagree := h.replay_akin (h.blank disabled).akin playable
  rw [replay_renumber] at hagree
  exact hagree.of_map AkinStep.echoes

/-- A favorite of a standard dock. -/
private def hostOfOne : Host Float where
  settings := .standard
  geometry := .standard
  icons := [Icon.favorite 1 ⟨0.0, 0.0⟩]

/-- A clock on which a quiet period of a running cadence is pending, and a tick. -/
private def runningClock (time next ends : Nat) : Clock :=
  ⟨milliseconds time, 4, [⟨2, .tick, milliseconds next, some (milliseconds 15)⟩,
    ⟨3, .quiet, milliseconds ends, none⟩], false⟩

set_option maxRecDepth 4096 in
/-- A preview that is asked for while the dock is disabled.  The first tick after that animates the
    middle tile and asks for another quiet period, and so it does on a new dock with the preview,
    but not on one without. -/
theorem startsOver_with_preview : ∃ (dock : Dock Float Clock) (past : List (Moment Float Clock))
    (inputs : List (Input Float Clock)),
    Lived dock past ∧ dock.enabled = false ∧ previewAsked past = true ∧ dock.Playable inputs ∧
    inputs.map Input.event = [.enable, .pointerEnter, .alarm .tick] ∧
    Agree (Echoes ⟨1, 1⟩) ((afresh true dock.cadence.timers).replay inputs) (dock.replay inputs) ∧
    ∀ ahead,
      ¬ Agree (Echoes ahead) ((new dock.cadence.timers).replay inputs) (dock.replay inputs) := by
  have hnew : Lived (new Clock.start : Dock Float Clock) [] :=
    .new _ Clock.start_proper fun _ => rfl
  have hdrawn := ((hnew.event hostOfOne .enable rfl).event hostOfOne .pointerEnter rfl).event
    hostOfOne (.alarm .tick) rfl
  have hasked := (hdrawn.event hostOfOne .disable rfl).event hostOfOne (.preview true) rfl
  have henabled := hasked.event hostOfOne .enable rfl
  have hentered := henabled.event hostOfOne .pointerEnter rfl
  have hpop : (runningClock 0 15 765).popDue (milliseconds 15) =
      some (.tick, runningClock 15 30 765) := rfl
  obtain ⟨handle, engagement, halarm, fires⟩ := Clock.fires_of_popDue hentered.ticking.proper hpop
  have hplayable : Dock.Playable _ [⟨_, hostOfOne, .enable⟩, ⟨_, hostOfOne, .pointerEnter⟩,
      ⟨_, hostOfOne, .alarm .tick⟩] :=
    .cons (.event nofun ⟨hasked.ticking.proper, rfl⟩) rfl
      (.cons (.event nofun ⟨henabled.ticking.proper, rfl⟩) rfl
        (.cons (.fire fires (congrArg Event.alarm halarm.symm)) rfl trivial))
  refine ⟨_, _, _, hasked, rfl, rfl, hplayable, rfl, hasked.startsOver rfl _ hplayable, ?_⟩
  intro ahead hsame
  -- the new dock has kept the quiet period of its start
  obtain ⟨step, hstep, hechoes⟩ := hsame.exists_of_ok rfl
  have hother : step.1.cadence.held .quiet = some 3 := congrFun hechoes.held .quiet
  obtain rfl := Except.ok.inj (hstep.symm.trans rfl)
  exact nomatch hother

end Dock

end FisheyeDock
