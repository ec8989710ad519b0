import FisheyeDock.Proofs.Cadence.Ticking
import FisheyeDock.Proofs.Dock.Effect

/-! # Runs whose ticks come from the timers

    In a `Driven` run a tick reaches the dock only when a pending tick fires.  All else is
    arbitrary: the end of a quiet period or of a pause may be sent at any moment, with or without a
    timer for it, and any request for a timer may be refused.

    This is less than `Reached` asks for, and the timers of such a run need not be in order.  Its
    ticks are (`Driven.ticking`), so that a dock draws only while its cadence runs.

    The run carries its history, a `Moment` for each event.  What only a caller knows, such as
    whether a window fills the screen, is read off the history. -/

namespace FisheyeDock.Dock

open Scene (Command)
open TimerService

variable {α τ : Type} [Scalar α] [TimerService τ] [LawfulTimerService τ]
variable {dock dock' : Dock α τ} {host : Host α} {event : Event} {commands : List (Command α)}

/-! ## The ticks stay in order -/

/-- After a call every pending tick is held. -/
theorem Answer.ticking (h : Answer dock event dock') (ticking : dock.cadence.Ticking) :
    dock'.cadence.Ticking := by
  cases h with
  | counts ticks cadence_eq =>
      rw [cadence_eq]
      exact ticking.orderLayouts ticks
  | rearms cadence_eq =>
      rw [cadence_eq]
      exact ticking.rearm
  | wakes ticks start cadence_eq =>
      rw [cadence_eq]
      exact ((ticking.orderLayouts ticks).start start).rearm
  | restarts start ticks cadence_eq =>
      rw [cadence_eq]
      exact (ticking.halt.start start).rearm.orderLayouts ticks
  | resets disabled cadence_eq =>
      rw [cadence_eq]
      exact ticking.reset
  | beginsDrag cadence_eq =>
      rw [cadence_eq]
      exact ticking.beginDrag
  | endsDrag event_eq cadence_eq =>
      rw [cadence_eq]
      exact ticking.endDrag

omit [Scalar α] in
/-- After the dock is disabled no tick is pending. -/
theorem ticking_disable (ticking : dock.cadence.Ticking) : dock.disable.1.cadence.Ticking := by
  unfold disable
  split
  · rw [cadence_withdraw]
    exact ticking.reset
  · exact ticking

/-- An update leaves the ticks alone. -/
theorem ticking_updated (ticking : dock.cadence.Ticking) :
    (dock.updated host).cadence.Ticking := by
  show Cadence.Ticking (if _ then _ else _ : Cadence τ)
  split
  · exact ticking.takeLayout
  · exact ticking.takeLayout.orderLayouts _

/-- A tick makes no other tick. -/
theorem ticking_tick {animated : Bool} (ticking : dock.cadence.Ticking)
    (h : dock.tick host = .ok (dock', commands, animated)) : dock'.cadence.Ticking := by
  obtain ⟨-, rfl, -⟩ | ⟨-, -, heq⟩ | ⟨-, -, -, heq⟩ | ⟨-, -, -, shown, hanimate, -⟩ := tick_cases h
  · exact ticking
  · rw [show dock' = _ from congrArg Prod.fst heq, cadence_withdraw]
    exact ticking.suspend
  · rw [show dock' = _ from congrArg Prod.fst heq]
    exact ticking_disable ticking
  · obtain ⟨_, _, _, _, _, _, _, rfl⟩ := animate_cases hanimate
    have hupdated : (dock.updated host).cadence.Ticking := ticking_updated ticking
    show Cadence.Ticking (if _ then _ else _ : Cadence τ)
    split
    · exact hupdated.rearm
    · exact hupdated

/-- A resume makes the tick of a start, which is held. -/
theorem ticking_resume {settings : Settings α} (ticking : dock.cadence.Ticking)
    (h : dock.resume settings = .ok dock') : dock'.cadence.Ticking := by
  have hresumed := ticking.resume
  unfold resume at h
  rcases hresume : dock.cadence.resume with ⟨_ | _, cadence⟩
  · rw [hresume] at h hresumed
    obtain rfl := Except.ok.inj h
    exact hresumed
  · rw [hresume] at h hresumed
    obtain ⟨-, rfl⟩ | ⟨-, started, hstart, rfl⟩ := wake_cases h
    · exact hresumed.orderLayouts _
    · exact ((hresumed.orderLayouts _).start hstart).rearm

/-- Whatever happens to a dock, whose ticks are in order, leaves them in order. -/
theorem ticking_handle (ticking : dock.cadence.Ticking)
    (h : dock.handle host event = .ok (dock', commands)) : dock'.cadence.Ticking := by
  by_cases hcall : ∀ alarm, event ≠ .alarm alarm
  · exact (called hcall h).answer.ticking ticking
  · push Not at hcall
    obtain ⟨alarm, rfl⟩ := hcall
    cases alarm with
    | tick =>
        obtain ⟨animated, htick⟩ := tick_of_handle h
        exact ticking_tick ticking htick
    | quiet =>
        obtain ⟨rfl, -⟩ := Prod.mk.inj (Except.ok.inj h)
        exact ticking.quietPassed
    | resume =>
        obtain ⟨hresume, -⟩ := resume_of_handle h
        exact ticking_resume ticking hresume

/-! ## Runs -/

/-- One event as it reaches a dock. -/
structure Moment (α τ : Type) where
  /-- The dock that it reaches. -/
  dock : Dock α τ
  host : Host α
  event : Event

/-- The docks that a run leads to whose ticks come from the timers, with what has happened, the
    latest first, and the commands on the way. -/
inductive Driven : Dock α τ → List (Moment α τ) → List (Command α) → Prop where
  | new (timers : τ) (proper : Proper timers) (nothing : ∀ handle, pending timers handle = none) :
      Driven (new timers) [] []
  | event {dock dock' : Dock α τ} {past : List (Moment α τ)} {trace commands : List (Command α)}
      (host : Host α) (event : Event) (before : Driven dock past trace)
      (noTick : event ≠ .alarm .tick) (step : dock.handle host event = .ok (dock', commands)) :
      Driven dock' (⟨dock, host, event⟩ :: past) (trace ++ commands)
  /-- A pending timer fires. -/
  | fire {dock dock' : Dock α τ} {past : List (Moment α τ)} {trace commands : List (Command α)}
      {handle : TimerHandle} {engagement : Engagement} {timers : τ} (host : Host α)
      (before : Driven dock past trace)
      (fires : Fires dock.cadence.timers handle engagement timers)
      (step : (dock.withTimers timers).handle host (.alarm engagement.alarm)
        = .ok (dock', commands)) :
      Driven dock' (⟨dock.withTimers timers, host, .alarm engagement.alarm⟩ :: past)
        (trace ++ commands)
  | drift {dock : Dock α τ} {past : List (Moment α τ)} {trace : List (Command α)} {timers : τ}
      (before : Driven dock past trace) (drifts : Drifts dock.cadence.timers timers) :
      Driven (dock.withTimers timers) past trace

variable {past : List (Moment α τ)} {trace : List (Command α)}

/-- At any moment of such a run the ticks are in order. -/
theorem Driven.ticking (h : Driven dock past trace) : dock.cadence.Ticking := by
  induction h with
  | new timers proper nothing => exact Cadence.ticking_idle proper nothing
  | event host event before noTick step ih => exact ticking_handle ih step
  | @fire dock _ _ _ _ _ _ timers host before fires step ih =>
      have hfired : (dock.withTimers timers).cadence.Ticking := ih.withTimers (.of_fires fires)
      exact ticking_handle hfired step
  | drift before drifts ih => exact ih.withTimers (.of_drifts drifts)

/-- The history aside, such a run is a run. -/
theorem Driven.ran (h : Driven dock past trace) : Ran dock trace := by
  induction h with
  | new timers proper nothing => exact .new timers
  | event host event before noTick step ih => exact ih.event host event step
  | fire host before fires step ih => exact (Ran.drift _ ih).event host _ step
  | drift before drifts ih => exact .drift _ ih

/-- A clock fires its next alarm. -/
theorem Driven.popDue {dock dock' : Dock α Clock} {past : List (Moment α Clock)}
    (h : Driven dock past trace) (host : Host α) (time : Nat) {alarm : Alarm} {clock : Clock}
    (hpop : dock.cadence.timers.popDue time = some (alarm, clock))
    (step : (dock.withTimers clock).handle host (.alarm alarm) = .ok (dock', commands)) :
    Driven dock' (⟨dock.withTimers clock, host, .alarm alarm⟩ :: past) (trace ++ commands) := by
  obtain ⟨handle, engagement, rfl, fires⟩ := Clock.fires_of_popDue h.ticking.proper hpop
  exact h.fire host fires step

/-! ## What holds in a run -/

/-- A tick that fires finds the cadence running. -/
theorem Driven.running_of_fires (h : Driven dock past trace) {handle : TimerHandle}
    {engagement : Engagement} {timers : τ}
    (fires : Fires dock.cadence.timers handle engagement timers)
    (halarm : engagement.alarm = .tick) : dock.cadence.phase = .running := by
  obtain ⟨_, repeats⟩ := engagement
  obtain rfl := halarm
  exact h.ticking.running_of_pending fires.engaged

/-- What every event keeps holds in every run whose ticks come from the timers, if it is
    indifferent to what the service does in between.  A tick may be taken to find the cadence
    running. -/
theorem Driven.holds {P : Dock α τ → List (Moment α τ) → List (Command α) → Prop}
    (fresh : ∀ timers, P (Dock.new timers) [] [])
    (withTimers : ∀ {dock past trace} (timers : τ), P dock past trace →
      P (dock.withTimers timers) past trace)
    (step : ∀ {dock dock' past trace host event commands}, P dock past trace →
      (event = .alarm .tick → dock.cadence.phase = .running) →
      dock.handle host event = .ok (dock', commands) →
      P dock' (⟨dock, host, event⟩ :: past) (trace ++ commands))
    (h : Driven dock past trace) : P dock past trace := by
  induction h with
  | new timers proper nothing => exact fresh timers
  | event host event before noTick handled ih =>
      exact step ih (fun htick => absurd htick noTick) handled
  | fire host before fires handled ih =>
      exact step (withTimers _ ih)
        (fun htick => before.running_of_fires fires (Event.alarm.inj htick)) handled
  | drift before drifts ih => exact withTimers _ ih

end FisheyeDock.Dock
