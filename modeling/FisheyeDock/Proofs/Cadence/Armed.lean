import FisheyeDock.Proofs.Cadence.Sound
import FisheyeDock.Proofs.Timer.Logbook

/-! # What a running cadence is armed with

    A cadence that runs has a tick, which repeats at the interval of its start (`Backed`).  It has
    also asked for the end of a quiet period, and holds what it was answered (`Armed`): a timer, or
    nothing where the request was refused.  It goes on running then.

    Between a start and the request for a quiet period that follows it a cadence is `Backed` only, so
    that a start is never the last of what is done to it (`Backed.rearm`). -/

namespace FisheyeDock.Cadence

open TimerService

variable {τ : Type} [TimerService τ] [LawfulTimerService τ]
variable {c c' : Cadence (Logbook τ)} {pace pace' : Option Nat} {log : Logbook τ}

/-- A cadence holds no handle without a timer, and while it runs its tick repeats at a given pace. -/
structure Backed (pace : Option Nat) (c : Cadence (Logbook τ)) : Prop where
  backs : Backs c.timers c.held
  pace_eq : c.phase = .running → pace = some c.interval
  tick : c.phase = .running → ∃ handle, c.tickTimer = some handle ∧
    c.timers.latest? .tick = some ⟨.tick, c.interval, some handle⟩

/-- While it runs, it holds what the latest request for a quiet period has come to. -/
structure Armed (pace : Option Nat) (c : Cadence (Logbook τ)) : Prop where
  backed : c.Backed pace
  quiet : c.phase = .running → (c.timers.latest? .quiet).map Request.answer = some c.quietTimer

/-- A cadence that does not run only has to hold no handle without a timer. -/
theorem armed_of_ne (backs : Backs c.timers c.held) (h : c.phase ≠ .running) : c.Armed pace where
  backed := ⟨backs, fun running => absurd running h, fun running => absurd running h⟩
  quiet running := absurd running h

theorem armed_idle (proper : Proper log) : (idle log).Armed pace := by
  have hnothing : (idle log).held = fun _ => none := holding_none
  refine armed_of_ne ?_ (show Phase.idle ≠ .running by decide)
  rw [hnothing]
  exact .of_nothing_held proper

namespace Backed

/-- Nothing has been asked for, and the cadence runs only if it ran before. -/
theorem of_requests_eq (h : c.Backed pace) (backs : Backs c'.timers c'.held)
    (requests : c'.timers.requests = c.timers.requests) (tick : c'.tickTimer = c.tickTimer)
    (interval : c'.interval = c.interval) (phase : c'.phase = .running → c.phase = .running) :
    c'.Backed pace where
  backs := backs
  pace_eq running := interval ▸ h.pace_eq (phase running)
  tick running := by
    obtain ⟨handle, hheld, hlatest⟩ := h.tick (phase running)
    refine ⟨handle, tick.trans hheld, ?_⟩
    rw [Logbook.latest?_congr requests, interval]
    exact hlatest

/-- A cadence at rest starts at the interval of the setting, any other one goes on as it does. -/
theorem start {α : Type} [Scalar α] {fps : α} (h : c.Backed pace) (hstart : c.start fps = .ok c') :
    c'.Backed (if c.phase = .idle then (intervalFor fps).toOption else pace) := by
  obtain ⟨hbusy, rfl⟩ | ⟨hidle, interval, handle, timers, hinterval, hask, rfl⟩ |
    ⟨hidle, interval, timers, -, hask, rfl⟩ := start_cases hstart
  · rw [if_neg hbusy]
    exact h
  · rw [if_pos hidle, hinterval]
    have law := LawfulTimerService.scheduleRepeating_law c.timers interval .tick h.backs.proper
    rw [hask] at law
    have hbacks := h.backs.ask (a := .tick) law
    rw [held, update_holding_tick] at hbacks
    have hrequests := Logbook.requests_of_repeating hask
    exact ⟨hbacks, fun _ => rfl, fun _ => ⟨handle, rfl, Logbook.latest?_of_cons hrequests⟩⟩
  · -- refused, so that the cadence stays at rest
    have law := LawfulTimerService.scheduleRepeating_law c.timers interval .tick h.backs.proper
    rw [hask] at law
    have hresting : c.phase ≠ .running := by
      rw [hidle]
      decide
    exact (armed_of_ne (c := { c with timers }) (h.backs.of_pending_eq law.1 law.2) hresting).backed

/-- A request for a quiet period: what it comes to is held. -/
theorem rearm (h : c.Backed pace) : c.rearm.Armed pace := by
  unfold Cadence.rearm
  by_cases hrun : c.phase = .running
  · rw [if_pos hrun]
    have hfree := h.backs.cancelAny .quiet
    rw [held, update_holding_quiet] at hfree
    rcases hask : scheduleOnce (cancelAny c.timers c.quietTimer) (quietPeriod + c.interval) .quiet
      with ⟨answer, timers⟩
    have law := LawfulTimerService.scheduleOnce_law (cancelAny c.timers c.quietTimer)
      (quietPeriod + c.interval) .quiet hfree.proper
    rw [hask] at law
    have hbacks := hfree.ask (a := .quiet) law
    rw [update_holding_quiet] at hbacks
    have hrequests := Logbook.requests_of_once hask
    refine ⟨⟨hbacks, h.pace_eq, fun _ => ?_⟩, fun _ => ?_⟩
    · -- nothing has been asked for a tick
      obtain ⟨handle, hheld, hlatest⟩ := h.tick hrun
      have hkept : timers.latest? .tick = c.timers.latest? .tick :=
        (Logbook.latest?_of_ne hrequests (show Alarm.quiet ≠ .tick by decide)).trans
          (Logbook.latest?_congr (Logbook.requests_cancelAny _ _) _)
      exact ⟨handle, hheld, hkept.trans hlatest⟩
    · exact congrArg (Option.map Request.answer) (Logbook.latest?_of_cons hrequests)
  · rw [if_neg hrun]
    exact ⟨h, fun running => absurd running hrun⟩

end Backed

/-! ## Ways out of running -/

section Backs

variable (h : Backs c.timers c.held)

include h

/-- Halting forgets the tick and the quiet period, whose timers it has cancelled. -/
theorem backs_halt : Backs c.halt.timers c.halt.held := by
  have hcancelled := (h.cancelAny .tick).cancelAny .quiet
  rw [held, update_holding_tick, update_holding_quiet] at hcancelled
  exact hcancelled

theorem armed_halt : c.halt.Armed pace := armed_of_ne (backs_halt h) c.phase_halt_ne_running

/-- A suspended cadence need not be armed with anything, as long as it holds no handle without a
    timer. -/
theorem armed_suspend : c.suspend.Armed pace :=
  armed_of_ne (backs_halt h) (show Phase.suspended ≠ .running by decide)

theorem backs_cancelResume :
    Backs (cancelAny c.timers c.resumeTimer) (holding c.tickTimer c.quietTimer none) := by
  have hcancelled := h.cancelAny .resume
  rwa [held, update_holding_resume] at hcancelled

/-- After a reset no timer is held at all. -/
theorem armed_reset : c.reset.Armed pace :=
  armed_of_ne (backs_cancelResume (backs_halt h)) (show Phase.idle ≠ .running by decide)

end Backs

/-- The end of a quiet period, whose handle is forgotten. -/
theorem armed_quietPassed (h : Backs c.timers (Function.update c.held .quiet none)) :
    c.quietPassed.Armed pace := by
  rw [held, update_holding_quiet] at h
  exact armed_halt (c := { c with quietTimer := none }) h

/-! ## What else is done to a cadence -/

namespace Armed

/-- Nothing has been asked for, and the cadence runs only if it ran before. -/
theorem of_requests_eq (h : c.Armed pace) (backs : Backs c'.timers c'.held)
    (requests : c'.timers.requests = c.timers.requests) (tick : c'.tickTimer = c.tickTimer)
    (quiet : c'.quietTimer = c.quietTimer) (interval : c'.interval = c.interval)
    (phase : c'.phase = .running → c.phase = .running) : c'.Armed pace where
  backed := h.backed.of_requests_eq backs requests tick interval phase
  quiet running := by
    rw [Logbook.latest?_congr requests, quiet]
    exact h.quiet (phase running)

theorem orderLayouts (h : c.Armed pace) (ticks : Nat) : (c.orderLayouts ticks).Armed pace :=
  h.of_requests_eq h.backed.backs rfl rfl rfl rfl id

theorem takeLayout (h : c.Armed pace) : c.takeLayout.2.Armed pace := by
  unfold Cadence.takeLayout
  split
  · exact h
  · exact h.orderLayouts _

/-- A drag takes back the resume, and suspends a cadence at rest; a running one goes on, armed as it
    is. -/
theorem beginDrag (h : c.Armed pace) : c.beginDrag.Armed pace := by
  have hbacks := backs_cancelResume h.backed.backs
  unfold Cadence.beginDrag
  cases hphase : c.phase with
  | running =>
      exact h.of_requests_eq hbacks (Logbook.requests_cancelAny _ _) rfl rfl rfl
        fun _ => hphase
  | idle => exact armed_suspend hbacks
  | suspended =>
      exact armed_of_ne hbacks (show Phase.suspended ≠ .running by decide)

/-- The end of a pause, whose handle is forgotten. -/
theorem resume (h : c.Armed pace) (requests : log.requests = c.timers.requests)
    (backs : Backs log (Function.update c.held .resume none)) :
    (c.withTimers log).resume.2.Armed pace := by
  rw [held, update_holding_resume] at backs
  by_cases hsuspended : c.phase = .suspended
  · rw [resume_of_suspended (c := c.withTimers log) hsuspended]
    exact armed_of_ne backs (show Phase.idle ≠ .running by decide)
  · rw [resume_of_ne (c := c.withTimers log) hsuspended]
    exact h.of_requests_eq backs requests rfl rfl rfl id

/-- The end of a drag asks for the resume only, and not while the cadence runs. -/
theorem endDrag (h : c.Armed pace) : c.endDrag.Armed pace := by
  have hqueued : (if c.dragQueued then c.suspend else c).Armed pace := by
    split
    · exact armed_suspend h.backed.backs
    · exact h
  unfold Cadence.endDrag
  generalize (if c.dragQueued then c.suspend else c) = c at hqueued
  by_cases hsuspended : c.phase = .suspended
  · rw [if_pos hsuspended]
    have hfree := backs_cancelResume hqueued.backed.backs
    have law := LawfulTimerService.scheduleOnce_law (cancelAny c.timers c.resumeTimer)
      resumeDelay .resume hfree.proper
    rcases hask : scheduleOnce (cancelAny c.timers c.resumeTimer) resumeDelay .resume with
      ⟨_ | handle, timers⟩
    · -- refused, so that the suspension ends at once
      rw [hask] at law
      have hbacks := hfree.of_pending_eq law.1 law.2
      show (Cadence.resume { c with timers, resumeTimer := none }).2.Armed pace
      rw [resume_of_suspended (c := { c with timers, resumeTimer := none }) hsuspended]
      exact armed_of_ne hbacks (show Phase.idle ≠ .running by decide)
    · rw [hask] at law
      have hbacks := hfree.ask (a := .resume) law
      rw [update_holding_resume] at hbacks
      refine armed_of_ne hbacks ?_
      show c.phase ≠ .running
      rw [hsuspended]
      decide
  · rw [if_neg hsuspended]
    exact hqueued

end Armed

end FisheyeDock.Cadence
