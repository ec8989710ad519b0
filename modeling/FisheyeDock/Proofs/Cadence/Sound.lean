import FisheyeDock.Cadence.Basic
import FisheyeDock.Proofs.Timer.Lawful

/-! # The timers of a cadence

    A cadence holds one handle for each alarm, and cancels, takes and forgets handles in a dozen
    operations.  `Sound` says what it owes at all times: the handles it holds are exactly the
    pending timers, it ticks exactly while it runs, it waits for a quiet period only while it runs,
    and for the end of a pause only while it is suspended.

    Every operation keeps a cadence sound, whatever the service answers.  When a timer fires, the
    service has spent it already and the cadence still holds its handle; `quietPassed` and `resume`
    start from there. -/

namespace FisheyeDock

namespace Cadence

open TimerService

/-! ## The handles of a cadence -/

/-- One handle for each alarm. -/
def holding (tick quiet resume : Option TimerHandle) : Alarm → Option TimerHandle
  | .tick => tick
  | .quiet => quiet
  | .resume => resume

section Holding

variable (tick quiet resume handle : Option TimerHandle)

/-- A new tick is held in place of the old one, next to the same debounce and resume. -/
theorem update_holding_tick : Function.update (holding tick quiet resume) .tick handle
    = holding handle quiet resume := by
  funext a
  cases a <;> rfl

theorem update_holding_quiet : Function.update (holding tick quiet resume) .quiet handle
    = holding tick handle resume := by
  funext a
  cases a <;> rfl

theorem update_holding_resume : Function.update (holding tick quiet resume) .resume handle
    = holding tick quiet handle := by
  funext a
  cases a <;> rfl

theorem holding_none : holding none none none = fun _ => none := by
  funext a
  cases a <;> rfl

end Holding

variable {τ : Type}

/-- The handle that a cadence holds for an alarm. -/
def held (c : Cadence τ) : Alarm → Option TimerHandle :=
  holding c.tickTimer c.quietTimer c.resumeTimer

/-- A cadence whose service has moved on, but which still has all its handles. -/
def withTimers (c : Cadence τ) (timers : τ) : Cadence τ := { c with timers }

variable [TimerService τ]

/-- A start does nothing outside of rest; at rest it gets a timer and runs, or gets none. -/
theorem start_cases {α : Type} [Scalar α] {c c' : Cadence τ} {fps : α}
    (h : c.start fps = .ok c') :
    (c.phase ≠ .idle ∧ c' = c) ∨
    (c.phase = .idle ∧ ∃ interval handle timers, intervalFor fps = .ok interval ∧
      scheduleRepeating c.timers interval .tick = (some handle, timers) ∧
      c' = { c with timers, interval, tickTimer := some handle, phase := .running }) ∨
    (c.phase = .idle ∧ ∃ interval timers, intervalFor fps = .ok interval ∧
      scheduleRepeating c.timers interval .tick = (none, timers) ∧ c' = { c with timers }) := by
  unfold start at h
  by_cases hidle : c.phase = .idle
  · rw [if_pos hidle, bind_eq_ok_iff] at h
    obtain ⟨interval, hinterval, h⟩ := h
    rcases hask : scheduleRepeating c.timers interval .tick with ⟨_ | handle, timers⟩
    · rw [hask] at h
      exact .inr (.inr ⟨hidle, interval, timers, hinterval, hask, (Except.ok.inj h).symm⟩)
    · rw [hask] at h
      exact .inr (.inl ⟨hidle, interval, handle, timers, hinterval, hask,
        (Except.ok.inj h).symm⟩)
  · rw [if_neg hidle] at h
    exact .inl ⟨hidle, (Except.ok.inj h).symm⟩

/-- What is halted does not run, whatever it did before. -/
theorem phase_halt_ne_running (c : Cadence τ) : c.halt.phase ≠ .running := by
  show (if c.phase = .running then Phase.idle else c.phase) ≠ .running
  by_cases hrun : c.phase = .running
  · rw [if_pos hrun]
    decide
  · rw [if_neg hrun]
    exact hrun

/-- Halting leaves the phase of what does not run. -/
theorem phase_halt_of_ne {c : Cadence τ} (h : c.phase ≠ .running) : c.halt.phase = c.phase :=
  if_neg h

/-- A new quiet period does not change the phase. -/
theorem phase_rearm (c : Cadence τ) : c.rearm.phase = c.phase := by
  unfold rearm
  split
  · rfl
  · rfl

omit [TimerService τ] in
/-- A resume ends a suspension. -/
theorem resume_of_suspended {c : Cadence τ} (h : c.phase = .suspended) :
    c.resume = (true, { c with resumeTimer := none, phase := .idle }) :=
  if_pos h

omit [TimerService τ] in
/-- A resume that comes late is forgotten. -/
theorem resume_of_ne {c : Cadence τ} (h : c.phase ≠ .suspended) :
    c.resume = (false, { c with resumeTimer := none }) :=
  if_neg h

variable [LawfulTimerService τ]

/-- The accounts of a cadence are in order, and it waits for nothing that its phase has no use
    for. -/
structure Sound (c : Cadence τ) : Prop where
  accounts : Accounts c.timers c.held
  tick_iff : c.tickTimer.isSome ↔ c.phase = .running
  quiet_running : c.quietTimer.isSome → c.phase = .running
  resume_suspended : c.resumeTimer.isSome → c.phase = .suspended

variable {c c' : Cadence τ}

namespace Sound

/-- Only what runs has a tick. -/
theorem tickTimer_eq_none (h : c.Sound) (hphase : c.phase ≠ .running) : c.tickTimer = none := by
  rw [← Option.not_isSome_iff_eq_none, h.tick_iff]
  exact hphase

/-- Only what runs has a quiet period. -/
theorem quietTimer_eq_none (h : c.Sound) (hphase : c.phase ≠ .running) : c.quietTimer = none := by
  rw [← Option.not_isSome_iff_eq_none]
  exact fun hquiet => hphase (h.quiet_running hquiet)

/-- Only what is suspended waits for a resume. -/
theorem resumeTimer_eq_none (h : c.Sound) (hphase : c.phase ≠ .suspended) :
    c.resumeTimer = none := by
  rw [← Option.not_isSome_iff_eq_none]
  exact fun hresume => hphase (h.resume_suspended hresume)

/-- At rest no handle is held. -/
theorem held_idle (h : c.Sound) (hphase : c.phase = .idle) : c.held = fun _ => none := by
  have htick := h.tickTimer_eq_none (by rw [hphase]; decide)
  have hquiet := h.quietTimer_eq_none (by rw [hphase]; decide)
  have hresume := h.resumeTimer_eq_none (by rw [hphase]; decide)
  rw [held, htick, hquiet, hresume, holding_none]

end Sound

/-! ## Starting and rearming -/

/-- A cadence at rest that has asked for nothing is sound. -/
theorem sound_idle {timers : τ} (proper : Proper timers)
    (h : ∀ handle, pending timers handle = none) : (idle timers).Sound where
  accounts := by
    show Accounts timers (holding none none none)
    rw [holding_none]
    exact .of_nothing_pending proper h
  tick_iff := ⟨fun h => (nomatch h), fun h => (nomatch h)⟩
  quiet_running := fun h => (nomatch h)
  resume_suspended := fun h => (nomatch h)

/-- Counting layouts concerns no timer. -/
theorem Sound.orderLayouts (h : c.Sound) (ticks : Nat) : (c.orderLayouts ticks).Sound :=
  ⟨h.accounts, h.tick_iff, h.quiet_running, h.resume_suspended⟩

/-- Counting a layout down does not touch the timers. -/
theorem Sound.takeLayout (h : c.Sound) : c.takeLayout.2.Sound := by
  unfold Cadence.takeLayout
  split
  · exact h
  · exact h.orderLayouts _

/-- A start holds the tick that it has asked for, or nothing where it was refused. -/
theorem Sound.start {α : Type} [Scalar α] {fps : α} (h : c.Sound)
    (hstart : c.start fps = .ok c') : c'.Sound := by
  rcases start_cases hstart with ⟨_, rfl⟩ | ⟨hidle, interval, handle, timers, _, hask, rfl⟩ |
    ⟨hidle, interval, timers, _, hask, rfl⟩
  · exact h
  · have law := LawfulTimerService.scheduleRepeating_law c.timers interval .tick h.accounts.proper
    rw [hask] at law
    have htick : c.held .tick = none := h.tickTimer_eq_none (by rw [hidle]; decide)
    have acc := h.accounts.ask htick law
    rw [held, update_holding_tick] at acc
    refine ⟨acc, ⟨fun _ => rfl, fun _ => rfl⟩, fun _ => rfl, ?_⟩
    -- the phase changes, so that no pause may be waited for any more
    intro hresume
    have hnone := h.resumeTimer_eq_none (by rw [hidle]; decide)
    rw [show c.resumeTimer = none from hnone] at hresume
    exact nomatch hresume
  · have law := LawfulTimerService.scheduleRepeating_law c.timers interval .tick h.accounts.proper
    rw [hask] at law
    exact ⟨h.accounts.of_pending_eq law.1 law.2, h.tick_iff, h.quiet_running, h.resume_suspended⟩

/-- A new quiet period replaces the old one, or there is none any more. -/
theorem Sound.rearm (h : c.Sound) : c.rearm.Sound := by
  unfold Cadence.rearm
  by_cases hrun : c.phase = .running
  · rw [if_pos hrun]
    -- the handle is free for a moment, between the old period and the new one
    have acc := h.accounts.cancelAny .quiet
    rw [held, update_holding_quiet] at acc
    have law := LawfulTimerService.scheduleOnce_law (cancelAny c.timers c.quietTimer)
      (quietPeriod + c.interval) .quiet acc.proper
    have acc' := acc.ask (a := .quiet) rfl law
    rw [update_holding_quiet] at acc'
    exact ⟨acc', h.tick_iff, fun _ => hrun, h.resume_suspended⟩
  · rw [if_neg hrun]
    exact h

/-! ## Halting and suspending -/

/-- A halt lets go of the ticks and of the quiet period. -/
theorem Sound.halt (h : c.Sound) : c.halt.Sound := by
  have acc := (h.accounts.cancelAny .tick).cancelAny .quiet
  rw [held, update_holding_tick, update_holding_quiet] at acc
  refine ⟨acc, ⟨fun htick => (nomatch htick), ?_⟩, fun hquiet => (nomatch hquiet), ?_⟩
  · intro hrun
    exact absurd hrun c.phase_halt_ne_running
  · intro hresume
    have hsuspended := h.resume_suspended hresume
    rw [phase_halt_of_ne (by rw [hsuspended]; decide)]
    exact hsuspended

/-- A suspension halts first.  Only the end of a pause is still waited for. -/
theorem Sound.suspend (h : c.Sound) : c.suspend.Sound :=
  ⟨h.halt.accounts, ⟨fun htick => (nomatch htick), fun hrun => (nomatch hrun)⟩,
    fun hquiet => (nomatch hquiet), fun _ => rfl⟩

/-- A drag that was queued suspends, which is sound. -/
theorem Sound.applyDrag (h : c.Sound) : c.applyDrag.2.Sound := by
  unfold Cadence.applyDrag
  split
  · exact h.suspend
  · exact h

/-- The accounts once the end of a pause is not waited for any more. -/
theorem Sound.cancelResume (h : c.Sound) :
    { c with timers := cancelAny c.timers c.resumeTimer, resumeTimer := none }.Sound := by
  have acc := h.accounts.cancelAny .resume
  rw [held, update_holding_resume] at acc
  exact ⟨acc, h.tick_iff, h.quiet_running, fun hresume => (nomatch hresume)⟩

theorem Sound.beginDrag (h : c.Sound) : c.beginDrag.Sound := by
  have hc := h.cancelResume
  unfold Cadence.beginDrag
  cases hphase : c.phase with
  | running =>
      rw [show c.phase = .running from hphase] at hc
      exact ⟨hc.accounts, hc.tick_iff, hc.quiet_running, hc.resume_suspended⟩
  | idle =>
      rw [show c.phase = .idle from hphase] at hc
      exact hc.suspend
  | suspended =>
      rw [show c.phase = .suspended from hphase] at hc
      exact hc

/-- Everything is let go of, and the cadence rests. -/
theorem Sound.reset (h : c.Sound) : c.reset.Sound := by
  have hc := h.halt.cancelResume
  exact ⟨hc.accounts, ⟨fun htick => (nomatch htick), fun hrun => (nomatch hrun)⟩,
    fun hquiet => (nomatch hquiet), fun hresume => (nomatch hresume)⟩

/-! ## Alarms that have fired

    The service has spent the timer, and the cadence still has its handle. -/

/-- Where the quiet period has passed and its handle is forgotten, all is in order. -/
theorem Sound.quietPassed (h : c.Sound) {timers : τ}
    (acc : Accounts timers (Function.update c.held .quiet none)) :
    (c.withTimers timers).quietPassed.Sound := by
  rw [held, update_holding_quiet] at acc
  have hc : { c with timers, quietTimer := none }.Sound :=
    ⟨acc, h.tick_iff, fun hquiet => (nomatch hquiet), h.resume_suspended⟩
  exact hc.halt

/-- A suspension without a timer for its end can end at once. -/
theorem Sound.resume_of_none (h : c.Sound) (hnone : c.resumeTimer = none) : c.resume.2.Sound := by
  have hc : { c with resumeTimer := none } = c := by
    rw [← hnone]
  unfold Cadence.resume
  rw [hc]
  by_cases hsuspended : c.phase = .suspended
  · rw [if_pos hsuspended]
    have hnot : c.phase ≠ .running := by
      rw [hsuspended]
      decide
    refine ⟨h.accounts, ⟨?_, fun hrun => (nomatch hrun)⟩, ?_, ?_⟩
    · intro htick
      exact absurd (h.tick_iff.mp htick) hnot
    · intro hquiet
      exact absurd (h.quiet_running hquiet) hnot
    · intro hresume
      rw [show c.resumeTimer = none from hnone] at hresume
      exact nomatch hresume
  · rw [if_neg hsuspended]
    exact h

/-- A resume that has fired is pending no more, and so it is right to forget it. -/
theorem Sound.resume (h : c.Sound) {timers : τ}
    (acc : Accounts timers (Function.update c.held .resume none)) :
    (c.withTimers timers).resume.2.Sound := by
  rw [held, update_holding_resume] at acc
  have hc : { c with timers, resumeTimer := none }.Sound :=
    ⟨acc, h.tick_iff, h.quiet_running, fun hresume => (nomatch hresume)⟩
  exact hc.resume_of_none rfl

/-- A pause before the end of the suspension, or none where no timer can be had. -/
theorem Sound.endDrag (h : c.Sound) : c.endDrag.Sound := by
  unfold Cadence.endDrag
  have hc : (if c.dragQueued then c.suspend else c).Sound := by
    split
    · exact h.suspend
    · exact h
  generalize (if c.dragQueued then c.suspend else c) = c at hc
  by_cases hsuspended : c.phase = .suspended
  · rw [if_pos hsuspended]
    have acc := hc.cancelResume.accounts
    have law := LawfulTimerService.scheduleOnce_law (cancelAny c.timers c.resumeTimer)
      resumeDelay .resume acc.proper
    rcases hask : scheduleOnce (cancelAny c.timers c.resumeTimer) resumeDelay .resume with
      ⟨_ | handle, timers⟩
    · -- refused, so that the suspension ends at once
      rw [hask] at law
      have hrefused : { c with timers, resumeTimer := none }.Sound :=
        ⟨acc.of_pending_eq law.1 law.2, hc.tick_iff, hc.quiet_running,
          fun hresume => (nomatch hresume)⟩
      exact hrefused.resume_of_none rfl
    · rw [hask] at law
      have acc' := acc.ask (a := .resume) rfl law
      rw [held, update_holding_resume] at acc'
      exact ⟨acc', hc.tick_iff, hc.quiet_running, fun _ => hsuspended⟩
  · rw [if_neg hsuspended]
    exact hc

end Cadence

end FisheyeDock
