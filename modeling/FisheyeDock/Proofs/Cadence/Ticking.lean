import FisheyeDock.Proofs.Cadence.Sound

/-! # Ticks and the cadence that asked for them

    A caller may send the end of a quiet period or of a pause whenever it likes, with or without a
    timer.  The cadence then forgets a handle whose timer is still pending, and its accounts are in
    order no more.  Its ticks are: every pending tick is the one that is held, and it is held only
    while the cadence runs (`Ticking`).

    All this takes is that no operation but a start adds a tick (`NoNewTick`), that a start begins
    without one, and that every way out of running cancels the one there is. -/

namespace FisheyeDock

open TimerService

section Service

variable {τ : Type} [TimerService τ] [LawfulTimerService τ] {timers timers' timers'' : τ}
variable {handle : TimerHandle}

/-- A service has come to another state without a new tick. -/
structure NoNewTick (timers timers' : τ) : Prop where
  proper : Proper timers'
  tick_before : ∀ {handle : TimerHandle} {repeats : Bool},
    pending timers' handle = some ⟨.tick, repeats⟩ → pending timers handle = some ⟨.tick, repeats⟩

namespace NoNewTick

theorem refl (proper : Proper timers) : NoNewTick timers timers := ⟨proper, id⟩

theorem trans (first : NoNewTick timers timers') (second : NoNewTick timers' timers'') :
    NoNewTick timers timers'' :=
  ⟨second.proper, fun h => first.tick_before (second.tick_before h)⟩

/-- Nothing but what is pending under one handle has changed, and that is no tick now. -/
theorem of_update {engagement : Option Engagement} (proper : Proper timers')
    (h : pending timers' = Function.update (pending timers) handle engagement)
    (other : ∀ repeats, engagement ≠ some ⟨.tick, repeats⟩) : NoNewTick timers timers' where
  proper := proper
  tick_before := by
    intro at_ repeats hpend
    rw [h] at hpend
    by_cases hsame : at_ = handle
    · subst hsame
      rw [Function.update_self] at hpend
      exact absurd hpend (other repeats)
    · rwa [Function.update_of_ne hsame] at hpend

theorem cancelAny (proper : Proper timers) (held : Option TimerHandle) :
    NoNewTick timers (cancelAny timers held) := by
  cases held with
  | none => exact refl proper
  | some handle =>
      obtain ⟨proper', hpend⟩ := LawfulTimerService.cancel_law timers handle proper
      exact of_update proper' hpend nofun

/-- A timer for anything but a tick is asked for. -/
theorem scheduleOnce (proper : Proper timers) (delay : Nat) {alarm : Alarm}
    (halarm : alarm ≠ .tick) : NoNewTick timers (scheduleOnce timers delay alarm).2 := by
  have law := LawfulTimerService.scheduleOnce_law timers delay alarm proper
  rcases hask : TimerService.scheduleOnce timers delay alarm with ⟨_ | handle, timers'⟩
  · rw [hask] at law
    exact ⟨law.1, fun hpend => law.2 ▸ hpend⟩
  · rw [hask] at law
    refine of_update law.1 law.2.2 ?_
    intro repeats heq
    exact halarm (congrArg Engagement.alarm (Option.some.inj heq))

/-- A timer that fires does not make a tick. -/
theorem of_fires {engagement : Engagement} (fires : Fires timers handle engagement timers') :
    NoNewTick timers timers' := by
  have hafter := fires.pending_after
  by_cases hrepeats : engagement.repeats = true
  · rw [if_pos hrepeats] at hafter
    exact ⟨fires.proper, fun hpend => hafter ▸ hpend⟩
  · rw [if_neg hrepeats] at hafter
    exact of_update fires.proper hafter nofun

theorem of_drifts (drifts : Drifts timers timers') : NoNewTick timers timers' :=
  ⟨drifts.proper, fun hpend => drifts.pending_eq ▸ hpend⟩

end NoNewTick

end Service

namespace Cadence

variable {τ : Type} [TimerService τ] [LawfulTimerService τ] {c c' : Cadence τ}

/-- Every pending tick is the one that is held, and it is held only while the cadence runs. -/
structure Ticking (c : Cadence τ) : Prop where
  proper : Proper c.timers
  held : ∀ {handle : TimerHandle} {repeats : Bool},
    pending c.timers handle = some ⟨.tick, repeats⟩ → c.tickTimer = some handle
  running : c.tickTimer.isSome → c.phase = .running

/-- A cadence at rest that has asked for nothing has no tick. -/
theorem ticking_idle {timers : τ} (proper : Proper timers)
    (h : ∀ handle, pending timers handle = none) : (idle timers).Ticking where
  proper := proper
  held hpend := nomatch (h _).symm.trans hpend
  running := nofun

namespace Ticking

/-- A tick is pending only while the cadence runs. -/
theorem running_of_pending (h : c.Ticking) {handle : TimerHandle} {repeats : Bool}
    (hpend : pending c.timers handle = some ⟨.tick, repeats⟩) : c.phase = .running := by
  refine h.running ?_
  rw [h.held hpend]
  rfl

/-- The cadence holds the tick it has held, and runs on if it has run. -/
theorem of_noNewTick (h : c.Ticking) (timers : NoNewTick c.timers c'.timers)
    (tick : c'.tickTimer = c.tickTimer) (phase : c.phase = .running → c'.phase = .running) :
    c'.Ticking where
  proper := timers.proper
  held hpend := tick.trans (h.held (timers.tick_before hpend))
  running hsome := phase (h.running (tick ▸ hsome))

/-- Other timers may take the place of the present ones, if no tick among them is new. -/
theorem withTimers (h : c.Ticking) {timers : τ} (noNewTick : NoNewTick c.timers timers) :
    (c.withTimers timers).Ticking :=
  h.of_noNewTick noNewTick rfl id

/-- The order of layouts has nothing to do with timers. -/
theorem orderLayouts (h : c.Ticking) (ticks : Nat) : (c.orderLayouts ticks).Ticking :=
  h.of_noNewTick (.refl h.proper) rfl id

theorem takeLayout (h : c.Ticking) : c.takeLayout.2.Ticking := by
  unfold Cadence.takeLayout
  split
  · exact h
  · exact h.orderLayouts _

/-- A cadence at rest holds no tick, so that the one it asks for is the only one. -/
theorem start {α : Type} [Scalar α] {fps : α} (h : c.Ticking) (hstart : c.start fps = .ok c') :
    c'.Ticking := by
  obtain ⟨-, rfl⟩ | ⟨hidle, interval, handle, timers, -, hask, rfl⟩ |
    ⟨-, interval, timers, -, hask, rfl⟩ := start_cases hstart
  · exact h
  · have law := LawfulTimerService.scheduleRepeating_law c.timers interval .tick h.proper
    rw [hask] at law
    refine ⟨law.1, ?_, fun _ => rfl⟩
    intro other repeats hpend
    rw [show pending timers = _ from law.2.2] at hpend
    by_cases hother : other = handle
    · exact congrArg some hother.symm
    · rw [Function.update_of_ne hother] at hpend
      exact nomatch (h.running_of_pending hpend).symm.trans hidle
  · have law := LawfulTimerService.scheduleRepeating_law c.timers interval .tick h.proper
    rw [hask] at law
    exact h.of_noNewTick ⟨law.1, fun hpend => law.2 ▸ hpend⟩ rfl id

/-- The end of a quiet period is asked for, which is no tick. -/
theorem rearm (h : c.Ticking) : c.rearm.Ticking := by
  unfold Cadence.rearm
  split
  · have hcancelled := NoNewTick.cancelAny h.proper c.quietTimer
    exact h.of_noNewTick (hcancelled.trans (.scheduleOnce hcancelled.proper _ (by decide))) rfl id
  · exact h

/-- A halt leaves no tick pending. -/
theorem halt (h : c.Ticking) : c.halt.Ticking := by
  have hquiet := NoNewTick.cancelAny (NoNewTick.cancelAny h.proper c.tickTimer).proper c.quietTimer
  refine ⟨hquiet.proper, ?_, nofun⟩
  intro handle repeats hpend
  have hcancelled := hquiet.tick_before hpend
  have hheld := h.held ((NoNewTick.cancelAny h.proper c.tickTimer).tick_before hcancelled)
  -- the tick that was held is the one that has been cancelled
  rw [hheld] at hcancelled
  have hpending := (LawfulTimerService.cancel_law c.timers handle h.proper).2
  rw [show TimerService.cancelAny c.timers (some handle) = cancel c.timers handle from rfl,
    hpending, Function.update_self] at hcancelled
  exact nomatch hcancelled

/-- A suspension takes the tick back. -/
theorem suspend (h : c.Ticking) : c.suspend.Ticking :=
  h.halt.of_noNewTick (.refl h.halt.proper) rfl fun hrun => absurd hrun c.phase_halt_ne_running

/-- A resume that is taken back was no tick. -/
theorem cancelResume (h : c.Ticking) :
    { c with timers := cancelAny c.timers c.resumeTimer, resumeTimer := none }.Ticking :=
  h.of_noNewTick (.cancelAny h.proper _) rfl id

/-- After a reset there is no tick, nor does the cadence run. -/
theorem reset (h : c.Ticking) : c.reset.Ticking :=
  h.halt.of_noNewTick (.cancelAny h.halt.proper _) rfl
    fun hrun => absurd hrun c.phase_halt_ne_running

/-- A drag that begins asks for no timer. -/
theorem beginDrag (h : c.Ticking) : c.beginDrag.Ticking := by
  have hc := h.cancelResume
  unfold Cadence.beginDrag
  cases hphase : c.phase with
  | running =>
      rw [hphase] at hc
      exact hc.of_noNewTick (.refl hc.proper) rfl id
  | idle =>
      rw [hphase] at hc
      exact hc.suspend
  | suspended =>
      rw [hphase] at hc
      exact hc

/-- The end of a quiet period takes the tick back. -/
theorem quietPassed (h : c.Ticking) : c.quietPassed.Ticking :=
  halt (h.of_noNewTick (.refl h.proper) rfl id)

/-- A resume asks for no timer; the next start does. -/
theorem resume (h : c.Ticking) : c.resume.2.Ticking := by
  unfold Cadence.resume
  by_cases hsuspended : c.phase = .suspended
  · rw [if_pos hsuspended]
    refine h.of_noNewTick (.refl h.proper) rfl fun hrun => ?_
    exact nomatch hrun.symm.trans hsuspended
  · rw [if_neg hsuspended]
    exact h.of_noNewTick (.refl h.proper) rfl id

/-- The end of a drag asks for the resume, which is no tick. -/
theorem endDrag (h : c.Ticking) : c.endDrag.Ticking := by
  have hqueued : (if c.dragQueued then c.suspend else c).Ticking := by
    split
    · exact h.suspend
    · exact h
  unfold Cadence.endDrag
  generalize (if c.dragQueued then c.suspend else c) = c at hqueued
  by_cases hsuspended : c.phase = .suspended
  · rw [if_pos hsuspended]
    have hc := hqueued.cancelResume
    have hasked :=
      NoNewTick.scheduleOnce hc.proper resumeDelay (show Alarm.resume ≠ .tick by decide)
    rcases hask : scheduleOnce (cancelAny c.timers c.resumeTimer) resumeDelay .resume with
      ⟨_ | handle, timers⟩
    · rw [hask] at hasked
      exact resume (hc.of_noNewTick hasked rfl id)
    · rw [hask] at hasked
      exact hc.of_noNewTick hasked rfl id
  · rw [if_neg hsuspended]
    exact hqueued

end Ticking

end Cadence

end FisheyeDock
