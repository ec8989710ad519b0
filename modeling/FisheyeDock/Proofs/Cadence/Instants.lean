import FisheyeDock.Proofs.Cadence.Timely

/-! # Requests take no time

    Time passes between the operations of a cadence and not within them: whatever is asked of the
    service, the clock shows the same time before and after (`AtOnce`).  A quiet period that an
    operation begins therefore begins at the instant of the operation (`Fresh`). -/

namespace FisheyeDock

open TimerService

section Service

variable {τ : Type} [TimerService τ] [TimedService τ] {timers timers' timers'' : τ}

/-- A service has answered requests.  It still refuses nothing, and no time has passed. -/
structure AtOnce (timers timers' : τ) : Prop where
  obliges : Obliges timers'
  now_eq : (timetable timers').now = (timetable timers).now

namespace AtOnce

theorem refl (obliges : Obliges timers) : AtOnce timers timers := ⟨obliges, rfl⟩

theorem trans (first : AtOnce timers timers') (second : AtOnce timers' timers'') :
    AtOnce timers timers'' :=
  ⟨second.obliges, second.now_eq.trans first.now_eq⟩

/-- Cancelling asks for nothing, so it keeps everything at once. -/
theorem cancelAny (obliges : Obliges timers) (held : Option TimerHandle) :
    AtOnce timers (cancelAny timers held) := by
  refine ⟨cancelAny_obliges obliges held, ?_⟩
  rw [timetable_cancelAny obliges]
  cases held <;> rfl

theorem scheduleOnce (obliges : Obliges timers) (delay : Nat) (alarm : Alarm) :
    AtOnce timers (scheduleOnce timers delay alarm).2 := by
  obtain ⟨handle, timers', hask, hobliges, hgrants⟩ :=
    TimedService.once_granted delay alarm obliges
  have hnow := congrArg Timetable.now hgrants.table_eq
  rw [hask]
  exact ⟨hobliges, hnow⟩

theorem scheduleRepeating (obliges : Obliges timers) (interval : Nat) (alarm : Alarm) :
    AtOnce timers (scheduleRepeating timers interval alarm).2 := by
  obtain ⟨handle, timers', hask, hobliges, hgrants⟩ :=
    TimedService.repeating_granted interval alarm obliges
  have hnow := congrArg Timetable.now hgrants.table_eq
  rw [hask]
  exact ⟨hobliges, hnow⟩

end AtOnce

end Service

namespace Cadence

variable {τ : Type} [TimerService τ] [TimedService τ] {c c' : Cadence τ}

/-! ## Operations take no time -/

/-- A start asks for the tick at most. -/
theorem atOnce_start {α : Type} [Scalar α] {fps : α} (h : c.start fps = .ok c')
    (obliges : Obliges c.timers) : AtOnce c.timers c'.timers := by
  obtain ⟨-, rfl⟩ | ⟨-, interval, handle, timers, -, hask, rfl⟩ |
    ⟨-, interval, timers, -, hask, rfl⟩ := start_cases h
  · exact .refl obliges
  all_goals
    have hasked := AtOnce.scheduleRepeating obliges interval .tick
    rw [hask] at hasked
    exact hasked

section AtOnce

variable (obliges : Obliges c.timers)

include obliges

/-- A new quiet period is asked for at the instant at which the old one is taken back. -/
theorem atOnce_rearm : AtOnce c.timers c.rearm.timers := by
  unfold rearm
  split
  · have hcancelled := AtOnce.cancelAny obliges c.quietTimer
    exact hcancelled.trans (.scheduleOnce hcancelled.obliges _ _)
  · exact .refl obliges

theorem atOnce_halt : AtOnce c.timers c.halt.timers := by
  have htick := AtOnce.cancelAny obliges c.tickTimer
  exact htick.trans (.cancelAny htick.obliges c.quietTimer)

theorem atOnce_reset : AtOnce c.timers c.reset.timers :=
  (atOnce_halt obliges).trans (.cancelAny (atOnce_halt obliges).obliges c.resumeTimer)

/-- A drag that begins only cancels timers. -/
theorem atOnce_beginDrag : AtOnce c.timers c.beginDrag.timers := by
  have hcancelled := AtOnce.cancelAny obliges c.resumeTimer
  unfold beginDrag
  cases c.phase with
  | running | suspended => exact hcancelled
  | idle =>
      exact hcancelled.trans (atOnce_halt (c := { c with
        timers := cancelAny c.timers c.resumeTimer, resumeTimer := none, phase := .idle })
        hcancelled.obliges)

/-- A drag that ends asks for the resume at most. -/
theorem atOnce_endDrag : AtOnce c.timers c.endDrag.timers := by
  have hqueued : AtOnce c.timers (if c.dragQueued then c.suspend else c).timers := by
    split
    · exact atOnce_halt obliges
    · exact .refl obliges
  unfold endDrag
  generalize (if c.dragQueued then c.suspend else c) = c₁ at hqueued
  by_cases hsuspended : c₁.phase = .suspended
  · rw [if_pos hsuspended]
    have hcancelled := AtOnce.cancelAny hqueued.obliges c₁.resumeTimer
    have hasked := AtOnce.scheduleOnce hcancelled.obliges resumeDelay .resume
    rcases hask : scheduleOnce (cancelAny c₁.timers c₁.resumeTimer) resumeDelay .resume with
      ⟨_ | handle, timers⟩
    · rw [hask] at hasked
      dsimp only [resume]
      split
      all_goals exact hqueued.trans (hcancelled.trans hasked)
    · rw [hask] at hasked
      exact hqueued.trans (hcancelled.trans hasked)
  · rw [if_neg hsuspended]
    exact hqueued

end AtOnce

/-! ## The quiet period begins now -/

/-- If the cadence runs, a quiet period has just begun. -/
def Fresh (c : Cadence τ) : Prop :=
  c.phase = .running → ∃ tick quiet next, c.Guarded tick quiet next (timetable c.timers).now

/-- Freshness shows in timers and phase alone. -/
theorem Alike.fresh (alike : Alike c c') (h : c.Fresh) : c'.Fresh := by
  intro running
  obtain ⟨tick, quiet, next, hguarded⟩ := h (alike.phase ▸ running)
  rw [alike.timers]
  exact ⟨tick, quiet, next, alike.guarded hguarded⟩

/-- A cadence that keeps pace has begun a quiet period right now, once it is rearmed. -/
theorem Paced.fresh_rearm {tick : TimerHandle} {next : Nat} (h : c.Paced tick next)
    (obliges : Obliges c.timers) : c.rearm.Fresh := by
  intro running
  obtain ⟨-, -, quiet, hguarded⟩ := h.rearm obliges (c.phase_rearm ▸ running)
  rw [(atOnce_rearm obliges).now_eq]
  exact ⟨tick, quiet, next, hguarded⟩

theorem Timely.fresh_rearm (h : c.Timely) : c.rearm.Fresh := by
  intro running
  obtain ⟨tick, quiet, next, begun, hguarded⟩ := h.guarded (c.phase_rearm ▸ running)
  exact hguarded.toPaced.fresh_rearm h.obliges running

/-- A wake-up begins a quiet period, whether the cadence has run before or not. -/
theorem Timely.fresh_start {α : Type} [Scalar α] {fps : α} (h : c.Timely) (sound : c.Sound)
    (hstart : c.start fps = .ok c') : c'.rearm.Fresh := by
  obtain rfl | ⟨obliges, -, tick, next, hpaced⟩ := h.started sound hstart
  · exact h.fresh_rearm
  · exact hpaced.fresh_rearm obliges

/-! ## Drags -/

omit [TimedService τ] in
/-- A drag suspends a cadence that does not run. -/
theorem phase_beginDrag_of_ne (h : c.phase ≠ .running) : c.beginDrag.phase = .suspended := by
  unfold beginDrag
  cases hphase : c.phase with
  | running => exact absurd hphase h
  | idle => rfl
  | suspended => rfl

/-- No timer is refused, so that the end of a drag leaves a suspension as it is for now. -/
theorem Timely.endDrag_cases (h : c.Timely) : c.endDrag = c ∨ c.endDrag.phase = .suspended := by
  unfold endDrag
  by_cases hsuspended : (if c.dragQueued then c.suspend else c).phase = .suspended
  · refine .inr ?_
    rw [if_pos hsuspended]
    have hobliges : Obliges (if c.dragQueued then c.suspend else c).timers := by
      split
      · exact obliges_halt h.obliges
      · exact h.obliges
    obtain ⟨handle, timers, hask, -⟩ := TimedService.once_granted resumeDelay .resume
      (cancelAny_obliges hobliges (if c.dragQueued then c.suspend else c).resumeTimer)
    rw [hask]
    exact hsuspended
  · rw [if_neg hsuspended]
    cases hqueued : c.dragQueued with
    | true =>
        rw [hqueued] at hsuspended
        exact absurd rfl hsuspended
    | false => exact .inl rfl

end Cadence

end FisheyeDock
