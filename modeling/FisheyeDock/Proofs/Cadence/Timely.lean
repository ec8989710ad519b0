import Mathlib.Algebra.GroupWithZero.Nat
import FisheyeDock.Proofs.Cadence.Sound
import FisheyeDock.Proofs.Timer.Timetable

/-! # Ticks come before the quiet period ends

    A running cadence has two deadlines.  The next tick is at most one interval ahead of the clock,
    and the quiet period ends one interval and `quietPeriod` after it was begun.  `Timely` ties the
    two together: every tick since the quiet period was begun has put the next one off by an interval
    and by its own delay.  So when the quiet period has passed, the ticks in it have filled it
    (`quietPeriod_le_of_rings`).

    Whatever an operation does, to the deadlines it does one of three things (`Turn`): it leaves them
    alone, begins a new quiet period, or stops. -/

namespace FisheyeDock.Cadence

open TimerService

variable {τ : Type} [TimerService τ] [TimedService τ]

/-- How late the ticks of the present quiet period were. -/
def delays (c : Cadence τ) : List Nat := tickDelays (timetable c.timers).journal

/-- A tick is pending, at most one interval ahead. -/
structure Paced (c : Cadence τ) (tick : TimerHandle) (next : Nat) : Prop where
  tick_held : c.tickTimer = some tick
  quiet_ne : c.quietTimer ≠ some tick
  tick_plan : (timetable c.timers).plans tick = some ⟨.tick, next, some c.interval⟩
  next_le : next ≤ (timetable c.timers).now + c.interval

/-- A tick and the end of a quiet period are pending.  No tick comes later than the ticks since the
    quiet period was begun have put it off. -/
structure Guarded (c : Cadence τ) (tick quiet : TimerHandle) (next begun : Nat) : Prop
    extends Paced c tick next where
  quiet_held : c.quietTimer = some quiet
  quiet_plan : (timetable c.timers).plans quiet =
    some ⟨.quiet, begun + (quietPeriod + c.interval), none⟩
  begun_le : begun ≤ (timetable c.timers).now
  next_le_begun : next ≤ begun + (c.delays.length + 1) * c.interval + c.delays.sum

/-- No timer is refused, and while the cadence runs its deadlines are in order. -/
structure Timely (c : Cadence τ) : Prop where
  obliges : Obliges c.timers
  guarded : c.phase = .running → ∃ tick quiet next begun, c.Guarded tick quiet next begun

/-- Two cadences with the same deadlines. -/
structure Alike (c c' : Cadence τ) : Prop where
  timers : c'.timers = c.timers
  phase : c'.phase = c.phase
  interval : c'.interval = c.interval
  tickTimer : c'.tickTimer = c.tickTimer
  quietTimer : c'.quietTimer = c.quietTimer

/-- What an operation can do to the deadlines of a cadence. -/
inductive Turn (c c' : Cadence τ) : Prop where
  | keeps (alike : Alike c c')
  /-- A new quiet period is begun, maybe after a fresh start. -/
  | rearms {c₁ : Cadence τ} {tick : TimerHandle} {next : Nat} (obliges : Obliges c₁.timers)
      (running : c₁.phase = .running) (paced : c₁.Paced tick next) (alike : Alike c₁.rearm c')
  | stops (obliges : Obliges c'.timers) (phase : c'.phase ≠ .running)

variable {c c' c₁ : Cadence τ} {tick quiet : TimerHandle} {next begun : Nat}

omit [TimerService τ] [TimedService τ] in
theorem Alike.refl (c : Cadence τ) : Alike c c := ⟨rfl, rfl, rfl, rfl, rfl⟩

omit [TimerService τ] [TimedService τ] in
theorem Alike.trans (first : Alike c c₁) (second : Alike c₁ c') : Alike c c' where
  timers := second.timers.trans first.timers
  phase := second.phase.trans first.phase
  interval := second.interval.trans first.interval
  tickTimer := second.tickTimer.trans first.tickTimer
  quietTimer := second.quietTimer.trans first.quietTimer

omit [TimedService τ] in
/-- Two cadences with the same deadlines begin the same quiet period anew. -/
theorem Alike.rearm (h : Alike c c') : Alike c.rearm c'.rearm := by
  unfold Cadence.rearm
  rw [h.phase, h.timers, h.quietTimer, h.interval]
  split
  · exact ⟨rfl, rfl, rfl, h.tickTimer, rfl⟩
  · exact h

omit [TimedService τ] in
/-- They do so whether or not it is begun anew. -/
theorem Alike.rearm_if (h : Alike c c') (anew : Bool) :
    Alike (if anew then c.rearm else c) (if anew then c'.rearm else c') := by
  cases anew with
  | true => exact h.rearm
  | false => exact h

/-- Of two operations, the one that does something to the deadlines counts. -/
theorem Turn.trans (first : Turn c c₁) (second : Turn c₁ c') : Turn c c' := by
  -- a turn that rearms or stops leaves nothing of what was before it
  cases second with
  | keeps alike =>
      cases first with
      | keeps alike' => exact .keeps (alike'.trans alike)
      | rearms obliges running paced alike' => exact .rearms obliges running paced (alike'.trans alike)
      | stops obliges phase => exact .stops (alike.timers ▸ obliges) (alike.phase ▸ phase)
  | rearms obliges running paced alike => exact .rearms obliges running paced alike
  | stops obliges phase => exact .stops obliges phase

/-! ## Deadlines -/

/-- A new quiet period is begun now, and the next tick is at most one interval ahead. -/
theorem Paced.rearm (h : c.Paced tick next) (obliges : Obliges c.timers)
    (running : c.phase = .running) : Obliges c.rearm.timers ∧ c.rearm.delays = [] ∧
      ∃ quiet, c.rearm.Guarded tick quiet next (timetable c.timers).now := by
  -- the timer of the old quiet period is cancelled, which leaves the tick as it is
  have hcancelled := cancelAny_obliges obliges c.quietTimer
  have hnow : (timetable (cancelAny c.timers c.quietTimer)).now = (timetable c.timers).now := by
    rw [timetable_cancelAny obliges]
    cases c.quietTimer <;> rfl
  have htick : (timetable (cancelAny c.timers c.quietTimer)).plans tick =
      some ⟨.tick, next, some c.interval⟩ := by
    rw [plans_cancelAny obliges h.quiet_ne, h.tick_plan]
  -- then one for the new quiet period is granted, under a handle of its own
  obtain ⟨quiet, timers', hask, obliges', hgrants⟩ :=
    TimedService.once_granted (quietPeriod + c.interval) .quiet hcancelled
  rw [hnow] at hgrants
  have hrearm : c.rearm = { c with timers := timers', quietTimer := some quiet } := by
    rw [Cadence.rearm, if_pos running, hask]
  have hne : tick ≠ quiet := by
    rintro rfl
    rw [hgrants.fresh] at htick
    exact nomatch htick
  have hplans := congrArg Timetable.plans hgrants.table_eq
  have hnow' : (timetable timers').now = (timetable c.timers).now :=
    (congrArg Timetable.now hgrants.table_eq).trans hnow
  have hdelays : c.rearm.delays = [] := by
    rw [hrearm]
    exact congrArg (tickDelays ∘ Timetable.journal) hgrants.table_eq
  refine ⟨hrearm ▸ obliges', hdelays, quiet, ?_⟩
  have hnext := h.next_le
  constructor
  · constructor
    · rw [hrearm]
      exact h.tick_held
    · rw [hrearm]
      exact fun heq => hne (Option.some.inj heq).symm
    · rw [hrearm]
      show (timetable timers').plans tick = _
      rw [hplans, ← htick]
      exact Function.update_of_ne hne _ _
    · rw [hrearm]
      show next ≤ (timetable timers').now + c.interval
      rw [hnow']
      exact hnext
  · rw [hrearm]
  · rw [hrearm]
    show (timetable timers').plans quiet = _
    rw [hplans]
    exact Function.update_self _ _ _
  · rw [hrearm]
    exact Nat.le_of_eq hnow'.symm
  · rw [hdelays, hrearm]
    show next ≤ (timetable c.timers).now + (0 + 1) * c.interval + 0
    omega

/-- Pace shows in the timers and in what is held of them. -/
theorem Alike.paced (h : Alike c c') (paced : c.Paced tick next) : c'.Paced tick next := by
  obtain ⟨timers, phase, interval, tickTimer, quietTimer, _, layouts, queued⟩ := c'
  obtain ⟨rfl, rfl, rfl, rfl, rfl⟩ := h
  exact ⟨paced.tick_held, paced.quiet_ne, paced.tick_plan, paced.next_le⟩

theorem Alike.guarded (h : Alike c c') (guarded : c.Guarded tick quiet next begun) :
    c'.Guarded tick quiet next begun := by
  have hpaced := h.paced guarded.toPaced
  obtain ⟨timers, phase, interval, tickTimer, quietTimer, _, layouts, queued⟩ := c'
  obtain ⟨rfl, rfl, rfl, rfl, rfl⟩ := h
  exact ⟨hpaced, guarded.quiet_held, guarded.quiet_plan, guarded.begun_le, guarded.next_le_begun⟩

theorem Alike.timely (h : Alike c c') (timely : c.Timely) : c'.Timely := by
  refine ⟨h.timers ▸ timely.obliges, fun running => ?_⟩
  obtain ⟨tick, quiet, next, begun, hguarded⟩ := timely.guarded (h.phase ▸ running)
  exact ⟨tick, quiet, next, begun, h.guarded hguarded⟩

/-- Whatever a turn does, it leaves a timely cadence timely. -/
theorem Turn.timely (turn : Turn c c') (timely : c.Timely) : c'.Timely := by
  cases turn with
  | keeps alike => exact alike.timely timely
  | rearms obliges running paced alike =>
      obtain ⟨obliges', -, quiet, hguarded⟩ := paced.rearm obliges running
      exact alike.timely ⟨obliges', fun _ => ⟨_, quiet, _, _, hguarded⟩⟩
  | stops obliges phase => exact ⟨obliges, fun running => absurd running phase⟩

/-- No tick has been counted in a quiet period that is begun now. -/
theorem Timely.delays_rearm (h : c.Timely) (running : c.phase = .running) :
    c.rearm.delays = [] := by
  obtain ⟨tick, quiet, next, begun, hguarded⟩ := h.guarded running
  exact (hguarded.toPaced.rearm h.obliges running).2.1

/-- While a cadence runs on, its ticks count, unless a new quiet period is begun. -/
theorem Turn.delays (turn : Turn c c') (running : c'.phase = .running) :
    c'.delays = [] ∨ (c.phase = .running ∧ c'.delays = c.delays) := by
  have hdelays : ∀ {c c' : Cadence τ}, Alike c c' → c'.delays = c.delays := fun alike =>
    congrArg (fun timers => tickDelays (timetable timers).journal) alike.timers
  cases turn with
  | keeps alike => exact .inr ⟨alike.phase ▸ running, hdelays alike⟩
  | rearms obliges running₁ paced alike =>
      obtain ⟨-, hnone, -⟩ := paced.rearm obliges running₁
      exact .inl ((hdelays alike).trans hnone)
  | stops obliges phase => exact absurd running phase

/-! ## Rings -/

section Rings

variable {timers : τ}

/-- The tick and the end of the quiet period are two timers: no handle is held for both. -/
theorem Guarded.tick_ne_quiet (h : c.Guarded tick quiet next begun) : tick ≠ quiet := by
  rintro rfl
  exact h.quiet_ne h.quiet_held

/-- A tick that rings was due, and is due again within an interval. -/
theorem Paced.ring_tick (h : c.Paced tick next) {plan : Plan}
    (rings : (timetable c.timers).Rings tick plan (timetable timers)) :
    plan = ⟨.tick, next, some c.interval⟩ ∧ ∃ next', (c.withTimers timers).Paced tick next' := by
  obtain rfl : plan = ⟨.tick, next, some c.interval⟩ :=
    Option.some.inj (rings.planned.symm.trans h.tick_plan)
  obtain ⟨next', hnext', hplans⟩ := rings.again
  have hle : next' ≤ (timetable timers).now + c.interval := hnext' c.interval rfl
  refine ⟨rfl, next', h.tick_held, h.quiet_ne, ?_, hle⟩
  show (timetable timers).plans tick = _
  rw [hplans]
  exact Function.update_self _ _ _

/-- A tick puts the next one off, and counts. -/
theorem Guarded.ring_tick (h : c.Guarded tick quiet next begun) {plan : Plan}
    (rings : (timetable c.timers).Rings tick plan (timetable timers)) :
    ∃ next' delay, (c.withTimers timers).delays = delay :: c.delays ∧
      (c.withTimers timers).Guarded tick quiet next' begun := by
  obtain ⟨rfl, next', hpaced⟩ := h.toPaced.ring_tick rings
  obtain ⟨_, -, hplans⟩ := rings.again
  have hdelays : (c.withTimers timers).delays = ((timetable timers).now - next) :: c.delays :=
    congrArg tickDelays rings.noted
  have hle : next' ≤ (timetable timers).now + c.interval := hpaced.next_le
  have hdue : next ≤ (timetable timers).now := rings.due
  refine ⟨next', _, hdelays, hpaced, h.quiet_held, ?_, ?_, ?_⟩
  · show (timetable timers).plans quiet = _
    rw [hplans, Function.update_of_ne h.tick_ne_quiet.symm]
    exact h.quiet_plan
  · exact Nat.le_trans h.begun_le rings.now_le
  · -- the tick is late by its delay, and the next one is due an interval from now at most
    have hbegun := h.next_le_begun
    rw [hdelays, List.length_cons, List.sum_cons]
    show next' ≤ begun + (c.delays.length + 1 + 1) * c.interval + _
    rw [Nat.succ_mul]
    omega

/-- Time that passes is no tick that is late. -/
theorem delays_pass (passes : (timetable c.timers).Passes (timetable timers)) :
    (c.withTimers timers).delays = c.delays :=
  congrArg tickDelays passes.journal_eq

/-- Time that passes keeps the plan of the tick. -/
theorem Paced.pass (h : c.Paced tick next)
    (passes : (timetable c.timers).Passes (timetable timers)) :
    (c.withTimers timers).Paced tick next := by
  refine ⟨h.tick_held, h.quiet_ne, ?_, ?_⟩
  · show (timetable timers).plans tick = _
    rw [passes.plans_eq]
    exact h.tick_plan
  · exact Nat.le_trans h.next_le (Nat.add_le_add_right passes.now_le _)

theorem Guarded.pass (h : c.Guarded tick quiet next begun)
    (passes : (timetable c.timers).Passes (timetable timers)) :
    (c.withTimers timers).Guarded tick quiet next begun := by
  refine ⟨h.toPaced.pass passes, h.quiet_held, ?_, ?_, ?_⟩
  · show (timetable timers).plans quiet = _
    rw [passes.plans_eq]
    exact h.quiet_plan
  · exact Nat.le_trans h.begun_le passes.now_le
  · rw [delays_pass passes]
    exact h.next_le_begun

/-- When the quiet period has passed, the ticks in it have filled it. -/
theorem Guarded.quietPeriod_le (h : c.Guarded tick quiet next begun) {plan : Plan}
    {table : Timetable} (rings : (timetable c.timers).Rings quiet plan table) :
    quietPeriod ≤ c.delays.length * c.interval + c.delays.sum := by
  obtain rfl := Option.some.inj (rings.planned.symm.trans h.quiet_plan)
  -- timers ring in the order of their deadlines, so that the next tick is not due before
  have hfirst : begun + (quietPeriod + c.interval) ≤ next := rings.first h.tick_plan
  have hbegun := h.next_le_begun
  rw [Nat.succ_mul] at hbegun
  omega

/-- A tick that rings counts. -/
theorem Timely.ring_tick {handle : TimerHandle} {plan : Plan} (h : c.Timely)
    (running : c.phase = .running) (tick_held : c.tickTimer = some handle)
    (obliges : Obliges timers)
    (rings : (timetable c.timers).Rings handle plan (timetable timers)) :
    (c.withTimers timers).Timely ∧ ∃ delay, (c.withTimers timers).delays = delay :: c.delays := by
  obtain ⟨tick, quiet, next, begun, hguarded⟩ := h.guarded running
  obtain rfl := Option.some.inj (tick_held.symm.trans hguarded.tick_held)
  obtain ⟨next', delay, hdelays, hguarded'⟩ := hguarded.ring_tick rings
  exact ⟨⟨obliges, fun _ => ⟨_, _, _, _, hguarded'⟩⟩, delay, hdelays⟩

theorem Timely.pass (h : c.Timely) (obliges : Obliges timers)
    (passes : (timetable c.timers).Passes (timetable timers)) : (c.withTimers timers).Timely := by
  refine ⟨obliges, fun running => ?_⟩
  obtain ⟨tick, quiet, next, begun, hguarded⟩ := h.guarded running
  exact ⟨tick, quiet, next, begun, hguarded.pass passes⟩

end Rings

/-! ## Operations -/

/-- The order of layouts has nothing to do with deadlines. -/
theorem turn_orderLayouts (c : Cadence τ) (ticks : Nat) : Turn c (c.orderLayouts ticks) :=
  .keeps ⟨rfl, rfl, rfl, rfl, rfl⟩

/-- A running cadence gets a new quiet period, any other is left alone. -/
theorem Timely.turn_rearm (h : c.Timely) : Turn c c.rearm := by
  by_cases running : c.phase = .running
  · obtain ⟨tick, quiet, next, begun, hguarded⟩ := h.guarded running
    exact .rearms h.obliges running hguarded.toPaced (.refl _)
  · rw [Cadence.rearm, if_neg running]
    exact .keeps (.refl c)

/-- No timer is refused, so that a start leads to the first tick of a running cadence, or finds
    nothing to do. -/
theorem Timely.started {α : Type} [Scalar α] {fps : α} (h : c.Timely) (sound : c.Sound)
    (hstart : c.start fps = .ok c') :
    c' = c ∨ (Obliges c'.timers ∧ c'.phase = .running ∧ ∃ tick next, c'.Paced tick next) := by
  obtain ⟨-, rfl⟩ | ⟨hidle, interval, handle, timers, -, hask, rfl⟩ |
    ⟨-, interval, timers, -, hask, rfl⟩ := start_cases hstart
  · exact .inl rfl
  · obtain ⟨granted, timers', hgranted, obliges, hgrants⟩ :=
      TimedService.repeating_granted interval .tick h.obliges
    obtain ⟨hhandle, rfl⟩ := Prod.mk.inj (hask.symm.trans hgranted)
    obtain rfl := Option.some.inj hhandle
    have hquiet : c.quietTimer = none := sound.quietTimer_eq_none (by rw [hidle]; decide)
    refine .inr ⟨obliges, rfl, handle, (timetable c.timers).now + interval, rfl, ?_, ?_, ?_⟩
    · show c.quietTimer ≠ some handle
      rw [hquiet]
      exact nofun
    · show (timetable timers).plans handle = _
      rw [hgrants.table_eq]
      exact Function.update_self _ _ _
    · show _ ≤ (timetable timers).now + interval
      rw [hgrants.table_eq]
      exact Nat.le_refl _
  · obtain ⟨granted, timers', hgranted, -⟩ :=
      TimedService.repeating_granted interval .tick h.obliges
    exact nomatch hask.symm.trans hgranted

/-- A start with a quiet period after it is a turn, be the start granted or not. -/
theorem Timely.turn_start {α : Type} [Scalar α] {fps : α} (h : c.Timely) (sound : c.Sound)
    (hstart : c.start fps = .ok c') : Turn c c'.rearm := by
  obtain rfl | ⟨obliges, running, tick, next, hpaced⟩ := h.started sound hstart
  · exact h.turn_rearm
  · exact .rearms obliges running hpaced (.refl _)

/-- Cancelled timers leave a service obliging. -/
theorem obliges_halt (obliges : Obliges c.timers) : Obliges c.halt.timers :=
  cancelAny_obliges (cancelAny_obliges obliges _) _

/-- Halting stops, whatever was done before. -/
theorem turn_halt (obliges : Obliges c₁.timers) : Turn c c₁.halt :=
  .stops (obliges_halt obliges) c₁.phase_halt_ne_running

theorem turn_suspend (obliges : Obliges c₁.timers) : Turn c c₁.suspend :=
  .stops (obliges_halt obliges) (show Phase.suspended ≠ .running by decide)

theorem turn_reset (obliges : Obliges c₁.timers) : Turn c c₁.reset :=
  .stops (cancelAny_obliges (obliges_halt obliges) _) (show Phase.idle ≠ .running by decide)

/-- A drag that begins stops a cadence at rest, or is queued and changes no deadline. -/
theorem Timely.turn_beginDrag (h : c.Timely) (sound : c.Sound) : Turn c c.beginDrag := by
  have hcancelled := cancelAny_obliges h.obliges c.resumeTimer
  unfold beginDrag
  cases hphase : c.phase with
  | running =>
      -- the pause after a drag is not waited for while running
      have hresume : c.resumeTimer = none := sound.resumeTimer_eq_none (by rw [hphase]; decide)
      rw [hresume]
      exact .keeps ⟨rfl, hphase.symm, rfl, rfl, rfl⟩
  | idle => exact turn_suspend hcancelled
  | suspended => exact .stops hcancelled (show Phase.suspended ≠ .running by decide)

/-- A drag that ends stops what it suspends, or changes no deadline. -/
theorem Timely.turn_endDrag (h : c.Timely) : Turn c c.endDrag := by
  have hqueued : Turn c (if c.dragQueued then c.suspend else c) := by
    split
    · exact turn_suspend h.obliges
    · exact .keeps (.refl c)
  unfold endDrag
  have hobliges := (hqueued.timely h).obliges
  generalize (if c.dragQueued then c.suspend else c) = c₁ at hqueued hobliges
  by_cases hsuspended : c₁.phase = .suspended
  · rw [if_pos hsuspended]
    obtain ⟨handle, timers, hask, obliges, -⟩ := TimedService.once_granted resumeDelay .resume
      (cancelAny_obliges hobliges c₁.resumeTimer)
    rw [hask]
    exact .stops obliges (by rw [hsuspended]; decide)
  · rw [if_neg hsuspended]
    exact hqueued

end FisheyeDock.Cadence
