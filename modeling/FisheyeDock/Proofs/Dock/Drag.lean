import FisheyeDock.Proofs.Dock.Timed
import FisheyeDock.Proofs.Timer.Chronicle

/-! # A drag and the end of the quiet period

    A drag that begins while the cadence runs is queued for the next tick.  From then on to its end
    the dock is suspended or has the drag queued.  Whether it can be idle in between hangs on which
    of two timers is due first when the drag begins: the next tick, which suspends, or the end of the
    quiet period, which stops the ticks (`Timed.drag`).

    The quiet period ends first only when less than an interval of it is left (`tickFirst_of_lt`). -/

namespace FisheyeDock

namespace Cadence

open TimerService

variable {τ : Type} [TimerService τ] {c c' c₁ : Cadence τ}

/-! ## What keeps a drag -/

/-- No pause is waited for, and a drag is queued unless it has suspended the cadence. -/
structure DragOn (c : Cadence τ) : Prop where
  resumeTimer : c.resumeTimer = none
  queued : c.phase ≠ .suspended → c.dragQueued = true

/-- As far as a drag goes, two cadences are the same. -/
structure SameDrag (c c' : Cadence τ) : Prop where
  resumeTimer : c'.resumeTimer = c.resumeTimer
  dragQueued : c'.dragQueued = c.dragQueued
  suspended_iff : c'.phase = .suspended ↔ c.phase = .suspended

omit [TimerService τ] in
theorem SameDrag.trans (first : SameDrag c c₁) (second : SameDrag c₁ c') : SameDrag c c' where
  resumeTimer := second.resumeTimer.trans first.resumeTimer
  dragQueued := second.dragQueued.trans first.dragQueued
  suspended_iff := second.suspended_iff.trans first.suspended_iff

omit [TimerService τ] in
/-- A drag goes on where nothing has changed that concerns it. -/
theorem SameDrag.dragOn (same : SameDrag c c') (h : c.DragOn) : c'.DragOn where
  resumeTimer := same.resumeTimer.trans h.resumeTimer
  queued := by
    intro hphase
    rw [same.dragQueued]
    exact h.queued (mt same.suspended_iff.mpr hphase)

omit [TimerService τ] in
/-- The order of layouts does not concern a drag. -/
theorem sameDrag_orderLayouts (c : Cadence τ) (ticks : Nat) : SameDrag c (c.orderLayouts ticks) :=
  ⟨rfl, rfl, .rfl⟩

theorem sameDrag_rearm (c : Cadence τ) : SameDrag c c.rearm := by
  unfold rearm
  split
  · exact ⟨rfl, rfl, .rfl⟩
  · exact ⟨rfl, rfl, .rfl⟩

theorem sameDrag_halt (c : Cadence τ) : SameDrag c c.halt := by
  refine ⟨rfl, rfl, ?_⟩
  show (if c.phase = .running then Phase.idle else c.phase) = .suspended ↔ _
  cases c.phase <;> decide

theorem sameDrag_start {α : Type} [Scalar α] {fps : α} (h : c.start fps = .ok c') :
    SameDrag c c' := by
  obtain ⟨-, rfl⟩ | ⟨hidle, _, _, _, -, -, rfl⟩ | ⟨-, _, _, -, -, rfl⟩ := start_cases h
  · exact ⟨rfl, rfl, .rfl⟩
  · refine ⟨rfl, rfl, ?_⟩
    rw [hidle]
    show Phase.running = .suspended ↔ _
    decide
  · exact ⟨rfl, rfl, .rfl⟩

/-- A drag is on as soon as it has begun. -/
theorem dragOn_beginDrag (c : Cadence τ) : c.beginDrag.DragOn := by
  unfold beginDrag
  cases hphase : c.phase with
  | running => exact ⟨rfl, fun _ => rfl⟩
  | idle => exact ⟨rfl, fun hphase => absurd rfl hphase⟩
  | suspended => exact ⟨rfl, fun hphase => absurd rfl hphase⟩

/-- A running cadence queues the drag and does nothing else. -/
theorem beginDrag_of_running (hrunning : c.phase = .running) (hresume : c.resumeTimer = none) :
    c.beginDrag = { c with dragQueued := true } := by
  obtain ⟨timers, phase, interval, tickTimer, quietTimer, resumeTimer, layouts, queued⟩ := c
  obtain rfl : phase = .running := hrunning
  obtain rfl : resumeTimer = none := hresume
  rfl

/-! ## What keeps a cadence from rest -/

/-- A drag that begins suspends a cadence at rest, and lets a running one run. -/
theorem beginDrag_ne_idle (c : Cadence τ) : c.beginDrag.phase ≠ .idle := by
  unfold beginDrag
  cases hphase : c.phase with
  | running => exact show Phase.running ≠ .idle by decide
  | idle | suspended => exact show Phase.suspended ≠ .idle by decide

variable [TimedService τ]

/-- No timer is refused, so that every start leads away from rest. -/
theorem Timely.start_ne_idle {α : Type} [Scalar α] {fps : α} (timely : c.Timely)
    (h : c.start fps = .ok c') : c'.phase ≠ .idle := by
  obtain ⟨hphase, rfl⟩ | ⟨-, _, _, _, -, -, rfl⟩ | ⟨-, interval, _, -, hask, -⟩ := start_cases h
  · exact hphase
  · exact show Phase.running ≠ .idle by decide
  · obtain ⟨granted, timers', hgranted, -⟩ :=
      TimedService.repeating_granted interval .tick timely.obliges
    exact nomatch hask.symm.trans hgranted

/-- The next tick comes before the quiet period ends. -/
def Leads (c : Cadence τ) : Prop := ∃ tick quiet next begun,
  c.Guarded tick quiet next begun ∧ next < begun + (quietPeriod + c.interval)

/-- The quiet period does not end while a tick is due before. -/
theorem Leads.not_quiet {timers : τ} {handle : TimerHandle} {plan : Plan} (h : c.Leads)
    (rings : (timetable c.timers).Rings handle plan (timetable timers)) :
    c.quietTimer ≠ some handle := by
  intro hquiet
  obtain ⟨tick, quiet, next, begun, hguarded, hlt⟩ := h
  obtain rfl := Option.some.inj (hquiet.symm.trans hguarded.quiet_held)
  obtain rfl := Option.some.inj (rings.planned.symm.trans hguarded.quiet_plan)
  exact absurd (rings.first hguarded.tick_plan) (Nat.not_le.mpr hlt)

/-- A tick that comes first while the cadence runs does so after any turn. -/
theorem Turn.leads (turn : Turn c c') (h : c.phase = .running → c.Leads)
    (running : c'.phase = .running) : c'.Leads := by
  have halike : ∀ {c c' : Cadence τ}, Alike c c' → c.Leads → c'.Leads := by
    rintro c c' alike ⟨tick, quiet, next, begun, hguarded, hlt⟩
    refine ⟨tick, quiet, next, begun, alike.guarded hguarded, ?_⟩
    rw [alike.interval]
    exact hlt
  cases turn with
  | keeps alike => exact halike alike (h (alike.phase ▸ running))
  | @rearms c₁ tick next obliges running₁ paced alike =>
      obtain ⟨-, -, quiet, hguarded⟩ := paced.rearm obliges running₁
      refine halike alike ⟨tick, quiet, next, _, hguarded, ?_⟩
      have hinterval : c₁.rearm.interval = c₁.interval := by
        unfold rearm
        split <;> rfl
      -- a new quiet period lasts longer than the interval that the tick is ahead at most
      have hnext := paced.next_le
      have hquiet : 0 < quietPeriod := by decide
      rw [hinterval]
      omega
  | stops obliges phase => exact absurd running phase

end Cadence

namespace Dock

open Scene (Command)
open TimerService

variable {α τ : Type} [Scalar α] [TimerService τ] [TimedService τ] {allowed : Host α → Prop}
variable {dock dock' dock₁ : Dock α τ} {host : Host α} {commands : List (Command α)}
variable {occurrence : Option Event}

/-! ## Drags -/

/-- The docks from the beginning of a drag on, as long as it does not end and the dock stays
    enabled. -/
inductive Dragging (allowed : Host α → Prop) (dock : Dock α τ) : Dock α τ → Prop where
  | begins {dock' : Dock α τ} {commands : List (Command α)} (host : Host α) (allows : allowed host)
      (enabled : dock.enabled = true) (step : dock.handle host .dragBegin = .ok (dock', commands)) :
      Dragging allowed dock dock'
  | lasts {dock₁ dock' : Dock α τ} {occurrence : Option Event}
      (before : Dragging allowed dock dock₁) (step : TimedStep allowed dock₁ occurrence dock')
      (noEnd : occurrence ≠ some .dragEnd) (enabled : dock'.enabled = true) :
      Dragging allowed dock dock'

/-- What a drag leads to is in time. -/
theorem Timed.dragging (h : Timed allowed dock) (drag : Dragging allowed dock dock') :
    Timed allowed dock' := by
  induction drag with
  | begins host allows enabled step => exact h.call host .dragBegin allows nofun step
  | lasts before step noEnd enabled ih => exact ih.step step

omit [TimedService τ] in
/-- A drag begins with the cadence, and leaves the row where that is not suspended. -/
theorem begun_of_enabled (henabled : dock.enabled = true)
    (step : dock.handle host .dragBegin = .ok (dock', commands)) :
    dock'.cadence = dock.cadence.beginDrag ∧
      (dock.cadence.beginDrag.phase ≠ .suspended → dock'.row = dock.row) := by
  rw [show dock' = dock.dragBegin.1 from congrArg Prod.fst (Except.ok.inj step).symm]
  unfold dragBegin
  rw [if_pos henabled]
  dsimp only
  split
  · exact ⟨cadence_withdraw _, fun hphase => absurd ‹_› hphase⟩
  · exact ⟨rfl, fun _ => rfl⟩

section Step

variable (on : dock.cadence.DragOn)

/-! ## One step of a drag -/

include on in
omit [TimedService τ] in
/-- A call other than the end of the drag lets it go on. -/
theorem Answer.dragOn {event : Event} (h : Answer dock event dock') (noEnd : event ≠ .dragEnd)
    (enabled : dock'.enabled = true) : dock'.cadence.DragOn := by
  open Cadence in
  cases h with
  | counts ticks cadence_eq =>
      rw [cadence_eq]
      exact (sameDrag_orderLayouts _ ticks).dragOn on
  | rearms cadence_eq =>
      rw [cadence_eq]
      exact (sameDrag_rearm _).dragOn on
  | wakes ticks start cadence_eq =>
      rw [cadence_eq]
      exact (((sameDrag_orderLayouts _ ticks).trans (sameDrag_start start)).trans
        (sameDrag_rearm _)).dragOn on
  | restarts start ticks cadence_eq =>
      rw [cadence_eq]
      exact ((((sameDrag_halt _).trans (sameDrag_start start)).trans (sameDrag_rearm _)).trans
        (sameDrag_orderLayouts _ ticks)).dragOn on
  | resets disabled cadence_eq => exact nomatch enabled.symm.trans disabled
  | beginsDrag cadence_eq =>
      rw [cadence_eq]
      exact dragOn_beginDrag _
  | endsDrag event_eq cadence_eq => exact absurd event_eq noEnd

theorem Answer.ne_idle {event : Event} (h : Answer dock event dock') (noEnd : event ≠ .dragEnd)
    (enabled : dock'.enabled = true) (timely : dock.cadence.Timely)
    (hphase : dock.cadence.phase ≠ .idle) : dock'.cadence.phase ≠ .idle := by
  cases h with
  | counts ticks cadence_eq =>
      rw [cadence_eq]
      exact hphase
  | rearms cadence_eq =>
      rw [cadence_eq, Cadence.phase_rearm]
      exact hphase
  | wakes ticks start cadence_eq =>
      rw [cadence_eq, Cadence.phase_rearm]
      exact ((Cadence.turn_orderLayouts _ ticks).timely timely).start_ne_idle start
  | restarts start ticks cadence_eq =>
      rw [cadence_eq]
      show Cadence.phase (Cadence.rearm _) ≠ .idle
      rw [Cadence.phase_rearm]
      have hhalted : Cadence.Turn dock.cadence dock.cadence.halt :=
        Cadence.turn_halt timely.obliges
      exact (hhalted.timely timely).start_ne_idle start
  | resets disabled cadence_eq => exact nomatch enabled.symm.trans disabled
  | beginsDrag cadence_eq =>
      rw [cadence_eq]
      exact dock.cadence.beginDrag_ne_idle
  | endsDrag event_eq cadence_eq => exact absurd event_eq noEnd

variable {timers : τ} {handle : TimerHandle} {plan : Plan}

include on in
/-- During a drag a tick suspends the dock, and the end of a quiet period stops the cadence and does
    nothing else.  No other alarm rings. -/
theorem drag_ring_cases (sound : dock.Sound) (timely : dock.cadence.Timely) (obliges : Obliges timers)
    (rings : (timetable dock.cadence.timers).Rings handle plan (timetable timers))
    (step : (dock.withTimers timers).handle host (.alarm plan.alarm) = .ok (dock', commands)) :
    (plan.alarm = .tick ∧ dock'.cadence = (dock.cadence.withTimers timers).suspend) ∨
    (plan.alarm = .quiet ∧ dock.cadence.phase = .running ∧ dock.cadence.quietTimer = some handle ∧
      dock' = { dock with cadence := (dock.cadence.withTimers timers).quietPassed }) := by
  obtain ⟨-, hheld, -⟩ := sound.cadence.accounts.fire
    (fires_of_rings timely.obliges obliges rings)
  rw [show plan.engagement.alarm = plan.alarm from rfl] at hheld
  have henabled := sound.enabled_of_held hheld
  cases halarm : plan.alarm with
  | tick =>
      rw [halarm] at step hheld
      have htimer : dock.cadence.tickTimer = some handle := hheld
      have hrunning := sound.cadence.tick_iff.mp (by rw [htimer]; rfl)
      have hqueued := on.queued (by rw [hrunning]; decide)
      obtain ⟨animated, htick⟩ := tick_of_handle step
      -- only a tick of a running cadence rings, and that has the drag queued
      obtain ⟨hdisabled, -⟩ | ⟨-, -, heq⟩ | ⟨-, hfree, -⟩ | ⟨-, hfree, -⟩ := tick_cases htick
      · exact nomatch henabled.symm.trans hdisabled
      · rw [show dock' = _ from congrArg Prod.fst heq, cadence_withdraw]
        exact .inl ⟨rfl, rfl⟩
      · exact nomatch hqueued.symm.trans hfree
      · exact nomatch hqueued.symm.trans hfree
  | quiet =>
      rw [halarm] at step hheld
      have htimer : dock.cadence.quietTimer = some handle := hheld
      obtain ⟨rfl, -⟩ := Prod.mk.inj (Except.ok.inj step)
      exact .inr ⟨rfl, sound.cadence.quiet_running (by rw [htimer]; rfl), htimer, rfl⟩
  | resume =>
      rw [halarm] at hheld
      exact nomatch hheld.symm.trans on.resumeTimer

include on in
/-- Whatever happens, a drag goes on until its end, unless the dock is disabled. -/
theorem TimedStep.dragOn (h : TimedStep allowed dock occurrence dock')
    (noEnd : occurrence ≠ some .dragEnd) (enabled : dock'.enabled = true) (sound : dock.Sound)
    (timely : dock.cadence.Timely) : dock'.cadence.DragOn := by
  cases h with
  | call host allows call step =>
      exact (called call step).answer.dragOn on (fun heq => noEnd (congrArg some heq)) enabled
  | ring host allows obliges rings step =>
      obtain ⟨-, hcadence⟩ | ⟨-, -, -, rfl⟩ := drag_ring_cases on sound timely obliges rings step
      · rw [hcadence]
        exact ⟨on.resumeTimer, fun hphase => absurd rfl hphase⟩
      · exact (Cadence.sameDrag_halt _).dragOn ⟨on.resumeTimer, on.queued⟩
  | pass obliges passes => exact ⟨on.resumeTimer, on.queued⟩

include on in
/-- And a cadence whose tick leads does not come to rest before that. -/
theorem TimedStep.leads (h : TimedStep allowed dock occurrence dock')
    (noEnd : occurrence ≠ some .dragEnd) (enabled : dock'.enabled = true) (sound : dock.Sound)
    (timely : dock.cadence.Timely) (hphase : dock.cadence.phase ≠ .idle)
    (hleads : dock.cadence.phase = .running → dock.cadence.Leads) :
    dock'.cadence.phase ≠ .idle ∧ (dock'.cadence.phase = .running → dock'.cadence.Leads) := by
  cases h with
  | call host allows call step =>
      have hanswer := (called call step).answer
      exact ⟨hanswer.ne_idle (fun heq => noEnd (congrArg some heq)) enabled timely hphase,
        (hanswer.turn sound.cadence timely).leads hleads⟩
  | ring host allows obliges rings step =>
      obtain ⟨-, hcadence⟩ | ⟨-, hrunning, hquiet, -⟩ :=
        drag_ring_cases on sound timely obliges rings step
      · have hsuspended : dock'.cadence.phase = .suspended := by
          rw [hcadence]
          rfl
        rw [hsuspended]
        exact ⟨by decide, nofun⟩
      · -- the tick was due before the end of the quiet period
        exact absurd hquiet ((hleads hrunning).not_quiet rings)
  | pass obliges passes =>
      refine ⟨hphase, fun hrunning => ?_⟩
      obtain ⟨tick, quiet, next, begun, hguarded, hlt⟩ := hleads hrunning
      exact ⟨tick, quiet, next, begun, hguarded.pass passes, hlt⟩

end Step

/-! ## What is due first -/

/-- The alarm of a pending timer is due at a time. -/
def Due (dock : Dock α τ) (alarm : Alarm) (deadline : Nat) : Prop :=
  ∃ handle every, (timetable dock.cadence.timers).plans handle = some ⟨alarm, deadline, every⟩

/-- While both are pending, a tick is due before the end of the quiet period. -/
def TickFirst (dock : Dock α τ) : Prop :=
  ∀ {next ends : Nat}, dock.Due .tick next → dock.Due .quiet ends → next < ends

/-- The end of the quiet period is due before the next tick. -/
def QuietFirst (dock : Dock α τ) : Prop :=
  ∃ next ends, dock.Due .tick next ∧ dock.Due .quiet ends ∧ ends < next

omit [Scalar α] in
/-- What is due is held. -/
theorem held_of_due {alarm : Alarm} {deadline : Nat} {handle : TimerHandle} {every : Option Nat}
    (sound : dock.Sound) (obliges : Obliges dock.cadence.timers)
    (hplan : (timetable dock.cadence.timers).plans handle = some ⟨alarm, deadline, every⟩) :
    dock.cadence.held alarm = some handle := by
  have hpending : pending dock.cadence.timers handle = some ⟨alarm, every.isSome⟩ := by
    rw [TimedService.pending_eq obliges]
    exact congrArg (Option.map Plan.engagement) hplan
  exact sound.cadence.accounts.held_of_pending hpending

omit [Scalar α] in
/-- Only one timer is pending for an alarm. -/
theorem Due.unique {alarm : Alarm} {deadline deadline' : Nat} (sound : dock.Sound)
    (obliges : Obliges dock.cadence.timers) (h : dock.Due alarm deadline)
    (h' : dock.Due alarm deadline') : deadline = deadline' := by
  obtain ⟨handle, every, hplan⟩ := h
  obtain ⟨handle', every', hplan'⟩ := h'
  have hheld := held_of_due sound obliges hplan
  obtain rfl := Option.some.inj (hheld.symm.trans (held_of_due sound obliges hplan'))
  exact congrArg Plan.deadline (Option.some.inj (hplan.symm.trans hplan'))

omit [Scalar α] in
/-- The tick comes first wherever more than an interval of the quiet period is left. -/
theorem tickFirst_of_lt (sound : dock.Sound) (timely : dock.cadence.Timely)
    (h : ∀ {ends : Nat}, dock.Due .quiet ends →
      (timetable dock.cadence.timers).now + dock.cadence.interval < ends) : dock.TickFirst := by
  rintro next ends ⟨handle, every, hplan⟩ hends
  have htick : dock.cadence.tickTimer = some handle := held_of_due sound timely.obliges hplan
  obtain ⟨tick, quiet, next', begun, hguarded⟩ :=
    timely.guarded (sound.cadence.tick_iff.mp (by rw [htick]; rfl))
  have hdue : dock.Due .tick next' := ⟨tick, _, hguarded.tick_plan⟩
  obtain rfl := hdue.unique sound timely.obliges ⟨handle, every, hplan⟩
  exact Nat.lt_of_le_of_lt hguarded.next_le (h hends)

/-! ## What a drag comes to -/

/-- What a drag comes to that begins now. -/
structure DragFollowed (allowed : Host α → Prop) (dock : Dock α τ) : Prop where
  /-- The dock is suspended, or has the drag queued. -/
  waits : ∀ {dock' : Dock α τ}, Dragging allowed dock dock' →
    dock'.cadence.phase = .suspended ∨ dock'.cadence.dragQueued = true
  /-- Every tick suspends. -/
  tick_suspends : ∀ {dock₁ dock' : Dock α τ}, Dragging allowed dock dock₁ →
    TimedStep allowed dock₁ (some (.alarm .tick)) dock' → dock'.cadence.phase = .suspended
  /-- Where a tick is due first, the cadence does not rest before the drag ends. -/
  never_idle : dock.TickFirst → ∀ {dock' : Dock α τ}, Dragging allowed dock dock' →
    dock'.cadence.phase = .suspended ∨
      (dock'.cadence.phase = .running ∧ dock'.cadence.dragQueued = true)
  /-- Where the end of the quiet period is due first, the first alarm of the drag stops the cadence.
      It rests with the drag still queued, and all tiles are still there. -/
  idles : dock.QuietFirst → ∀ (host : Host α) {begun dock' : Dock α τ}
    {commands : List (Command α)} {alarm : Alarm},
    allowed host → dock.handle host .dragBegin = .ok (begun, commands) →
    TimedStep allowed begun (some (.alarm alarm)) dock' →
    alarm = .quiet ∧ dock'.cadence.phase = .idle ∧ dock'.cadence.dragQueued = true ∧
      dock'.row = dock.row

/-- A drag goes on from its beginning on. -/
theorem Dragging.dragOn (h : Timed allowed dock) (drag : Dragging allowed dock dock') :
    dock'.cadence.DragOn := by
  induction drag with
  | begins host allows enabled step =>
      rw [(begun_of_enabled enabled step).1]
      exact dock.cadence.dragOn_beginDrag
  | lasts before step noEnd enabled ih =>
      have htimed := h.dragging before
      exact step.dragOn ih noEnd enabled htimed.sound htimed.timely

/-- If the tick leads as it begins, then the cadence does not come to rest. -/
theorem Dragging.leads (h : Timed allowed dock) (first : dock.TickFirst)
    (drag : Dragging allowed dock dock') :
    dock'.cadence.phase ≠ .idle ∧ (dock'.cadence.phase = .running → dock'.cadence.Leads) := by
  induction drag with
  | begins host allows enabled step =>
      rw [(begun_of_enabled enabled step).1]
      refine ⟨dock.cadence.beginDrag_ne_idle, (h.timely.turn_beginDrag h.sound.cadence).leads ?_⟩
      intro hrunning
      obtain ⟨tick, quiet, next, begun, hguarded⟩ := h.timely.guarded hrunning
      exact ⟨tick, quiet, next, begun, hguarded,
        first ⟨tick, _, hguarded.tick_plan⟩ ⟨quiet, _, hguarded.quiet_plan⟩⟩
  | lasts before step noEnd enabled ih =>
      have htimed := h.dragging before
      exact step.leads (before.dragOn h) noEnd enabled htimed.sound htimed.timely ih.1 ih.2

/-- A tick in a drag suspends. -/
theorem Timed.tick_suspends (h : Timed allowed dock) (on : dock.cadence.DragOn)
    (tick : TimedStep allowed dock (some (.alarm .tick)) dock') :
    dock'.cadence.phase = .suspended := by
  obtain ⟨host, timers, handle, plan, commands, -, obliges, halarm, rings, step⟩ := tick.ring_cases
  obtain ⟨-, hcadence⟩ | ⟨hquiet, -⟩ := drag_ring_cases on h.sound h.timely obliges rings step
  · rw [hcadence]
    rfl
  · exact nomatch halarm.symm.trans hquiet

/-- Where the quiet period ends first, the drag finds the cadence running and leaves the timers as
    they are. -/
theorem begun_of_quietFirst (h : Timed allowed dock) (first : dock.QuietFirst) {begun : Dock α τ}
    (step : dock.handle host .dragBegin = .ok (begun, commands)) :
    begun.cadence.DragOn ∧ begun.cadence.timers = dock.cadence.timers ∧ begun.row = dock.row := by
  obtain ⟨next, ends, -, ⟨handle, every, hplan⟩, -⟩ := first
  have hquiet : dock.cadence.quietTimer = some handle :=
    held_of_due h.sound h.timely.obliges hplan
  have hrunning := h.sound.cadence.quiet_running (by rw [hquiet]; rfl)
  have henabled := h.sound.enabled_of_held (a := .quiet) hquiet
  have hresume : dock.cadence.resumeTimer = none :=
    h.sound.cadence.resumeTimer_eq_none (by rw [hrunning]; decide)
  obtain ⟨hcadence, hrow⟩ := begun_of_enabled henabled step
  have hbegin := Cadence.beginDrag_of_running hrunning hresume
  refine ⟨?_, ?_, hrow ?_⟩
  · rw [hcadence]
    exact dock.cadence.dragOn_beginDrag
  · rw [hcadence, hbegin]
  · rw [hbegin]
    show dock.cadence.phase ≠ .suspended
    rw [hrunning]
    decide

/-- **A DRAG FINDS THE CADENCE IDLE** only where the quiet period ends before the next tick. -/
theorem Timed.dragFollowed (h : Timed allowed dock) : dock.DragFollowed allowed where
  waits := by
    intro dock' drag
    by_cases hsuspended : dock'.cadence.phase = .suspended
    · exact .inl hsuspended
    · exact .inr ((drag.dragOn h).queued hsuspended)
  tick_suspends drag tick := (h.dragging drag).tick_suspends (drag.dragOn h) tick
  never_idle := by
    intro first dock' drag
    have hidle := (drag.leads h first).1
    have hqueued := (drag.dragOn h).queued
    cases hphase : dock'.cadence.phase with
    | idle => exact absurd hphase hidle
    | running => exact .inr ⟨rfl, hqueued (by rw [hphase]; decide)⟩
    | suspended => exact .inl rfl
  idles := by
    intro first host begun dock' commands alarm allows hbegin ring
    obtain ⟨hon, htimers, hrow⟩ := begun_of_quietFirst h first hbegin
    obtain ⟨next, ends, htick, ⟨quiet, every, hquiet⟩, hlt⟩ := first
    have htimed := h.call host .dragBegin allows nofun hbegin
    obtain ⟨_, timers, handle, plan, _, -, obliges, rfl, rings, step⟩ := ring.ring_cases
    obtain ⟨halarm, -⟩ | ⟨halarm, hrunning, -, rfl⟩ :=
      drag_ring_cases hon htimed.sound htimed.timely obliges rings step
    · -- a tick would have to be due no later than the end of the quiet period
      rw [htimers] at rings
      have hdue : dock.Due .tick plan.deadline := ⟨handle, plan.every, halarm ▸ rings.planned⟩
      have hle : plan.deadline ≤ ends := rings.first hquiet
      rw [hdue.unique h.sound h.timely.obliges htick] at hle
      exact absurd hle (Nat.not_le.mpr hlt)
    · refine ⟨halarm, ?_, hon.queued (by rw [hrunning]; decide), hrow⟩
      show (if begun.cadence.phase = .running then Cadence.Phase.idle else _) = .idle
      exact if_pos hrunning

/-- A favorite of a standard dock. -/
private def oneIcon : Host Float where
  settings := .standard
  geometry := .standard
  icons := [Icon.favorite 1 ⟨0.0, 0.0⟩]

set_option maxRecDepth 2048 in
/-- A tick is late, and the next one is due 10 milliseconds after the end of the quiet period.  A drag
    that begins in between finds the cadence idle when the quiet period ends, with its one tile still
    there. -/
theorem dragFollowed_after_late_tick : ∃ dock begun dock' : Dock Float Chronicle,
    Timed (fun _ => True) dock ∧ Dragging (fun _ => True) dock begun ∧
    TimedStep (fun _ => True) begun (some (.alarm .quiet)) dock' ∧
    dock'.cadence.phase = .idle ∧ dock'.cadence.dragQueued = true ∧
    dock'.row.tiles.length = 1 := by
  have hnew : Timed (fun _ => True) (new Chronicle.start : Dock Float Chronicle) :=
    .new _ Chronicle.start_isObliging fun _ => rfl
  have henabled := hnew.call oneIcon .enable trivial nofun rfl
  have hwoken := henabled.call oneIcon .pointerEnter trivial nofun rfl
  have hobliges := hwoken.timely.obliges
  obtain ⟨-, hticked⟩ := hwoken.ring oneIcon trivial hobliges.ring
    (Chronicle.rings ⟨0, .tick, milliseconds 15, some (milliseconds 15)⟩ (milliseconds 760)
      (milliseconds 775) hobliges rfl) rfl
  have hbegun := hticked.call oneIcon .dragBegin trivial nofun rfl
  have hobliges' := hbegun.timely.obliges
  obtain ⟨hquiet, -⟩ := hbegun.ring oneIcon trivial hobliges'.ring
    (Chronicle.rings ⟨1, .quiet, milliseconds 765, none⟩ (milliseconds 765) 0 hobliges' rfl) rfl
  obtain ⟨-, hidle, hqueued, hrow⟩ := hticked.dragFollowed.idles
    ⟨milliseconds 775, milliseconds 765, ⟨0, some (milliseconds 15), rfl⟩, ⟨1, none, rfl⟩, by decide⟩
    oneIcon trivial rfl hquiet
  exact ⟨_, _, _, hticked, .begins oneIcon trivial rfl rfl, hquiet, hidle, hqueued, hrow ▸ rfl⟩

end Dock

end FisheyeDock
