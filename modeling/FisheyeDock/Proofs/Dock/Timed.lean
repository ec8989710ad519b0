import FisheyeDock.Proofs.Cadence.Timely
import FisheyeDock.Proofs.Dock.Staging
import FisheyeDock.Proofs.Dock.Timers

/-! # Runs in time

    In a `Timed` run nothing but the timers sends alarms, and the timers keep their time.  Such a run
    is one of the runs that `Reached` speaks of, and the deadlines of its cadence are in order at any
    moment (`Timed.timely`).

    What a caller asks for is taken apart once more, for what it does to the cadence (`Answer`) and
    to the row (`row_of_call`). -/

namespace FisheyeDock.Dock

open Scene (Command)
open TimerService

variable {α τ : Type} [Scalar α] [TimerService τ]
variable {dock dock' : Dock α τ} {host : Host α} {commands : List (Command α)}

/-! ## Calls -/

/-- What the event of a caller comes to for the cadence. -/
inductive Answer (dock : Dock α τ) (event : Event) (dock' : Dock α τ) : Prop where
  | counts (ticks : Nat) (cadence_eq : dock'.cadence = dock.cadence.orderLayouts ticks)
  | rearms (cadence_eq : dock'.cadence = dock.cadence.rearm)
  | wakes {fps : α} {cadence : Cadence τ} (ticks : Nat)
      (start : (dock.cadence.orderLayouts ticks).start fps = .ok cadence)
      (cadence_eq : dock'.cadence = cadence.rearm)
  | restarts {fps : α} {cadence : Cadence τ} (start : dock.cadence.halt.start fps = .ok cadence)
      (ticks : Nat) (cadence_eq : dock'.cadence = cadence.rearm.orderLayouts ticks)
      (event_eq : event = .focusChanged)
  | resets (disabled : dock'.enabled = false) (cadence_eq : dock'.cadence = dock.cadence.reset)
      (event_eq : event = .disable)
  | beginsDrag (cadence_eq : dock'.cadence = dock.cadence.beginDrag) (event_eq : event = .dragBegin)
  | endsDrag (event_eq : event = .dragEnd) (cadence_eq : dock'.cadence = dock.cadence.endDrag)

/-- A call is answered by the cadence, and leaves the row as it is or empties it. -/
structure Called (dock : Dock α τ) (event : Event) (dock' : Dock α τ) : Prop where
  answer : Answer dock event dock'
  row : dock'.row = dock.row ∨ dock'.row.tiles = []

section Calls

variable {event : Event} {dock₁ : Dock α τ} {settings : Settings α}

/-- Nothing but the order for layouts has changed. -/
theorem Called.of_counts (ticks : Nat) (cadence : dock'.cadence = dock.cadence.orderLayouts ticks)
    (row : dock'.row = dock.row) : Called dock event dock' :=
  ⟨.counts ticks cadence, .inl row⟩

/-- Neither cadence nor row has changed. -/
theorem Called.of_eq (cadence : dock'.cadence = dock.cadence) (row : dock'.row = dock.row) :
    Called dock event dock' :=
  .of_counts dock.cadence.layoutsLeft cadence row

omit [Scalar α] [TimerService τ] in
/-- To leave the scene does not concern the cadence. -/
theorem cadence_withdraw (dock : Dock α τ) : dock.withdraw.1.cadence = dock.cadence := by
  rw [withdraw_fst]

omit [Scalar α] [TimerService τ] in
/-- No tile is left in the row. -/
theorem tiles_withdraw (dock : Dock α τ) : dock.withdraw.1.row.tiles = [] := by
  rw [withdraw_fst]
  rfl

/-- A withdrawal once the cadence has given its answer. -/
theorem Called.of_withdraw (answer : Answer dock event dock₁.withdraw.1) :
    Called dock event dock₁.withdraw.1 :=
  ⟨answer, .inr (tiles_withdraw dock₁)⟩

/-- Waking starts the cadence, and begins a quiet period. -/
theorem Called.of_wake (hwake : dock₁.wake settings = .ok dock') (ticks : Nat)
    (cadence : dock₁.cadence = dock.cadence.orderLayouts ticks) (row : dock₁.row = dock.row) :
    Called dock event dock' := by
  obtain ⟨-, rfl⟩ | ⟨-, started, hstart, rfl⟩ := wake_cases hwake
  · exact .of_counts ticks cadence row
  · rw [cadence] at hstart
    exact ⟨.wakes ticks hstart rfl, .inl row⟩

/-- A change of focus wakes the dock, unless it is suspended. -/
theorem called_focusChanged (h : dock.focusChanged settings = .ok dock') :
    Called dock .focusChanged dock' := by
  unfold focusChanged at h
  by_cases henabled : dock.enabled = true
  · rw [if_pos henabled] at h
    obtain ⟨woken, hwake, hdone⟩ := bind_eq_ok_iff.mp h
    obtain rfl := Except.ok.inj hdone
    obtain ⟨hdisabled, -⟩ | ⟨-, started, hstart, rfl⟩ := wake_cases hwake
    · exact nomatch henabled.symm.trans hdisabled
    · exact ⟨.restarts hstart _ rfl rfl, .inl rfl⟩
  · rw [if_neg henabled] at h
    obtain rfl := Except.ok.inj h
    exact .of_eq rfl rfl

/-- The beginning of a drag is answered by the cadence. -/
theorem called_dragBegin : Called dock .dragBegin dock.dragBegin.1 := by
  unfold dragBegin
  split
  · dsimp only
    split
    · exact .of_withdraw (.beginsDrag (cadence_withdraw _) rfl)
    · exact ⟨.beginsDrag rfl rfl, .inl rfl⟩
  · exact .of_eq rfl rfl

theorem called_dragEnd : Called dock .dragEnd dock.dragEnd.1 := by
  unfold dragEnd
  split
  · dsimp only
    split
    · exact .of_withdraw (.endsDrag rfl (cadence_withdraw _))
    · exact ⟨.endsDrag rfl rfl, .inl rfl⟩
  · exact .of_eq rfl rfl

/-- What any call comes to. -/
theorem called (call : ∀ alarm, event ≠ .alarm alarm)
    (h : dock.handle host event = .ok (dock', commands)) : Called dock event dock' := by
  cases event with
  | enable =>
      rw [eq_of_handle h rfl]
      show Called dock _ (dock.enable host.settings)
      unfold enable
      split
      · exact .of_eq rfl rfl
      · exact .of_counts Cadence.longLayout rfl rfl
  | disable =>
      rw [eq_of_handle h rfl]
      unfold disable
      split
      · exact .of_withdraw (.resets (by rw [withdraw_fst]) (cadence_withdraw _) rfl)
      · exact .of_eq rfl rfl
  | pointerEnter | pointerMotion =>
      obtain ⟨hwake, -⟩ := ok_of_silent h
      exact .of_wake hwake dock.cadence.layoutsLeft rfl rfl
  | pointerLeave =>
      rw [eq_of_handle h rfl]
      exact ⟨.rearms rfl, .inl rfl⟩
  | focusChanged =>
      obtain ⟨hfocus, -⟩ := ok_of_silent h
      exact called_focusChanged hfocus
  | fullscreenChanged =>
      rw [eq_of_handle h rfl]
      unfold fullscreenChanged
      split
      · rw [showLayers_fst]
        exact .of_eq rfl rfl
      · exact .of_eq rfl rfl
  | dragBegin =>
      rw [eq_of_handle h rfl]
      exact called_dragBegin
  | dragEnd =>
      rw [eq_of_handle h rfl]
      exact called_dragEnd
  | preview on =>
      obtain ⟨hpreview, -⟩ := ok_of_silent h
      cases on with
      | true =>
          rw [preview, if_pos rfl] at hpreview
          exact .of_wake hpreview dock.cadence.layoutsLeft rfl rfl
      | false =>
          obtain rfl := Except.ok.inj hpreview
          exact .of_eq rfl rfl
  | relayout =>
      obtain ⟨hrelayout, -⟩ := ok_of_silent h
      unfold relayout at hrelayout
      exact .of_wake hrelayout Cadence.longLayout rfl rfl
  | alarm alarm => exact absurd rfl (call alarm)

end Calls

section Timed

variable [TimedService τ] {allowed : Host α → Prop}

/-! ## What an operation does to the deadlines -/

open Cadence (Alike Turn turn_orderLayouts turn_halt turn_suspend turn_reset)

/-- Whatever the answer to a call is, it is a turn. -/
theorem Answer.turn {event : Event} (h : Answer dock event dock') (sound : dock.cadence.Sound)
    (timely : dock.cadence.Timely) : Turn dock.cadence dock'.cadence := by
  cases h with
  | counts ticks cadence_eq =>
      rw [cadence_eq]
      exact turn_orderLayouts _ ticks
  | rearms cadence_eq =>
      rw [cadence_eq]
      exact timely.turn_rearm
  | wakes ticks start cadence_eq =>
      rw [cadence_eq]
      have hordered := turn_orderLayouts dock.cadence ticks
      exact hordered.trans ((hordered.timely timely).turn_start (sound.orderLayouts ticks) start)
  | restarts start ticks cadence_eq =>
      rw [cadence_eq]
      have hhalted : Turn dock.cadence dock.cadence.halt := turn_halt timely.obliges
      exact (hhalted.trans ((hhalted.timely timely).turn_start sound.halt start)).trans
        (turn_orderLayouts _ ticks)
  | resets disabled cadence_eq =>
      rw [cadence_eq]
      exact turn_reset timely.obliges
  | beginsDrag cadence_eq =>
      rw [cadence_eq]
      exact timely.turn_beginDrag sound
  | endsDrag event_eq cadence_eq =>
      rw [cadence_eq]
      exact timely.turn_endDrag

omit [Scalar α] in
theorem turn_disable (timely : dock.cadence.Timely) :
    Turn dock.cadence dock.disable.1.cadence := by
  unfold disable
  split
  · rw [cadence_withdraw]
    exact turn_reset timely.obliges
  · exact .keeps (.refl _)

omit [TimerService τ] [TimedService τ] in
/-- Bringing the row up to date may order or count layouts, and is nothing else to the cadence. -/
theorem cadence_updated (dock : Dock α τ) (host : Host α) :
    ∃ ticks, (dock.updated host).cadence = dock.cadence.orderLayouts ticks := by
  have htaken : ∃ ticks, dock.cadence.takeLayout.2 = dock.cadence.orderLayouts ticks := by
    unfold Cadence.takeLayout
    split
    · exact ⟨dock.cadence.layoutsLeft, rfl⟩
    · exact ⟨_, rfl⟩
  show ∃ ticks, (if (_ : Nat) = _ then _ else _ : Cadence τ) = dock.cadence.orderLayouts ticks
  split
  · exact htaken
  · obtain ⟨ticks, htaken⟩ := htaken
    have hordered := congrArg (Cadence.orderLayouts · Cadence.shortLayout) htaken
    exact ⟨Cadence.shortLayout, hordered⟩

omit [TimerService τ] [TimedService τ] in
/-- An update counts layouts down, which changes no deadline. -/
theorem alike_updated (dock : Dock α τ) (host : Host α) :
    Alike dock.cadence (dock.updated host).cadence := by
  obtain ⟨ticks, heq⟩ := cadence_updated dock host
  rw [heq]
  exact ⟨rfl, rfl, rfl, rfl, rfl⟩

omit [TimerService τ] [TimedService τ] in
theorem timers_updated (dock : Dock α τ) (host : Host α) :
    (dock.updated host).cadence.timers = dock.cadence.timers :=
  (alike_updated dock host).timers

theorem turn_updated (dock : Dock α τ) (host : Host α) :
    Turn dock.cadence (dock.updated host).cadence :=
  .keeps (alike_updated dock host)

theorem turn_tick {animated : Bool} (timely : dock.cadence.Timely)
    (htick : dock.tick host = .ok (dock', commands, animated)) :
    Turn dock.cadence dock'.cadence := by
  obtain ⟨-, rfl, -⟩ | ⟨-, -, heq⟩ | ⟨-, -, -, heq⟩ | ⟨-, -, -, shown, hanimate, -⟩ :=
    tick_cases htick
  · exact .keeps (.refl _)
  · rw [show dock' = _ from congrArg Prod.fst heq, cadence_withdraw]
    exact turn_suspend timely.obliges
  · rw [show dock' = _ from congrArg Prod.fst heq]
    exact turn_disable timely
  · have hupdated := turn_updated dock host
    obtain ⟨_, _, _, _, _, _, _, rfl⟩ := animate_cases hanimate
    show Turn dock.cadence (if _ then _ else _ : Cadence τ)
    split
    · exact hupdated.trans (hupdated.timely timely).turn_rearm
    · exact hupdated

/-! ## Runs -/

/-- One thing that happens to a dock in time, and the event that it is to the dock, if any.  The
    host tells nothing that is not allowed. -/
inductive TimedStep (allowed : Host α → Prop) (dock : Dock α τ) :
    Option Event → Dock α τ → Prop where
  | call {dock' : Dock α τ} {commands : List (Command α)} {event : Event} (host : Host α)
      (allows : allowed host) (call : ∀ alarm, event ≠ .alarm alarm)
      (step : dock.handle host event = .ok (dock', commands)) :
      TimedStep allowed dock (some event) dock'
  | ring {dock' : Dock α τ} {commands : List (Command α)} {timers : τ} {handle : TimerHandle}
      {plan : Plan} (host : Host α) (allows : allowed host) (obliges : Obliges timers)
      (rings : (timetable dock.cadence.timers).Rings handle plan (timetable timers))
      (step : (dock.withTimers timers).handle host (.alarm plan.alarm) = .ok (dock', commands)) :
      TimedStep allowed dock (some (.alarm plan.alarm)) dock'
  | pass {timers : τ} (obliges : Obliges timers)
      (passes : (timetable dock.cadence.timers).Passes (timetable timers)) :
      TimedStep allowed dock none (dock.withTimers timers)

/-- The docks that a run in time leads to. -/
inductive Timed (allowed : Host α → Prop) : Dock α τ → Prop where
  | new (timers : τ) (obliges : Obliges timers)
      (nothing : ∀ handle, (timetable timers).plans handle = none) : Timed allowed (new timers)
  | step {dock dock' : Dock α τ} {occurrence : Option Event} (before : Timed allowed dock)
      (step : TimedStep allowed dock occurrence dock') : Timed allowed dock'

/-- A call leads from one dock in time to another. -/
theorem Timed.call {commands : List (Command α)} (h : Timed allowed dock) (host : Host α)
    (event : Event) (allows : allowed host) (call : ∀ alarm, event ≠ .alarm alarm)
    (step : dock.handle host event = .ok (dock', commands)) : Timed allowed dock' :=
  h.step (.call host allows call step)

/-- An alarm rings, and the run goes on. -/
theorem Timed.ring {timers : τ} {handle : TimerHandle} {plan : Plan} (h : Timed allowed dock)
    (host : Host α) (allows : allowed host) (obliges : Obliges timers)
    (rings : (timetable dock.cadence.timers).Rings handle plan (timetable timers))
    (step : (dock.withTimers timers).handle host (.alarm plan.alarm) = .ok (dock', commands)) :
    TimedStep allowed dock (some (.alarm plan.alarm)) dock' ∧ Timed allowed dock' := by
  have hstep : TimedStep allowed dock (some (.alarm plan.alarm)) dock' :=
    .ring host allows obliges rings step
  exact ⟨hstep, h.step hstep⟩

/-- An alarm is a pending timer that rings. -/
theorem TimedStep.ring_cases {alarm : Alarm}
    (h : TimedStep allowed dock (some (.alarm alarm)) dock') :
    ∃ host timers handle plan commands, allowed host ∧ Obliges timers ∧ plan.alarm = alarm ∧
      (timetable dock.cadence.timers).Rings handle plan (timetable timers) ∧
      (dock.withTimers timers).handle host (.alarm plan.alarm) = .ok (dock', commands) := by
  generalize hoccurrence : some (Event.alarm alarm) = occurrence at h
  cases h with
  | call host allows call step => exact absurd (Option.some.inj hoccurrence).symm (call alarm)
  | ring host allows obliges rings step =>
      exact ⟨host, _, _, _, _, allows, obliges, (Event.alarm.inj (Option.some.inj hoccurrence)).symm,
        rings, step⟩
  | pass obliges passes => exact nomatch hoccurrence

/-- What a step in time comes to for the row and for the deadlines. -/
inductive Beat (allowed : Host α → Prop) (dock dock' : Dock α τ) : Prop where
  | turns (turn : Turn dock.cadence dock'.cadence)
      (row : dock'.row = dock.row ∨ dock'.row.tiles = [])
  | passes {timers : τ} (obliges : Obliges timers)
      (passes : (timetable dock.cadence.timers).Passes (timetable timers))
      (dock_eq : dock' = dock.withTimers timers)
  | ticks {timers : τ} {handle : TimerHandle} {plan : Plan} {host : Host α}
      {commands : List (Command α)} {animated : Bool} (allows : allowed host)
      (running : dock.cadence.phase = .running) (tick_held : dock.cadence.tickTimer = some handle)
      (obliges : Obliges timers)
      (rings : (timetable dock.cadence.timers).Rings handle plan (timetable timers))
      (tick : (dock.withTimers timers).tick host = .ok (dock', commands, animated))

/-- The end of a pause is a turn: the cadence starts again. -/
theorem turn_resume {settings : Settings α} {timers : τ} (sound : dock.Sound)
    (obliges : Obliges timers) (suspended : dock.cadence.phase = .suspended)
    (acc : Accounts timers (Function.update dock.cadence.held .resume none))
    (h : (dock.withTimers timers).resume settings = .ok dock') :
    Turn dock.cadence dock'.cadence := by
  have hsound := sound.cadence.resume acc
  have hended : (dock.cadence.withTimers timers).resume = _ := Cadence.resume_of_suspended suspended
  rw [hended] at hsound
  rw [Dock.resume, show (dock.withTimers timers).cadence.resume = _ from hended] at h
  have hidle : ∀ ticks : Nat, Turn dock.cadence
      (Cadence.orderLayouts { dock.cadence with timers, resumeTimer := none, phase := .idle }
        ticks) := fun ticks => .stops obliges (show Cadence.Phase.idle ≠ .running by decide)
  obtain ⟨-, rfl⟩ | ⟨-, started, hstart, rfl⟩ := wake_cases h
  · exact hidle _
  · refine (hidle _).trans (Cadence.Timely.turn_start ?_ (hsound.orderLayouts _) hstart)
    exact ⟨obliges, nofun⟩

/-- A step in time is a beat. -/
theorem TimedStep.beat {occurrence : Option Event} (h : TimedStep allowed dock occurrence dock')
    (sound : dock.Sound) (timely : dock.cadence.Timely) : Beat allowed dock dock' := by
  cases h with
  | call host allows call step =>
      obtain ⟨hanswer, hrow⟩ := called call step
      exact .turns (hanswer.turn sound.cadence timely) hrow
  | pass obliges passes => exact .passes obliges passes rfl
  | @ring _ _ timers handle plan host allows obliges rings step =>
      obtain ⟨-, hheld, hacc⟩ := sound.cadence.accounts.fire
        (fires_of_rings timely.obliges obliges rings)
      rw [show plan.engagement.alarm = plan.alarm from rfl] at hheld hacc
      cases halarm : plan.alarm with
      | tick =>
          rw [halarm] at step hheld
          obtain ⟨animated, htick⟩ := tick_of_handle step
          have htimer : dock.cadence.tickTimer = some handle := hheld
          have hrunning := sound.cadence.tick_iff.mp (by rw [htimer]; rfl)
          exact .ticks allows hrunning htimer obliges rings htick
      | quiet =>
          rw [halarm] at step
          obtain ⟨rfl, -⟩ := Prod.mk.inj (Except.ok.inj step)
          exact .turns (turn_halt obliges) (.inl rfl)
      | resume =>
          rw [halarm] at step hheld hacc
          obtain ⟨hresume, -⟩ := resume_of_handle step
          have htimer : dock.cadence.resumeTimer = some handle := hheld
          have hsuspended := sound.cadence.resume_suspended (by rw [htimer]; rfl)
          exact .turns (turn_resume sound obliges hsuspended hacc hresume)
            (.inl (resume_keeps hresume).1)

/-- What a step in time leads to is reached. -/
theorem TimedStep.reached {occurrence : Option Event} (h : TimedStep allowed dock occurrence dock')
    (before : Reached dock) (timely : dock.cadence.Timely) : Reached dock' := by
  cases h with
  | call host allows call step => exact before.event host _ call step
  | ring host allows obliges rings step =>
      exact before.fire host (fires_of_rings timely.obliges obliges rings) step
  | pass obliges passes => exact before.drift (drifts_of_passes timely.obliges obliges passes)

/-- A beat keeps a cadence timely. -/
theorem Beat.timely (h : Beat allowed dock dock') (timely : dock.cadence.Timely) :
    dock'.cadence.Timely := by
  cases h with
  | turns turn row => exact turn.timely timely
  | passes obliges passes dock_eq =>
      rw [dock_eq]
      exact timely.pass obliges passes
  | ticks allows running tick_held obliges rings tick =>
      obtain ⟨hrung, -⟩ := timely.ring_tick running tick_held obliges rings
      exact (turn_tick hrung tick).timely hrung

/-- What is in time is reached, and its cadence is timely. -/
theorem Timed.reached_and_timely (h : Timed allowed dock) :
    Reached dock ∧ dock.cadence.Timely := by
  induction h with
  | new timers obliges nothing =>
      refine ⟨.new timers (TimedService.proper_of_obliges obliges) ?_, obliges, nofun⟩
      intro handle
      rw [TimedService.pending_eq obliges]
      exact congrArg (Option.map Plan.engagement) (nothing handle)
  | step before step ih =>
      -- neither goes alone: a ring is a step of the run because of the deadlines, and what the step
      -- does to the deadlines is known from what the dock holds
      obtain ⟨hreached, htimely⟩ := ih
      exact ⟨step.reached hreached htimely, (step.beat hreached.sound htimely).timely htimely⟩

/-- A run in time is a run. -/
theorem Timed.reached (h : Timed allowed dock) : Reached dock := h.reached_and_timely.1

theorem Timed.sound (h : Timed allowed dock) : dock.Sound := h.reached.sound

/-- At any moment of a run in time the deadlines are in order. -/
theorem Timed.timely (h : Timed allowed dock) : dock.cadence.Timely := h.reached_and_timely.2

/-- When the quiet period has passed, the cadence comes to rest and the row stays as it is.  The ticks
    since the quiet period was begun have filled it. -/
theorem Timed.quiet_passed (h : Timed allowed dock)
    (quiet : TimedStep allowed dock (some (.alarm .quiet)) dock') :
    dock.cadence.phase = .running ∧ dock'.cadence.phase = .idle ∧ dock'.row = dock.row ∧
      Cadence.quietPeriod ≤ dock.cadence.delays.length * dock.cadence.interval
        + dock.cadence.delays.sum := by
  obtain ⟨host, timers, handle, plan, commands, -, obliges, halarm, hrings, hstep⟩ :=
    quiet.ring_cases
  obtain ⟨-, hheld, -⟩ := h.sound.cadence.accounts.fire
    (fires_of_rings h.timely.obliges obliges hrings)
  rw [show plan.engagement.alarm = .quiet from halarm] at hheld
  rw [halarm] at hstep
  have htimer : dock.cadence.quietTimer = some handle := hheld
  have hrunning := h.sound.cadence.quiet_running (by rw [htimer]; rfl)
  obtain ⟨tick, quiet, next, begun, hguarded⟩ := h.timely.guarded hrunning
  obtain rfl := Option.some.inj (htimer.symm.trans hguarded.quiet_held)
  obtain ⟨rfl, -⟩ := Prod.mk.inj (Except.ok.inj hstep)
  refine ⟨hrunning, ?_, rfl, hguarded.quietPeriod_le hrings⟩
  show (if dock.cadence.phase = .running then Cadence.Phase.idle else _) = .idle
  exact if_pos hrunning

end Timed

end FisheyeDock.Dock
