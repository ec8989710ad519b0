import FisheyeDock.Proofs.Cadence.Armed
import FisheyeDock.Proofs.Dock.Driven

/-! # Runs whose requests for timers are noted

    A `Noted` run is a `Driven` one of a dock whose timer service keeps a logbook.  Any request may
    be refused.  What the logbook tells at a moment when the cadence runs is settled by what has
    happened: the tick repeats at the interval of the latest start (`Moment.starts`), whatever the
    settings have become since, and the cadence stops on its own exactly if the latest request for a
    quiet period was granted. -/

namespace FisheyeDock.Dock

open Scene (Command)
open TimerService

variable {α τ : Type} [Scalar α]

/-! ## What starts the cadence -/

/-- Whether an event starts the cadence, as long as a timer for it can be had. -/
def startsOn (dock : Dock α τ) : Event → Bool
  | .pointerEnter | .pointerMotion | .relayout | .preview true =>
    dock.enabled && decide (dock.cadence.phase = .idle)
  | .focusChanged => dock.enabled && decide (dock.cadence.phase ≠ .suspended)
  | .alarm .resume => dock.enabled && decide (dock.cadence.phase = .suspended)
  | _ => false

def Moment.starts (moment : Moment α τ) : Bool := moment.dock.startsOn moment.event

/-- The time between two ticks that the settings ask for at a moment. -/
def Moment.interval (moment : Moment α τ) : Except Fault Nat :=
  Cadence.intervalFor moment.host.settings.magnification.fps

/-- The time between two ticks that was asked for at the latest start. -/
def pace (past : List (Moment α τ)) : Option Nat :=
  (past.find? Moment.starts).bind fun start => start.interval.toOption

/-- The pace of a run is that of its latest start. -/
theorem pace_cons (moment : Moment α τ) (past : List (Moment α τ)) :
    pace (moment :: past) =
      if moment.starts then moment.interval.toOption else pace past := by
  unfold pace
  rw [List.find?_cons]
  cases moment.starts <;> rfl

/-- A pace comes from the moment that it was started at. -/
theorem pace_eq_some {past : List (Moment α τ)} {interval : Nat} (h : pace past = some interval) :
    ∃ start, past.find? Moment.starts = some start ∧ start.interval = .ok interval := by
  obtain ⟨start, hstart, hinterval⟩ := Option.bind_eq_some_iff.mp h
  refine ⟨start, hstart, ?_⟩
  cases hstarted : start.interval with
  | ok other =>
      rw [hstarted] at hinterval
      exact congrArg Except.ok (Option.some.inj hinterval)
  | error fault =>
      rw [hstarted] at hinterval
      exact nomatch hinterval

/-! ## Every event leaves the cadence armed -/

variable [TimerService τ] [LawfulTimerService τ]
variable {dock dock' : Dock α (Logbook τ)} {host : Host α} {event : Event}
variable {commands : List (Command α)} {past : List (Moment α (Logbook τ))}

section Armed

variable {settings : Settings α} {before : Option Nat}

/-- A dock that wakes starts at the interval of its setting, if it rests and is enabled. -/
theorem armed_wake (dock : Dock α (Logbook τ)) (armed : dock.cadence.Armed before)
    (h : dock.wake settings = .ok dock') :
    dock'.cadence.Armed (if dock.enabled && decide (dock.cadence.phase = .idle) then
      (Cadence.intervalFor settings.magnification.fps).toOption else before) := by
  obtain ⟨hdisabled, rfl⟩ | ⟨henabled, started, hstart, rfl⟩ := wake_cases h
  · rw [hdisabled]
    exact armed
  · rw [henabled, Bool.true_and]
    have hstarted := armed.backed.start hstart
    simp only [decide_eq_true_eq]
    exact hstarted.rearm

theorem armed_focusChanged (armed : dock.cadence.Armed before)
    (h : dock.focusChanged settings = .ok dock') :
    dock'.cadence.Armed (if dock.enabled && decide (dock.cadence.phase ≠ .suspended) then
      (Cadence.intervalFor settings.magnification.fps).toOption else before) := by
  unfold focusChanged at h
  by_cases henabled : dock.enabled = true
  · rw [if_pos henabled] at h
    obtain ⟨woken, hwake, hdone⟩ := bind_eq_ok_iff.mp h
    obtain rfl := Except.ok.inj hdone
    -- unless suspended, a cadence that has been halted is at rest and starts
    have hhalted : dock.cadence.halt.Armed before := Cadence.armed_halt armed.backed.backs
    have hwoken := armed_wake { dock with cadence := dock.cadence.halt } hhalted hwake
    have hidle : dock.cadence.halt.phase = .idle ↔ dock.cadence.phase ≠ .suspended := by
      show (if dock.cadence.phase = .running then Cadence.Phase.idle else dock.cadence.phase) = _ ↔ _
      cases dock.cadence.phase <;> decide
    rw [decide_eq_decide.mpr hidle] at hwoken
    exact hwoken.orderLayouts _
  · rw [if_neg henabled] at h
    obtain rfl := Except.ok.inj h
    rw [(Bool.not_eq_true _).mp henabled]
    exact armed

omit [Scalar α] in
/-- A dock that is disabled need not be armed. -/
theorem armed_disable (armed : dock.cadence.Armed before) : dock.disable.1.cadence.Armed before := by
  unfold disable
  split
  · rw [cadence_withdraw]
    exact Cadence.armed_reset armed.backed.backs
  · exact armed

/-- A tick asks for a quiet period at most. -/
theorem armed_tick {animated : Bool} (armed : dock.cadence.Armed before)
    (h : dock.tick host = .ok (dock', commands, animated)) : dock'.cadence.Armed before := by
  obtain ⟨-, rfl, -⟩ | ⟨-, -, heq⟩ | ⟨-, -, -, heq⟩ | ⟨-, -, -, shown, hanimate, -⟩ := tick_cases h
  · exact armed
  · rw [show dock' = _ from congrArg Prod.fst heq, cadence_withdraw]
    exact Cadence.armed_suspend armed.backed.backs
  · rw [show dock' = _ from congrArg Prod.fst heq]
    exact armed_disable armed
  · obtain ⟨_, _, _, _, _, _, _, rfl⟩ := animate_cases hanimate
    have hupdated : (dock.updated host).cadence.Armed before := by
      show Cadence.Armed before (if _ then _ else _ : Cadence (Logbook τ))
      split
      · exact armed.takeLayout
      · exact armed.takeLayout.orderLayouts _
    show Cadence.Armed before (if _ then _ else _ : Cadence (Logbook τ))
    split
    · exact hupdated.backed.rearm
    · exact hupdated

/-- A resume that has rung is forgotten, and the dock starts anew if it was suspended. -/
theorem armed_resume {log : Logbook τ} (armed : dock.cadence.Armed before)
    (requests : log.requests = dock.cadence.timers.requests)
    (backs : Backs log (Function.update dock.cadence.held .resume none))
    (h : (dock.withTimers log).resume settings = .ok dock') :
    dock'.cadence.Armed (if dock.enabled && decide (dock.cadence.phase = .suspended) then
      (Cadence.intervalFor settings.magnification.fps).toOption else before) := by
  have hresumed := armed.resume requests backs
  unfold resume at h
  by_cases hsuspended : dock.cadence.phase = .suspended
  · have hresume : (dock.withTimers log).cadence.resume = _ :=
      Cadence.resume_of_suspended (c := dock.cadence.withTimers log) hsuspended
    rw [show (dock.cadence.withTimers log).resume = _ from hresume] at hresumed
    rw [hresume] at h
    rw [decide_eq_true hsuspended]
    exact armed_wake _ (hresumed.orderLayouts Cadence.longLayout) h
  · have hresume : (dock.withTimers log).cadence.resume = _ :=
      Cadence.resume_of_ne (c := dock.cadence.withTimers log) hsuspended
    rw [show (dock.cadence.withTimers log).resume = _ from hresume] at hresumed
    rw [hresume] at h
    obtain rfl := Except.ok.inj h
    rw [decide_eq_false hsuspended, Bool.and_false]
    exact hresumed

omit [Scalar α] in
/-- A drag that begins asks for nothing. -/
theorem armed_dragBegin (armed : dock.cadence.Armed before) :
    dock.dragBegin.1.cadence.Armed before := by
  unfold dragBegin
  split
  · dsimp only
    split
    · rw [cadence_withdraw]
      exact armed.beginDrag
    · exact armed.beginDrag
  · exact armed

omit [Scalar α] in
/-- A drag that ends asks for a pause at most. -/
theorem armed_dragEnd (armed : dock.cadence.Armed before) : dock.dragEnd.1.cadence.Armed before := by
  unfold dragEnd
  split
  · dsimp only
    split
    · rw [cadence_withdraw]
      exact armed.endDrag
    · exact armed.endDrag
  · exact armed

/-- What a caller asks for leaves the cadence armed, at its pace or at that of the settings. -/
theorem armed_of_call (call : ∀ alarm, event ≠ .alarm alarm) (armed : dock.cadence.Armed before)
    (h : dock.handle host event = .ok (dock', commands)) :
    dock'.cadence.Armed (if dock.startsOn event then
      (Cadence.intervalFor host.settings.magnification.fps).toOption else before) := by
  -- only what wakes the dock can start the cadence, and so change its pace
  cases event with
  | enable =>
      rw [eq_of_handle h rfl]
      show (dock.enable host.settings).cadence.Armed before
      unfold enable
      split
      · exact armed
      · exact armed.orderLayouts _
  | disable =>
      rw [eq_of_handle h rfl]
      exact armed_disable armed
  | pointerEnter | pointerMotion =>
      obtain ⟨hwake, -⟩ := ok_of_silent h
      exact armed_wake dock armed hwake
  | pointerLeave =>
      rw [eq_of_handle h rfl]
      exact armed.backed.rearm
  | focusChanged =>
      obtain ⟨hfocus, -⟩ := ok_of_silent h
      exact armed_focusChanged armed hfocus
  | fullscreenChanged =>
      rw [eq_of_handle h rfl]
      show (dock.fullscreenChanged host.geometry).1.cadence.Armed before
      unfold fullscreenChanged
      split
      · rw [showLayers_fst]
        exact armed
      · exact armed
  | dragBegin =>
      rw [eq_of_handle h rfl]
      exact armed_dragBegin armed
  | dragEnd =>
      rw [eq_of_handle h rfl]
      exact armed_dragEnd armed
  | preview on =>
      obtain ⟨hpreview, -⟩ := ok_of_silent h
      cases on with
      | true => exact armed_wake { dock with previewLeft := some previewPeriod } armed hpreview
      | false =>
          obtain rfl := Except.ok.inj hpreview
          exact armed
  | relayout =>
      obtain ⟨hrelayout, -⟩ := ok_of_silent h
      exact armed_wake { dock with cadence := dock.cadence.orderLayouts Cadence.longLayout }
        (armed.orderLayouts _) hrelayout
  | alarm alarm => exact absurd rfl (call alarm)

/-- So does an alarm, whose handle may be that of a timer that is spent. -/
theorem armed_of_alarm {alarm : Alarm} {log : Logbook τ} (armed : dock.cadence.Armed before)
    (requests : log.requests = dock.cadence.timers.requests)
    (backs : Backs log (if alarm = .tick then dock.cadence.held
      else Function.update dock.cadence.held alarm none))
    (h : (dock.withTimers log).handle host (.alarm alarm) = .ok (dock', commands)) :
    dock'.cadence.Armed (if dock.startsOn (.alarm alarm) then
      (Cadence.intervalFor host.settings.magnification.fps).toOption else before) := by
  cases alarm with
  | tick =>
      obtain ⟨animated, htick⟩ := tick_of_handle h
      have hrung : (dock.withTimers log).cadence.Armed before :=
        armed.of_requests_eq backs requests rfl rfl rfl id
      exact armed_tick hrung htick
  | quiet =>
      obtain ⟨rfl, -⟩ := Prod.mk.inj (Except.ok.inj h)
      exact Cadence.armed_quietPassed (c := dock.cadence.withTimers log) backs
  | resume =>
      obtain ⟨hresume, -⟩ := resume_of_handle h
      exact armed_resume armed requests backs hresume

end Armed

/-! ## Runs -/

/-- The docks that a run leads to whose ticks come from the timers of a service with a logbook, with
    what has happened, the latest first.  The service moves on by itself without a note. -/
inductive Noted : Dock α (Logbook τ) → List (Moment α (Logbook τ)) → Prop where
  | new (timers : τ) (proper : Proper timers) (nothing : ∀ handle, pending timers handle = none) :
      Noted (new ⟨timers, []⟩) []
  | event {dock dock' : Dock α (Logbook τ)} {past : List (Moment α (Logbook τ))}
      {commands : List (Command α)} (host : Host α) (event : Event) (before : Noted dock past)
      (noTick : event ≠ .alarm .tick) (step : dock.handle host event = .ok (dock', commands)) :
      Noted dock' (⟨dock, host, event⟩ :: past)
  /-- A pending timer fires. -/
  | fire {dock dock' : Dock α (Logbook τ)} {past : List (Moment α (Logbook τ))}
      {commands : List (Command α)} {handle : TimerHandle} {engagement : Engagement}
      {log : Logbook τ} (host : Host α) (before : Noted dock past)
      (fires : Fires dock.cadence.timers handle engagement log)
      (requests : log.requests = dock.cadence.timers.requests)
      (step : (dock.withTimers log).handle host (.alarm engagement.alarm)
        = .ok (dock', commands)) :
      Noted dock' (⟨dock.withTimers log, host, .alarm engagement.alarm⟩ :: past)
  | drift {dock : Dock α (Logbook τ)} {past : List (Moment α (Logbook τ))} {log : Logbook τ}
      (before : Noted dock past) (drifts : Drifts dock.cadence.timers log)
      (requests : log.requests = dock.cadence.timers.requests) :
      Noted (dock.withTimers log) past

/-- The logbook aside, such a run is one whose ticks come from the timers. -/
theorem Noted.driven (h : Noted dock past) : ∃ trace, Driven dock past trace := by
  induction h with
  | new timers proper nothing => exact ⟨_, .new _ proper nothing⟩
  | event host event before noTick step ih =>
      obtain ⟨trace, hdriven⟩ := ih
      exact ⟨_, hdriven.event host event noTick step⟩
  | fire host before fires requests step ih =>
      obtain ⟨trace, hdriven⟩ := ih
      exact ⟨_, hdriven.fire host fires step⟩
  | drift before drifts requests ih =>
      obtain ⟨trace, hdriven⟩ := ih
      exact ⟨_, hdriven.drift drifts⟩

/-- A clock fires its next alarm. -/
theorem Noted.popDue {dock dock' : Dock α (Logbook Clock)} {past : List (Moment α (Logbook Clock))}
    (h : Noted dock past) (host : Host α) (time : Nat) {alarm : Alarm} {clock : Clock}
    (hpop : dock.cadence.timers.timers.popDue time = some (alarm, clock))
    (step : (dock.withTimers { dock.cadence.timers with timers := clock }).handle host
      (.alarm alarm) = .ok (dock', commands)) :
    Noted dock' (⟨dock.withTimers { dock.cadence.timers with timers := clock }, host,
      .alarm alarm⟩ :: past) := by
  obtain ⟨trace, hdriven⟩ := h.driven
  obtain ⟨handle, engagement, rfl, fires⟩ := Clock.fires_of_popDue hdriven.ticking.proper hpop
  exact h.fire host (Logbook.fires fires) rfl step

/-- At any moment of such a run the cadence is armed at the pace of its latest start. -/
theorem Noted.armed (h : Noted dock past) : dock.cadence.Armed (pace past) := by
  induction h with
  | new timers proper nothing => exact Cadence.armed_idle proper
  | @event dock _ _ _ host event before noTick step ih =>
      rw [pace_cons]
      by_cases hcall : ∀ alarm, event ≠ .alarm alarm
      · exact armed_of_call hcall ih step
      · push Not at hcall
        obtain ⟨alarm, rfl⟩ := hcall
        have htick : alarm ≠ .tick := fun heq => noTick (congrArg Event.alarm heq)
        have hself : (dock.withTimers dock.cadence.timers).handle host (.alarm alarm) = _ := step
        refine armed_of_alarm ih rfl ?_ hself
        rw [if_neg htick]
        exact ih.backed.backs.forget alarm
  | fire host before fires requests step ih =>
      have hrung := armed_of_alarm ih requests (ih.backed.backs.fire fires) step
      rw [pace_cons]
      exact hrung
  | drift before drifts requests ih =>
      exact ih.of_requests_eq (ih.backed.backs.of_pending_eq drifts.proper drifts.pending_eq)
        requests rfl rfl rfl id

/-! ## The ticks -/

/-- There is one tick pending.  It repeats, and the interval is the one with which a tick was last
    asked for. -/
def RepeatsAt (dock : Dock α (Logbook τ)) (interval : Nat) : Prop :=
  ∃ handle, (∀ other repeats, pending dock.cadence.timers other = some ⟨.tick, repeats⟩ ↔
      other = handle ∧ repeats = true) ∧
    dock.cadence.timers.latest? .tick = some ⟨.tick, interval, some handle⟩

omit [Scalar α] in
/-- A dock repeats at one interval. -/
theorem RepeatsAt.unique {interval other : Nat} (h : dock.RepeatsAt interval)
    (h' : dock.RepeatsAt other) : other = interval := by
  obtain ⟨handle, -, hlatest⟩ := h
  obtain ⟨handle', -, hlatest'⟩ := h'
  exact congrArg Request.wait (Option.some.inj (hlatest'.symm.trans hlatest))

/-- **THE TICKS COME AT THE INTERVAL OF THE LATEST START**, and at no other.  A tick is no start, so
    that the interval stays as it is when the settings at a tick are others. -/
theorem Noted.repeatsAtStart (h : Noted dock past) (running : dock.cadence.phase = .running) :
    ∃ start interval, past.find? Moment.starts = some start ∧ start.interval = .ok interval ∧
      ∀ every, dock.RepeatsAt every ↔ every = interval := by
  obtain ⟨start, hstart, hinterval⟩ := pace_eq_some (h.armed.backed.pace_eq running)
  obtain ⟨handle, hheld, hlatest⟩ := h.armed.backed.tick running
  obtain ⟨trace, hdriven⟩ := h.driven
  have hengaged : pending dock.cadence.timers handle = some Alarm.tick.engagement :=
    h.armed.backed.backs.pending_of_held hheld
  have hrepeats : dock.RepeatsAt dock.cadence.interval := by
    -- the only tick that is pending is the one that is held
    refine ⟨handle, fun other repeats => ⟨fun hpending => ?_, ?_⟩, hlatest⟩
    · have hother := hdriven.ticking.held hpending
      obtain rfl := Option.some.inj (hother.symm.trans hheld)
      exact ⟨rfl, congrArg Engagement.repeats (Option.some.inj (hpending.symm.trans hengaged))⟩
    · rintro ⟨rfl, rfl⟩
      exact hengaged
  refine ⟨start, dock.cadence.interval, hstart, hinterval, fun every => ⟨hrepeats.unique, ?_⟩⟩
  rintro rfl
  exact hrepeats

/-- A dock without icons. -/
private def bareDock (fps : Float) : Host Float where
  settings :=
    { (Settings.standard : Settings Float) with
      magnification := { (Settings.standard : Settings Float).magnification with fps } }
  geometry := .standard
  icons := []

theorem intervalFor_four :
    Cadence.intervalFor (bareDock 4.0).settings.magnification.fps = .ok (milliseconds 75) := by
  decide +kernel

set_option maxRecDepth 2048 in
/-- The ticks are to be slowed down while the cadence runs.  The tick that finds out leaves the
    interval as it is. -/
theorem repeatsAtStart_while_slowed : ∃ (dock : Dock Float (Logbook Clock))
    (tick : Moment Float (Logbook Clock)) (past : List (Moment Float (Logbook Clock))),
    Noted dock (tick :: past) ∧ tick.event = .alarm .tick ∧
    tick.interval = .ok (milliseconds 75) ∧ dock.cadence.phase = .running ∧
    dock.RepeatsAt (milliseconds 15) ∧ ¬ dock.RepeatsAt (milliseconds 75) := by
  have hnew : Noted (new ⟨Clock.start, []⟩ : Dock Float (Logbook Clock)) [] :=
    .new _ Clock.start_proper fun _ => rfl
  have henabled := hnew.event (bareDock 0.0) .enable nofun rfl
  have hwoken := henabled.event (bareDock 0.0) .pointerEnter nofun rfl
  have hticked := hwoken.popDue (bareDock 4.0) (milliseconds 15) rfl rfl
  obtain ⟨start, interval, hstart, hinterval, hrepeats⟩ := hticked.repeatsAtStart rfl
  obtain rfl := Option.some.inj hstart
  obtain rfl : milliseconds 15 = interval := Except.ok.inj hinterval
  refine ⟨_, _, _, hticked, rfl, intervalFor_four, rfl, (hrepeats _).mpr rfl, ?_⟩
  rw [hrepeats]
  decide

/-! ## The quiet period -/

/-- **A RUNNING CADENCE STOPS ON ITS OWN** exactly if the latest request for a quiet period was
    granted.  Where it was refused, and all alarms come from the timers, nothing is pending but the
    ticks. -/
theorem Noted.quietGranted (h : Noted dock past) (running : dock.cadence.phase = .running) :
    ∃ request, dock.cadence.timers.latest? .quiet = some request ∧
      (request.answer.isSome → ∃ handle, dock.Pending .quiet handle) ∧
      (request.answer = none → Reached dock → ∀ handle engagement,
        pending dock.cadence.timers handle = some engagement → engagement = ⟨.tick, true⟩) := by
  obtain ⟨request, hlatest, hanswer⟩ := Option.map_eq_some_iff.mp (h.armed.quiet running)
  refine ⟨request, hlatest, ?_, ?_⟩
  · rw [hanswer]
    intro hgranted
    obtain ⟨handle, hheld⟩ := Option.isSome_iff_exists.mp hgranted
    have hengaged : pending dock.cadence.timers handle = some Alarm.quiet.engagement :=
      h.armed.backed.backs.pending_of_held hheld
    exact ⟨handle, false, hengaged⟩
  · rw [hanswer]
    intro hrefused hreached handle engagement hpending
    have hsound := hreached.sound.cadence
    -- whatever is pending is held for an alarm, and a running cadence waits for no pause
    obtain ⟨alarm, hheld, rfl⟩ := (hsound.accounts.pending_iff handle engagement).mp hpending
    cases alarm with
    | tick => rfl
    | quiet => exact nomatch hheld.symm.trans hrefused
    | resume =>
        have hsuspended := hsound.resume_suspended (Option.isSome_of_eq_some hheld)
        exact nomatch running.symm.trans hsuspended

set_option maxRecDepth 2048 in
/-- The service begins to refuse timers, and the pointer moves.  The end of the quiet period is
    cancelled and not asked for again with success, and the cadence runs on. -/
theorem quietGranted_while_refusing : ∃ (dock : Dock Float (Logbook Clock))
    (past : List (Moment Float (Logbook Clock))), Noted dock past ∧ Reached dock ∧
    dock.cadence.phase = .running ∧ (∃ handle, dock.Pending .tick handle) ∧
    dock.cadence.timers.latest? .quiet = some ⟨.quiet, milliseconds 765, none⟩ ∧
    ¬ ∃ handle, dock.Pending .quiet handle := by
  have hnew : Noted (new ⟨Clock.start, []⟩ : Dock Float (Logbook Clock)) [] :=
    .new _ Clock.start_proper fun _ => rfl
  have hnew' : Reached (new ⟨Clock.start, []⟩ : Dock Float (Logbook Clock)) :=
    .new _ Clock.start_proper fun _ => rfl
  have henabled := hnew.event (bareDock 0.0) .enable nofun rfl
  have henabled' := hnew'.event (bareDock 0.0) .enable nofun rfl
  have hwoken := henabled.event (bareDock 0.0) .pointerEnter nofun rfl
  have hwoken' := henabled'.event (bareDock 0.0) .pointerEnter nofun rfl
  have hrefusing : ∀ {dock : Dock Float (Logbook Clock)}, Reached dock →
      Drifts dock.cadence.timers { dock.cadence.timers with
        timers := { dock.cadence.timers.timers with refusing := true } } :=
    fun hreached => ⟨hreached.sound.cadence.accounts.proper, rfl⟩
  have hmoved := (hwoken.drift (hrefusing hwoken') rfl).event (bareDock 0.0) .pointerMotion nofun rfl
  have hmoved' := (hwoken'.drift (hrefusing hwoken')).event (bareDock 0.0) .pointerMotion nofun rfl
  obtain ⟨request, hlatest, -, honly⟩ := hmoved.quietGranted rfl
  obtain rfl := Option.some.inj hlatest
  refine ⟨_, _, hmoved, hmoved', rfl, ⟨0, true, rfl⟩, rfl, ?_⟩
  rintro ⟨handle, repeats, hpending⟩
  exact nomatch honly rfl hmoved' handle _ hpending

end FisheyeDock.Dock
