import FisheyeDock.Proofs.Dock.Dated
import FisheyeDock.Proofs.Dock.Lasting

/-! # The countdown of a preview

    A preview is counted down by the ticks that draw, each by its interval, and by nothing else.  So
    it is over as soon as the ticks since it was called for have filled its period, or it has been
    called off, in any run (`Driven.countedDown`).  The clock may say otherwise: while the cadence is
    at rest or suspended nothing is counted, and what is left of a preview waits for the next tick.

    Where the ticks have gone on since the call (`Unbroken`), the clock and the countdown agree up to
    one interval and to the delays of the ticks (`Dated.onPace`). -/

namespace FisheyeDock

namespace Cadence

open TimerService

/-! ## The pace of the ticks -/

variable {τ : Type} [TimerService τ] [TimedService τ] {c c' : Cadence τ} {time : Nat}

/-- A cadence that ticks.  The next tick is due an interval after a time at the latest. -/
structure OnPace (c : Cadence τ) (time : Nat) : Prop where
  running : c.phase = .running
  due : ∃ tick next, c.Paced tick next ∧ next ≤ time + c.interval

namespace OnPace

/-- The next tick is at most one interval ahead. -/
theorem of_timely (timely : c.Timely) (running : c.phase = .running) :
    c.OnPace (timetable c.timers).now := by
  obtain ⟨tick, quiet, next, begun, hguarded⟩ := timely.guarded running
  exact ⟨running, tick, next, hguarded.toPaced, hguarded.next_le⟩

/-- Pace shows in the phase and in the tick alone. -/
theorem of_alike (h : c.OnPace time) (alike : Alike c c') : c'.OnPace time := by
  obtain ⟨tick, next, hpaced, hnext⟩ := h.due
  refine ⟨alike.phase.trans h.running, tick, next, alike.paced hpaced, ?_⟩
  rw [alike.interval]
  exact hnext

/-- A later time allows for a later tick. -/
theorem mono {later : Nat} (h : c.OnPace time) (hle : time ≤ later) : c.OnPace later := by
  obtain ⟨tick, next, hpaced, hnext⟩ := h.due
  exact ⟨h.running, tick, next, hpaced, hnext.trans (Nat.add_le_add_right hle _)⟩

/-- A new quiet period puts no tick off. -/
theorem rearm (h : c.OnPace time) (obliges : Obliges c.timers) : c.rearm.OnPace time := by
  obtain ⟨tick, next, hpaced, hnext⟩ := h.due
  obtain ⟨-, -, quiet, hguarded⟩ := hpaced.rearm obliges h.running
  have hinterval : c.rearm.interval = c.interval := by
    rw [Cadence.rearm, if_pos h.running]
  refine ⟨(phase_rearm c).trans h.running, tick, next, hguarded.toPaced, ?_⟩
  rw [hinterval]
  exact hnext

/-- Nor does a start, which finds nothing to do. -/
theorem start {α : Type} [Scalar α] {fps : α} (h : c.OnPace time)
    (hstart : c.start fps = .ok c') : c'.OnPace time := by
  obtain ⟨-, rfl⟩ | ⟨hidle, -⟩ | ⟨hidle, -⟩ := start_cases hstart
  · exact h
  · exact nomatch hidle.symm.trans h.running
  · exact nomatch hidle.symm.trans h.running

theorem pass {timers : τ} (h : c.OnPace time)
    (passes : (timetable c.timers).Passes (timetable timers)) :
    (c.withTimers timers).OnPace time := by
  obtain ⟨tick, next, hpaced, hnext⟩ := h.due
  exact ⟨h.running, tick, next, hpaced.pass passes, hnext⟩

/-- A tick rings as late as the journal notes, and the next one is due an interval after that. -/
theorem ring_tick {timers : τ} {handle : TimerHandle} {plan : Plan} (h : c.OnPace time)
    (tick_held : c.tickTimer = some handle)
    (rings : (timetable c.timers).Rings handle plan (timetable timers)) : ∃ delay,
      (timetable timers).journal = .rang .tick delay :: (timetable c.timers).journal ∧
      (timetable timers).now ≤ time + c.interval + delay ∧
      (c.withTimers timers).OnPace (time + c.interval + delay) := by
  obtain ⟨tick, next, hpaced, hnext⟩ := h.due
  obtain rfl := Option.some.inj (tick_held.symm.trans hpaced.tick_held)
  obtain ⟨rfl, next', hpaced'⟩ := hpaced.ring_tick rings
  have hdue : next ≤ (timetable timers).now := rings.due
  have hnow : (timetable timers).now ≤ time + c.interval + ((timetable timers).now - next) := by
    omega
  refine ⟨_, rings.noted, hnow, h.running, _, next', hpaced', ?_⟩
  exact hpaced'.next_le.trans (Nat.add_le_add_right hnow _)

end OnPace

end Cadence

namespace Dock

open Scene (Command)
open TimerService

variable {α τ : Type} [Scalar α] [TimerService τ]
variable {dock dock' : Dock α τ} {host : Host α} {event : Event} {commands : List (Command α)}

/-! ## What is left of a preview -/

/-- Waking leaves the preview as it is. -/
theorem previewLeft_wake {settings : Settings α} (h : dock.wake settings = .ok dock') :
    dock'.previewLeft = dock.previewLeft := by
  obtain ⟨-, rfl⟩ | ⟨-, started, -, rfl⟩ := wake_cases h
  · rfl
  · rfl

omit [Scalar α] [TimerService τ] in
theorem previewLeft_withdraw (dock : Dock α τ) :
    dock.withdraw.1.previewLeft = dock.previewLeft := by
  rw [withdraw_fst]

/-- What an event leaves of a preview, if it does not call for one. -/
inductive Leaves (dock : Dock α τ) (host : Host α) (event : Event) (dock' : Dock α τ) : Prop where
  | all (bare : dock.drawsOn host event = false) (previewLeft : dock'.previewLeft = dock.previewLeft)
  | nothing (previewLeft : dock'.previewLeft = none)
  | rest (previewTime : dock'.previewTime = dock.previewTime - dock.cadence.interval)

omit [Scalar α] in
/-- To disable the dock leaves nothing of a preview. -/
theorem leaves_disable (bare : dock.drawsOn host event = false) :
    dock.Leaves host event dock.disable.1 := by
  unfold disable
  split
  · exact .nothing (previewLeft_withdraw _)
  · exact .all bare rfl

/-- A tick leaves what it does not take off, or it calls the preview off. -/
theorem leaves_tick {animated : Bool} (h : dock.tick host = .ok (dock', commands, animated)) :
    dock.Leaves host (.alarm .tick) dock' := by
  have hdraws := dock.drawsOn_tick host
  obtain ⟨hdisabled, rfl, -⟩ | ⟨-, hqueued, heq⟩ | ⟨-, -, hoff, heq⟩ |
    ⟨-, -, -, shown, hanimate, -⟩ := tick_cases h
  · rw [hdisabled] at hdraws
    exact .all hdraws rfl
  · rw [hqueued, Bool.true_or, Bool.not_true, Bool.and_false] at hdraws
    rw [show dock' = _ from congrArg Prod.fst heq]
    exact .all hdraws (previewLeft_withdraw _)
  · rw [hoff, Bool.or_true, Bool.not_true, Bool.and_false] at hdraws
    rw [show dock' = _ from congrArg Prod.fst heq]
    exact leaves_disable hdraws
  · obtain ⟨_, _, _, -, -, -, -, rfl⟩ := animate_cases hanimate
    refine .rest ?_
    have hleft := previewTime_focus (dock.updated host) host (dock.updated host).row.reset.tiles
    rw [previewTime_updated, (alike_updated dock host).interval] at hleft
    exact hleft

/-- A change of focus leaves all of it. -/
theorem leaves_focusChanged {settings : Settings α} (h : dock.focusChanged settings = .ok dock') :
    dock.Leaves host .focusChanged dock' := by
  unfold focusChanged at h
  split at h
  · obtain ⟨woken, hwake, hordered⟩ := bind_eq_ok_iff.mp h
    obtain rfl := Except.ok.inj hordered
    have hleft := previewLeft_wake hwake
    exact .all rfl hleft
  · obtain rfl := Except.ok.inj h
    exact .all rfl rfl

omit [Scalar α] in
/-- So does the beginning of a drag, although it may clear the row. -/
theorem leaves_dragBegin : dock.Leaves host .dragBegin dock.dragBegin.1 := by
  unfold dragBegin
  split
  · dsimp only
    split
    · exact .all rfl (previewLeft_withdraw _)
    · exact .all rfl rfl
  · exact .all rfl rfl

omit [Scalar α] in
theorem leaves_dragEnd : dock.Leaves host .dragEnd dock.dragEnd.1 := by
  unfold dragEnd
  split
  · dsimp only
    split
    · exact .all rfl (previewLeft_withdraw _)
    · exact .all rfl rfl
  · exact .all rfl rfl

/-- The end of a pause leaves all of it for the ticks that start then. -/
theorem leaves_resume {settings : Settings α} (h : dock.resume settings = .ok dock') :
    dock.Leaves host (.alarm .resume) dock' := by
  unfold Dock.resume at h
  split at h
  · have hleft := previewLeft_wake h
    exact .all rfl hleft
  · obtain rfl := Except.ok.inj h
    exact .all rfl rfl

/-- Any other event does so as well, but for the call for a preview. -/
theorem leaves_of_handle (other : event ≠ .preview true)
    (h : dock.handle host event = .ok (dock', commands)) : dock.Leaves host event dock' := by
  -- of the events, only a tick, the end of a preview and disabling have a say in what is left
  cases event with
  | enable =>
      rw [eq_of_handle h rfl]
      show dock.Leaves host .enable (dock.enable host.settings)
      unfold enable
      split
      · exact .all rfl rfl
      · exact .all rfl rfl
  | disable =>
      rw [eq_of_handle h rfl]
      exact leaves_disable rfl
  | pointerEnter | pointerMotion =>
      obtain ⟨hwake, -⟩ := ok_of_silent h
      exact .all rfl (previewLeft_wake hwake)
  | pointerLeave =>
      rw [eq_of_handle h rfl]
      exact .all rfl rfl
  | focusChanged =>
      obtain ⟨hfocus, -⟩ := ok_of_silent h
      exact leaves_focusChanged hfocus
  | fullscreenChanged =>
      rw [eq_of_handle h rfl]
      show dock.Leaves host .fullscreenChanged (dock.fullscreenChanged host.geometry).1
      unfold fullscreenChanged
      split
      · rw [showLayers_fst]
        exact .all rfl rfl
      · exact .all rfl rfl
  | dragBegin =>
      rw [eq_of_handle h rfl]
      exact leaves_dragBegin
  | dragEnd =>
      rw [eq_of_handle h rfl]
      exact leaves_dragEnd
  | preview on =>
      cases on with
      | true => exact absurd rfl other
      | false =>
          obtain ⟨hpreview, -⟩ := ok_of_silent h
          obtain rfl := Except.ok.inj hpreview
          exact .nothing rfl
  | relayout =>
      obtain ⟨hrelayout, -⟩ := ok_of_silent h
      unfold relayout at hrelayout
      have hleft := previewLeft_wake hrelayout
      exact .all rfl hleft
  | alarm alarm =>
      cases alarm with
      | tick =>
          obtain ⟨animated, htick⟩ := tick_of_handle h
          exact leaves_tick htick
      | quiet =>
          rw [eq_of_handle h rfl]
          exact .all rfl rfl
      | resume =>
          obtain ⟨hresume, -⟩ := resume_of_handle h
          exact leaves_resume hresume

/-! ## What the ticks have counted down -/

namespace Moment

variable (moment : Moment α τ)

/-- What a moment takes off a preview: a tick that draws takes off its interval. -/
def counts : Nat := if moment.draws then moment.dock.cadence.interval else 0

/-- Whether a moment calls a preview off, on request or because the engine is disabled. -/
def callsOff : Bool :=
  match moment.event with
  | .preview on => !on
  | .disable => moment.dock.enabled
  | .alarm .tick => moment.dock.enabled &&
    (!moment.dock.cadence.dragQueued && moment.host.settings.magnification.off)
  | _ => false

end Moment

/-- What the ticks of a stretch have counted down. -/
def counted (stretch : List (Moment α τ)) : Nat := (stretch.map Moment.counts).sum

omit [Scalar α] [TimerService τ] in
theorem counted_nil : counted ([] : List (Moment α τ)) = 0 := rfl

omit [Scalar α] [TimerService τ] in
/-- Every moment counts for itself. -/
theorem counted_cons (moment : Moment α τ) (stretch : List (Moment α τ)) :
    counted (moment :: stretch) = moment.counts + counted stretch := List.sum_cons

/-- A stretch of a run that follows on a call for a preview, and in which there is no other. -/
structure Follows (called : Moment α τ) (later : List (Moment α τ)) : Prop where
  event_eq : called.event = .preview true
  latest : ∀ moment ∈ later, moment.event ≠ .preview true

omit [Scalar α] [TimerService τ] in
/-- What follows a call does so without its latest moment. -/
theorem Follows.of_cons {called moment : Moment α τ} {later : List (Moment α τ)}
    (h : Follows called (moment :: later)) : Follows called later :=
  ⟨h.event_eq, fun other hother => h.latest other (List.mem_cons_of_mem _ hother)⟩

instance (called : Moment α τ) (later : List (Moment α τ)) : Decidable (Follows called later) :=
  decidable_of_iff (called.event = .preview true ∧ ∀ moment ∈ later, moment.event ≠ .preview true)
    ⟨fun h => ⟨h.1, h.2⟩, fun h => ⟨h.event_eq, h.latest⟩⟩

/-- A call gives a preview its whole time. -/
theorem previewTime_of_preview (h : dock.handle host (.preview true) = .ok (dock', commands)) :
    dock'.previewTime = previewPeriod := by
  obtain ⟨hpreview, -⟩ := ok_of_silent h
  rw [preview, if_pos rfl] at hpreview
  unfold previewTime
  rw [previewLeft_wake hpreview]
  exact Option.getD_some

omit [Scalar α] in
/-- A disabled dock is given no time for a preview. -/
theorem previewTime_disable (enabled : dock.enabled = true) : dock.disable.1.previewTime = 0 := by
  unfold disable
  rw [if_pos enabled]
  unfold previewTime
  rw [previewLeft_withdraw]
  rfl

theorem previewTime_of_callsOff (off : Moment.callsOff ⟨dock, host, event⟩ = true)
    (h : dock.handle host event = .ok (dock', commands)) : dock'.previewTime = 0 := by
  cases event with
  | preview on =>
      cases on with
      | true => exact nomatch off
      | false =>
          obtain ⟨hpreview, -⟩ := ok_of_silent h
          obtain rfl := Except.ok.inj hpreview
          rfl
  | disable =>
      rw [eq_of_handle h rfl]
      exact previewTime_disable off
  | alarm alarm =>
      cases alarm with
      | tick =>
          obtain ⟨henabled, hrest⟩ := (Bool.and_eq_true _ _).mp off
          obtain ⟨hfree, hoff⟩ := (Bool.and_eq_true _ _).mp hrest
          rw [Bool.not_eq_true'] at hfree
          obtain ⟨animated, htick⟩ := tick_of_handle h
          obtain ⟨hdisabled, -⟩ | ⟨-, hqueued, -⟩ | ⟨-, -, -, heq⟩ | ⟨-, -, hon, -⟩ := tick_cases htick
          · exact nomatch henabled.symm.trans hdisabled
          · exact nomatch hqueued.symm.trans hfree
          · rw [show dock' = _ from congrArg Prod.fst heq]
            exact previewTime_disable henabled
          · exact nomatch hoff.symm.trans hon
      | quiet | resume => exact nomatch off
  | _ => exact nomatch off

omit [Scalar α] [TimerService τ] in
/-- What a moment leaves of a preview is less by what it takes off, if not nothing. -/
theorem Leaves.previewTime_le (h : dock.Leaves host event dock') :
    dock'.previewTime ≤ dock.previewTime - Moment.counts ⟨dock, host, event⟩ := by
  unfold Moment.counts
  cases h with
  | all bare previewLeft =>
      rw [show Moment.draws ⟨dock, host, event⟩ = false from bare, if_neg Bool.false_ne_true]
      unfold previewTime
      rw [previewLeft]
      exact Nat.le_refl _
  | nothing previewLeft =>
      unfold previewTime
      rw [previewLeft]
      exact Nat.zero_le _
  | rest previewTime =>
      rw [previewTime]
      refine Nat.sub_le_sub_left ?_ _
      split
      · exact Nat.le_refl _
      · exact Nat.zero_le _

/-- **A PREVIEW IS COUNTED DOWN BY THE TICKS**: what they have counted since the latest call for one is
    taken off its period, and nothing is left of it once it has been called off. -/
theorem Driven.countedDown [LawfulTimerService τ] {past later earlier : List (Moment α τ)}
    {trace : List (Command α)} {called : Moment α τ} (h : Driven dock past trace)
    (split : past = later ++ called :: earlier) (follows : Follows called later) :
    dock.previewTime ≤ previewPeriod - counted later ∧
      ((∃ moment ∈ later, moment.callsOff = true) → dock.previewTime = 0) := by
  refine Driven.holds (P := fun dock past _ => ∀ later called earlier,
    past = later ++ called :: earlier → Follows called later →
      dock.previewTime ≤ previewPeriod - counted later ∧
        ((∃ moment ∈ later, moment.callsOff = true) → dock.previewTime = 0))
    ?_ ?_ ?_ h later called earlier split follows
  · intro timers later called earlier hsplit
    exact absurd hsplit.symm (by simp)
  · intro dock past trace timers ih
    exact ih
  · intro dock dock' past trace host event commands ih running step later called earlier hsplit hfollows
    cases later with
    | nil =>
        -- the event is the call itself
        obtain ⟨rfl, -⟩ := List.cons.inj hsplit
        have hevent : event = .preview true := hfollows.event_eq
        rw [hevent] at step
        rw [previewTime_of_preview step, counted_nil, Nat.sub_zero]
        exact ⟨Nat.le_refl _, by simp⟩
    | cons moment later =>
        obtain ⟨rfl, hrest⟩ := List.cons.inj hsplit
        obtain ⟨hle, hoff⟩ := ih later called earlier hrest hfollows.of_cons
        have hother : event ≠ .preview true := hfollows.latest _ List.mem_cons_self
        have hleaves := (leaves_of_handle hother step).previewTime_le
        constructor
        · rw [counted_cons]
          omega
        · rintro ⟨moment, hmem, hcalled⟩
          rcases List.mem_cons.mp hmem with rfl | hlater
          · exact previewTime_of_callsOff hcalled step
          · -- nothing is left, and no event but another call brings anything back
            have hnothing := hoff ⟨moment, hlater, hcalled⟩
            omega

/-! ## The countdown and the clock -/

section Time

variable [TimedService τ] {called : Moment α τ} {later past : List (Moment α τ)}

/-- How late the ticks of a stretch were, all in all. -/
def late (stretch : List (Moment α τ)) : Nat := (stretch.map Moment.delay).sum

omit [Scalar α] in
/-- Every tick is late by itself. -/
theorem late_cons (moment : Moment α τ) (stretch : List (Moment α τ)) :
    late (moment :: stretch) = moment.delay + late stretch := List.sum_cons

/-- The ticks go on from a moment on: it finds the engine on and awake, and afterwards nothing stops
    or restarts them. -/
structure Unbroken (called : Moment α τ) (later : List (Moment α τ)) : Prop where
  enabled : called.dock.enabled = true
  awake : called.dock.cadence.phase ≠ .suspended
  goes_on : ∀ moment ∈ later, moment.event ≠ .focusChanged ∧ moment.event ≠ .alarm .quiet ∧
    moment.withdraws = false

instance (called : Moment α τ) (later : List (Moment α τ)) : Decidable (Unbroken called later) :=
  decidable_of_iff (called.dock.enabled = true ∧ called.dock.cadence.phase ≠ .suspended ∧
      ∀ moment ∈ later, moment.event ≠ .focusChanged ∧ moment.event ≠ .alarm .quiet ∧
        moment.withdraws = false)
    ⟨fun h => ⟨h.1, h.2.1, h.2.2⟩, fun h => ⟨h.enabled, h.awake, h.goes_on⟩⟩

omit [Scalar α] [TimedService τ] in
/-- Ticks that have gone on did so before the latest moment too. -/
theorem Unbroken.of_cons {moment : Moment α τ} (h : Unbroken called (moment :: later)) :
    Unbroken called later :=
  ⟨h.enabled, h.awake, fun other hother => h.goes_on other (List.mem_cons_of_mem _ hother)⟩

section OnPace

variable {time : Nat}

/-- What is asked of a running cadence between two ticks puts the next tick off only if it restarts
    the cadence, and stops it only if the dock withdraws. -/
theorem Answer.onPace (h : Answer dock event dock') (pace : dock.cadence.OnPace time)
    (sound : dock.cadence.Sound) (timely : dock.cadence.Timely) (enabled : dock.enabled = true)
    (focus : event ≠ .focusChanged) (stays : dock.withdrawsOn host event = false) :
    dock'.cadence.OnPace time := by
  have hrunning := pace.running
  cases h with
  | counts ticks cadence_eq =>
      rw [cadence_eq]
      exact pace.of_alike ⟨rfl, rfl, rfl, rfl, rfl⟩
  | rearms cadence_eq =>
      rw [cadence_eq]
      exact pace.rearm timely.obliges
  | wakes ticks start cadence_eq =>
      rw [cadence_eq]
      have hordered : (dock.cadence.orderLayouts ticks).OnPace time :=
        pace.of_alike ⟨rfl, rfl, rfl, rfl, rfl⟩
      exact (hordered.start start).rearm (Cadence.atOnce_start start timely.obliges).obliges
  | restarts start ticks cadence_eq event_eq => exact absurd event_eq focus
  | resets disabled cadence_eq event_eq =>
      rw [event_eq] at stays
      exact nomatch enabled.symm.trans stays
  | beginsDrag cadence_eq event_eq =>
      have hresume := sound.resumeTimer_eq_none (by rw [hrunning]; decide)
      rw [cadence_eq, Cadence.beginDrag_of_running hrunning hresume]
      exact pace.of_alike ⟨rfl, rfl, rfl, rfl, rfl⟩
  | endsDrag event_eq cadence_eq =>
      rw [cadence_eq]
      obtain hsame | hsuspended := timely.endDrag_cases
      · rw [hsame]
        exact pace
      · have hleaves : dock.withdrawsOn host .dragEnd = true := by
          simp [withdrawsOn_dragEnd, enabled, hrunning, hsuspended]
        rw [event_eq] at stays
        exact nomatch hleaves.symm.trans stays

omit [TimedService τ] in
/-- An event that does not withdraw leaves the dock enabled. -/
theorem enabled_of_stays (enabled : dock.enabled = true)
    (stays : dock.withdrawsOn host event = false)
    (step : dock.handle host event = .ok (dock', commands)) : dock'.enabled = true := by
  cases handle_effect step with
  | rests => exact enabled
  | enables => rfl
  | announces =>
      rw [showLayers_fst]
      exact enabled
  | withdraws leaves => exact nomatch leaves.symm.trans stays
  | draws =>
      rw [layered_fst]
      exact enabled

/-- A tick that draws puts no other tick off. -/
theorem onPace_tick {animated : Bool} (pace : dock.cadence.OnPace time)
    (obliges : Obliges dock.cadence.timers) (drawn : dock.drawsOn host (.alarm .tick) = true)
    (h : dock.tick host = .ok (dock', commands, animated)) : dock'.cadence.OnPace time := by
  obtain ⟨shown, hanimate, -⟩ := animates_of_drawsOn drawn h
  obtain ⟨_, _, _, -, -, -, -, rfl⟩ := animate_cases hanimate
  have hupdated := pace.of_alike (alike_updated dock host)
  have hobliges : Obliges (dock.updated host).cadence.timers :=
    (timers_updated dock host).symm ▸ obliges
  show Cadence.OnPace (if _ then _ else _ : Cadence τ) time
  split
  · exact hupdated.rearm hobliges
  · exact hupdated

/-- A preview starts the ticks where there are none, and the next one is due within an interval. -/
theorem onPace_of_preview (timed : Timed (fun _ => True) dock) (enabled : dock.enabled = true)
    (awake : dock.cadence.phase ≠ .suspended)
    (step : dock.handle host (.preview true) = .ok (dock', commands)) :
    dock'.cadence.OnPace (timetable dock.cadence.timers).now := by
  have honward := onward_of_preview timed enabled awake step
  have hafter := timed.call host (.preview true) trivial nofun step
  have hpace := Cadence.OnPace.of_timely hafter.timely honward.1
  rw [(atOnce_handle timed.timely.obliges step).now_eq] at hpace
  exact hpace

/-- A call does not put the next tick off, as long as it does not restart the cadence. -/
theorem onPace_call (pace : dock.cadence.OnPace time) (sound : dock.Sound)
    (timely : dock.cadence.Timely) (enabled : dock.enabled = true)
    (call : ∀ alarm, event ≠ .alarm alarm) (focus : event ≠ .focusChanged)
    (stays : dock.withdrawsOn host event = false)
    (step : dock.handle host event = .ok (dock', commands)) : dock'.cadence.OnPace time :=
  (called call step).answer.onPace pace sound.cadence timely enabled focus stays

variable {timers : τ} {handle : TimerHandle} {plan : Plan}

/-- An alarm of a cadence that goes on ticking is a tick, and has it go on. -/
theorem onPace_ring (pace : dock.cadence.OnPace time) (sound : dock.Sound)
    (timely : dock.cadence.Timely) (enabled : dock.enabled = true) (obliges : Obliges timers)
    (rings : (timetable dock.cadence.timers).Rings handle plan (timetable timers))
    (loud : plan.alarm ≠ .quiet) {moment : Moment α τ}
    (moment_eq : moment = ⟨dock.withTimers timers, host, .alarm plan.alarm⟩)
    (stays : moment.withdraws = false)
    (step : (dock.withTimers timers).handle host (.alarm plan.alarm) = .ok (dock', commands)) :
    dock'.cadence.OnPace (time + (moment.counts + moment.delay)) := by
  subst moment_eq
  have hheld := held_of_rings sound timely.obliges rings
  cases halarm : plan.alarm with
  | tick =>
      rw [halarm] at hheld stays step
      obtain ⟨delay, hjournal, -, hrung⟩ := pace.ring_tick hheld rings
      have hdelay : Moment.delay ⟨dock.withTimers timers, host, .alarm .tick⟩ = delay :=
        Moment.delay_of_rang rfl hjournal
      have hdraws : (dock.withTimers timers).drawsOn host (.alarm .tick) = true :=
        drawsOn_tick_of_stays enabled stays
      have hcounts : Moment.counts ⟨dock.withTimers timers, host, .alarm .tick⟩ =
          dock.cadence.interval := if_pos hdraws
      rw [hcounts, hdelay, ← Nat.add_assoc]
      obtain ⟨animated, htick⟩ := tick_of_handle step
      exact onPace_tick hrung obliges hdraws htick
  | quiet => exact absurd halarm loud
  | resume =>
      -- no pause is waited for while the cadence runs
      rw [halarm] at hheld
      have hsuspended := sound.cadence.resume_suspended (Option.isSome_of_eq_some hheld)
      exact nomatch pace.running.symm.trans hsuspended

end OnPace

/-- While the ticks go on after a call for a preview, the next one is due an interval after what they
    have counted, and no later than they were late. -/
theorem Dated.onPace {earlier : List (Moment α τ)} (h : Dated dock past)
    (split : past = later ++ called :: earlier) (preview : called.event = .preview true)
    (unbroken : Unbroken called later) : dock.enabled = true ∧
      dock.cadence.OnPace (called.time + (counted later + late later)) := by
  -- along the run, which is followed from the call on: the first thing in `later` may be the call
  induction h generalizing later with
  | new timers obliges nothing => exact absurd split.symm (by simp)
  | @call dock dock' past commands host event before call step ih =>
      have htimed := before.timed
      cases later with
      | nil =>
          obtain ⟨rfl, rfl⟩ := List.cons.inj split
          obtain rfl : event = .preview true := preview
          have hstays : dock.withdrawsOn host (.preview true) = false := rfl
          exact ⟨enabled_of_stays unbroken.enabled hstays step,
            onPace_of_preview htimed unbroken.enabled unbroken.awake step⟩
      | cons moment later =>
          obtain ⟨rfl, hrest⟩ := List.cons.inj split
          obtain ⟨henabled, hpace⟩ := ih hrest unbroken.of_cons
          obtain ⟨hfocus, -, hstays⟩ := unbroken.goes_on _ List.mem_cons_self
          refine ⟨enabled_of_stays henabled hstays step, ?_⟩
          have hkept := onPace_call hpace htimed.sound htimed.timely henabled call hfocus hstays step
          refine hkept.mono ?_
          rw [counted_cons, late_cons]
          omega
  | @ring dock dock' past commands timers handle plan host before obliges rings step ih =>
      have htimed := before.timed
      cases later with
      | nil =>
          obtain ⟨rfl, rfl⟩ := List.cons.inj split
          exact nomatch preview
      | cons moment later =>
          obtain ⟨rfl, hrest⟩ := List.cons.inj split
          obtain ⟨henabled, hpace⟩ := ih hrest unbroken.of_cons
          obtain ⟨-, hloud, hstays⟩ := unbroken.goes_on _ List.mem_cons_self
          have hgoes : plan.alarm ≠ .quiet := fun hquiet => hloud (congrArg Event.alarm hquiet)
          have hrung : (dock.withTimers timers).enabled = true := henabled
          refine ⟨enabled_of_stays hrung hstays step, ?_⟩
          have hkept := onPace_ring hpace htimed.sound htimed.timely henabled obliges rings hgoes rfl
            hstays step
          refine hkept.mono ?_
          rw [counted_cons, late_cons]
          omega
  | pass before obliges passes ih =>
      obtain ⟨henabled, hpace⟩ := ih split unbroken
      exact ⟨henabled, hpace.pass passes⟩

/-! ## The preview is over -/

namespace Moment

/-- A tick puts its lens where the pointer is, and a preview has no say in it. -/
def FollowsPointer (moment : Moment α τ) : Prop :=
  ∃ dock' commands, moment.dock.handle moment.host (.alarm .tick) = .ok (dock', commands) ∧
    moment.dock.TicksWith moment.host
      (pointerFocus moment.host (moment.dock.updated moment.host).row.reset.tiles) dock' commands

end Moment

/-- The time at which a tick rings, if the ticks have gone on since a call for a preview. -/
theorem Dated.time_le {earlier : List (Moment α τ)} {tick : Moment α τ}
    (h : Dated dock (tick :: (later ++ called :: earlier))) (event_eq : tick.event = .alarm .tick)
    (preview : called.event = .preview true) (unbroken : Unbroken called later) :
    tick.time ≤ called.time + (counted later + tick.dock.cadence.interval + late (tick :: later)) := by
  obtain ⟨before, timers, handle, plan, _, _, hbefore, hdock, halarm, hrings, -⟩ := h.rung event_eq
  have hheld := held_of_rings hbefore.timed.sound hbefore.timed.timely.obliges hrings
  rw [halarm] at hheld
  obtain ⟨-, hpace⟩ := hbefore.onPace rfl preview unbroken
  obtain ⟨delay, hjournal, hnow, -⟩ := hpace.ring_tick hheld hrings
  obtain ⟨dock₁, host, event⟩ := tick
  obtain rfl : dock₁ = before.withTimers timers := hdock
  rw [late_cons, Moment.delay_of_rang event_eq hjournal]
  show (timetable timers).now ≤ called.time
    + (counted later + before.cadence.interval + (delay + late later))
  omega

/-- Why a preview is over when a tick comes. -/
inductive Over (called : Moment α τ) (later : List (Moment α τ)) (tick : Moment α τ) : Prop where
  /-- The ticks since the call have filled its period, each with its interval. -/
  | counted (filled : previewPeriod ≤ counted later)
  | calledOff {moment : Moment α τ} (mem : moment ∈ later) (off : moment.callsOff = true)
  /-- The ticks have gone on since the call, and its period and an interval have passed on the clock,
      besides the time by which the ticks were late. -/
  | elapsed (unbroken : Unbroken called later)
      (passed : called.time + (previewPeriod + tick.dock.cadence.interval + late (tick :: later))
        ≤ tick.time)

/-- **NO STALE PREVIEW**: a tick puts its lens where the pointer is, if the latest preview is over. -/
theorem Dated.previewOver {earlier : List (Moment α τ)} {tick : Moment α τ}
    (h : Dated dock (tick :: (later ++ called :: earlier))) (draws : tick.draws = true)
    (follows : Follows called later) (ends : Over called later tick) : tick.FollowsPointer := by
  obtain ⟨htick, -⟩ := drawsOn_cases draws
  obtain ⟨before, timers, _, _, ticked, commands, hbefore, hdock, -, -, hstep⟩ := h.rung htick
  obtain ⟨trace, hdriven⟩ := hbefore.driven
  obtain ⟨hleft, hoff⟩ := hdriven.countedDown rfl follows
  have hnothing : before.previewTime = 0 := by
    cases ends with
    | counted filled => exact Nat.le_zero.mp (hleft.trans (Nat.sub_eq_zero_of_le filled).le)
    | calledOff mem off => exact hoff ⟨_, mem, off⟩
    | elapsed unbroken passed =>
        -- the tick could not ring so late if less had been counted
        have htime := h.time_le htick follows.event_eq unbroken
        omega
  have hzero : (tick.dock.updated tick.host).previewTime = 0 := by
    rw [previewTime_updated, hdock]
    exact hnothing
  obtain ⟨animated, hticks⟩ := tick_of_handle hstep
  have hdrawn : tick.dock.drawsOn tick.host (.alarm .tick) = true := htick ▸ draws
  have hwith := ticksWith_of_drawsOn hdrawn hticks
  rw [focus_of_no_preview hzero] at hwith
  exact ⟨ticked, commands, hstep, hwith⟩

end Time

/-- A dock that ticks every 75 milliseconds.  The pointer is nowhere near. -/
private def slowly (icons : List (Icon Float)) : Host Float where
  settings :=
    { (Settings.standard : Settings Float) with
      magnification := { (Settings.standard : Settings Float).magnification with fps := 4.0 } }
  geometry := .standard
  icons := icons

private def bare : Host Float := slowly []

private def favored : Host Float := slowly [Icon.favorite 1 ⟨0.0, 0.0⟩]

/-- The dock in which the preview is called for. -/
private def restingDock : Dock Float Chronicle := (new Chronicle.start).enable bare.settings

/-- The dock after that. -/
private def previewing : Dock Float Chronicle :=
  ((restingDock.act (.call bare (.preview true))).getD (restingDock, [])).1

private theorem dated_previewing : Dated previewing
    [⟨restingDock, bare, .preview true⟩, ⟨new Chronicle.start, bare, .enable⟩] := by
  have hnew : Dated (new Chronicle.start : Dock Float Chronicle) [] :=
    .new _ Chronicle.start_isObliging fun _ => rfl
  have henabled : Dated restingDock [⟨new Chronicle.start, bare, .enable⟩] :=
    hnew.call bare .enable nofun rfl
  exact henabled.call bare (.preview true) nofun rfl

set_option maxRecDepth 4096 in
/-- With an icon to magnify a preview lasts sixteen ticks then.  The next one comes when the period and
    an interval have passed, and follows the pointer. -/
theorem previewOver_after_sixteen : ∃ (dock : Dock Float Chronicle)
    (tick called : Moment Float Chronicle) (later earlier : List (Moment Float Chronicle)),
    Dated dock (tick :: (later ++ called :: earlier)) ∧ Follows called later ∧
    Unbroken called later ∧ later.length = 16 ∧
    tick.time = called.time + (previewPeriod + tick.dock.cadence.interval) ∧
    tick.FollowsPointer := by
  have hplays : ∃ played ∈ previewing.play (List.replicate 17 (.ring favored)),
      ∃ tick ∈ played.2.head?, tick.draws = true ∧
        Follows ⟨restingDock, bare, .preview true⟩ played.2.tail ∧
        Unbroken ⟨restingDock, bare, .preview true⟩ played.2.tail ∧
        played.2.tail.length = 16 ∧ late (tick :: played.2.tail) = 0 ∧
        tick.time = previewPeriod + tick.dock.cadence.interval := by
    decide +kernel
  obtain ⟨⟨dock, newer⟩, hplay, tick, htick, hfacts⟩ := hplays
  obtain ⟨hdraws, hfollows, hunbroken, hsixteen, hlate, htime⟩ := hfacts
  dsimp only at htick hfollows hunbroken hsixteen hlate
  have hdated := dated_previewing.play hplay
  rw [List.eq_cons_of_mem_head? htick] at hdated
  have hpassed : Moment.time ⟨restingDock, bare, .preview true⟩
      + (previewPeriod + tick.dock.cadence.interval + late (tick :: newer.tail)) ≤ tick.time := by
    rw [hlate, htime]
    exact Nat.le_of_eq (Nat.zero_add _)
  refine ⟨dock, tick, _, newer.tail, _, hdated, hfollows, hunbroken, hsixteen, ?_,
    hdated.previewOver hdraws hfollows (.elapsed hunbroken hpassed)⟩
  exact htime.trans (Nat.zero_add _).symm

/-- Which tiles the lens is on after a tick. -/
private def lit (tick : Moment Float Chronicle) : Option (List Bool) :=
  (tick.dock.handle tick.host (.alarm .tick)).toOption.map fun (ticked, _) =>
    ticked.row.tiles.map (·.distance.isSome)

/-- Which tiles it is on where the tick follows the pointer. -/
private def litByPointer (tick : Moment Float Chronicle) : Option (List Bool) :=
  let row := (tick.dock.updated tick.host).row.reset
  let focus := pointerFocus tick.host row.tiles
  (magnify tick.host focus row.tiles).toOption.map fun (tiles, _) =>
    (Frame.build tick.host.geometry tick.host.settings focus.isNone (tick.dock.updated tick.host).pool
      tiles).tiles.map (·.distance.isSome)

private theorem lit_eq_litByPointer {tick : Moment Float Chronicle} (h : tick.FollowsPointer) :
    lit tick = litByPointer tick := by
  obtain ⟨ticked, commands, hstep, tiles, magnified, before, after, hmagnify, htiles, -⟩ := h
  unfold lit litByPointer
  dsimp only
  rw [hstep, hmagnify]
  exact congrArg (fun tiles => some (tiles.map (·.distance.isSome))) htiles

set_option maxRecDepth 4096 in
/-- Without icons the cadence stops before the ticks have filled the period of a preview, and what is
    left of it waits.  The first tick after that has its lens on an icon that has come since, long after
    the period, although no tick has been late, and the dock has been enabled and in the scene all the
    time. -/
theorem previewOver_not_by_clock : ∃ (dock : Dock Float Chronicle)
    (tick called : Moment Float Chronicle) (later earlier : List (Moment Float Chronicle)),
    Dated dock (tick :: (later ++ called :: earlier)) ∧ Follows called later ∧
    called.dock.enabled = true ∧ (∀ moment ∈ later, moment.withdraws = false) ∧
    late (tick :: later) = 0 ∧ tick.draws = true ∧
    called.time + (previewPeriod + tick.dock.cadence.interval) < tick.time ∧
    ¬ tick.FollowsPointer := by
  have hplays : ∃ played ∈ previewing.play (List.replicate 12 (.ring bare) ++
        [.wait (milliseconds 5000), .call favored .pointerEnter, .ring favored]),
      ∃ tick ∈ played.2.head?,
        Follows ⟨restingDock, bare, .preview true⟩ played.2.tail ∧
        (∀ moment ∈ played.2.tail, moment.withdraws = false) ∧
        late (tick :: played.2.tail) = 0 ∧ tick.draws = true ∧
        Moment.time ⟨restingDock, bare, .preview true⟩
          + (previewPeriod + tick.dock.cadence.interval) < tick.time ∧
        lit tick ≠ litByPointer tick := by
    decide +kernel
  obtain ⟨⟨dock, newer⟩, hplay, tick, htick, hfacts⟩ := hplays
  obtain ⟨hfollows, hstays, hlate, hdraws, hpassed, hlit⟩ := hfacts
  dsimp only at htick hfollows hstays hlate
  have hdated := dated_previewing.play hplay
  rw [List.eq_cons_of_mem_head? htick] at hdated
  exact ⟨dock, tick, _, newer.tail, _, hdated, hfollows, rfl, hstays, hlate, hdraws, hpassed,
    fun hfollowsPointer => hlit (lit_eq_litByPointer hfollowsPointer)⟩

end Dock

end FisheyeDock
