import FisheyeDock.Proofs.Dock.Debounce
import FisheyeDock.Proofs.Dock.Effect

/-! # When a suspension ends

    A drag suspends the cadence, and its end asks for one alarm `resumeDelay` later.  The begin of
    another drag takes that alarm back, the end of one puts another in its place, and whatever else
    is asked of a suspended cadence leaves its timers alone (`Undisturbed`).

    So it can be read off the history of a run whether a suspension waits for the end of a drag or
    for the end of a pause, and when the pause has passed (`Remembered.suspension`). -/

namespace FisheyeDock

namespace Cadence

open TimerService

variable {τ : Type} [TimerService τ] {c c' c₁ : Cadence τ}

/-! ## What leaves a suspension alone -/

/-- An operation that concerns no drag.  The timers of a suspended cadence stay as they are. -/
structure Undisturbed (c c' : Cadence τ) : Prop extends SameDrag c c' where
  timers : c.phase = .suspended → c'.timers = c.timers

omit [TimerService τ] in
/-- What is undisturbed by one operation and by the next is so by both. -/
theorem Undisturbed.trans (first : Undisturbed c c₁) (second : Undisturbed c₁ c') :
    Undisturbed c c' where
  toSameDrag := first.toSameDrag.trans second.toSameDrag
  timers hsuspended :=
    (second.timers (first.suspended_iff.mpr hsuspended)).trans (first.timers hsuspended)

omit [TimerService τ] in
/-- The order of layouts disturbs no pause. -/
theorem undisturbed_orderLayouts (c : Cadence τ) (ticks : Nat) :
    Undisturbed c (c.orderLayouts ticks) :=
  ⟨sameDrag_orderLayouts c ticks, fun _ => rfl⟩

theorem undisturbed_rearm (c : Cadence τ) : Undisturbed c c.rearm := by
  refine ⟨sameDrag_rearm c, fun hsuspended => ?_⟩
  rw [rearm, if_neg (by rw [hsuspended]; decide)]

theorem undisturbed_start {α : Type} [Scalar α] {fps : α} (h : c.start fps = .ok c') :
    Undisturbed c c' := by
  refine ⟨sameDrag_start h, fun hsuspended => ?_⟩
  rw [start, if_neg (by rw [hsuspended]; decide)] at h
  rw [Except.ok.inj h]

/-- A suspended cadence has no ticks to halt, and waits for no quiet period. -/
theorem Sound.undisturbed_halt [LawfulTimerService τ] (h : c.Sound) : Undisturbed c c.halt := by
  refine ⟨sameDrag_halt c, fun hsuspended => ?_⟩
  have hphase : c.phase ≠ .running := by
    rw [hsuspended]
    decide
  rw [Cadence.halt, h.tickTimer_eq_none hphase, h.quietTimer_eq_none hphase]
  rfl

/-! ## The end of a drag -/

/-- No timer is refused, so that after the end of a drag a suspension lasts for one more pause from
    now. -/
theorem endDrag_pauses [TimedService τ] (obliges : Obliges c.timers) :
    c.endDrag.dragQueued = false ∧ (c.endDrag.phase = .suspended →
      ∃ handle, c.endDrag.resumeTimer = some handle ∧
        (timetable c.endDrag.timers).plans handle =
          some ⟨.resume, (timetable c.endDrag.timers).now + resumeDelay, none⟩) := by
  have hdropped : (if c.dragQueued then c.suspend else c).dragQueued = false := by
    by_cases hqueued : c.dragQueued = true
    · rw [if_pos hqueued]
      rfl
    · rw [if_neg hqueued]
      exact (Bool.not_eq_true _).mp hqueued
  have hobliges : Obliges (if c.dragQueued then c.suspend else c).timers := by
    split
    · exact obliges_halt obliges
    · exact obliges
  unfold endDrag
  generalize (if c.dragQueued then c.suspend else c) = c₁ at hdropped hobliges
  by_cases hsuspended : c₁.phase = .suspended
  · obtain ⟨handle, timers, hask, -, hgrants⟩ := TimedService.once_granted resumeDelay .resume
      (cancelAny_obliges hobliges c₁.resumeTimer)
    rw [if_pos hsuspended, hask]
    refine ⟨hdropped, fun _ => ⟨handle, rfl, ?_⟩⟩
    show (timetable timers).plans handle = some ⟨_, (timetable timers).now + _, _⟩
    rw [hgrants.table_eq]
    exact Function.update_self _ _ _
  · rw [if_neg hsuspended]
    exact ⟨hdropped, fun hphase => absurd hphase hsuspended⟩

end Cadence

namespace Dock

open Scene (Command)
open TimerService
open Cadence (Undisturbed)

variable {α τ : Type} [Scalar α] [TimerService τ]
variable {dock dock' : Dock α τ} {host : Host α} {commands : List (Command α)} {event : Event}

/-! ## Calls -/

/-- A call that concerns no drag, and disables nothing, leaves a suspension alone. -/
theorem Answer.undisturbed [LawfulTimerService τ] (h : Answer dock event dock')
    (sound : dock.Sound) (noDrag : event ≠ .dragBegin ∧ event ≠ .dragEnd) (on : event ≠ .disable) :
    Undisturbed dock.cadence dock'.cadence := by
  open Cadence in
  cases h with
  | counts ticks cadence_eq =>
      rw [cadence_eq]
      exact undisturbed_orderLayouts _ ticks
  | rearms cadence_eq =>
      rw [cadence_eq]
      exact undisturbed_rearm _
  | wakes ticks start cadence_eq =>
      rw [cadence_eq]
      exact ((undisturbed_orderLayouts _ ticks).trans (undisturbed_start start)).trans
        (undisturbed_rearm _)
  | restarts start ticks cadence_eq =>
      rw [cadence_eq]
      exact ((sound.cadence.undisturbed_halt.trans (undisturbed_start start)).trans
        (undisturbed_rearm _)).trans (undisturbed_orderLayouts _ ticks)
  | resets disabled cadence_eq event_eq => exact absurd event_eq on
  | beginsDrag cadence_eq event_eq => exact absurd event_eq noDrag.1
  | endsDrag event_eq cadence_eq => exact absurd event_eq noDrag.2

/-- A drag that begins reaches the cadence of an enabled dock only. -/
theorem dragBegin_cases (step : dock.handle host .dragBegin = .ok (dock', commands)) :
    (dock.enabled = false ∧ dock' = dock) ∨
    (dock.enabled = true ∧ dock'.enabled = true ∧ dock'.cadence = dock.cadence.beginDrag) := by
  have hdone : dock' = dock.dragBegin.1 := congrArg Prod.fst (Except.ok.inj step).symm
  by_cases henabled : dock.enabled = true
  · refine .inr ⟨henabled, ?_, (begun_of_enabled henabled step).1⟩
    rw [hdone, dragBegin, if_pos henabled]
    dsimp only
    split
    · rw [withdraw_fst]
      exact henabled
    · exact henabled
  · rw [dragBegin, if_neg henabled] at hdone
    exact .inl ⟨(Bool.not_eq_true _).mp henabled, hdone⟩

theorem dragEnd_cases (step : dock.handle host .dragEnd = .ok (dock', commands)) :
    (dock.enabled = false ∧ dock' = dock) ∨
    (dock.enabled = true ∧ dock'.enabled = true ∧ dock'.cadence = dock.cadence.endDrag) := by
  have hdone : dock' = dock.dragEnd.1 := congrArg Prod.fst (Except.ok.inj step).symm
  by_cases henabled : dock.enabled = true
  · refine .inr ⟨henabled, ?_⟩
    rw [hdone, dragEnd, if_pos henabled]
    dsimp only
    split
    · rw [withdraw_fst]
      exact ⟨henabled, rfl⟩
    · exact ⟨henabled, rfl⟩
  · rw [dragEnd, if_neg henabled] at hdone
    exact .inl ⟨(Bool.not_eq_true _).mp henabled, hdone⟩

/-! ## Histories -/

/-- Something that has happened to a dock, and when. -/
structure Occasion where
  time : Nat
  event : Event
  deriving Repr, DecidableEq

/-- A drag begins or ends. -/
def Occasion.isDrag (occasion : Occasion) : Bool :=
  decide (occasion.event = .dragBegin ∨ occasion.event = .dragEnd)

/-- The latest begin or end of a drag in a history. -/
def latestDrag? (history : List Occasion) : Option Occasion := history.find? Occasion.isDrag

/-- A history with one more event, if there is one. -/
def remember (time : Nat) (occurrence : Option Event) (history : List Occasion) : List Occasion :=
  occurrence.elim history fun event => ⟨time, event⟩ :: history

/-- What is no drag leaves the latest drag as it is. -/
theorem latestDrag?_remember {occurrence : Option Event} (time : Nat) (history : List Occasion)
    (noDrag : occurrence ≠ some .dragBegin ∧ occurrence ≠ some .dragEnd) :
    latestDrag? (remember time occurrence history) = latestDrag? history := by
  cases occurrence with
  | none => rfl
  | some event =>
      have hnot : Occasion.isDrag ⟨time, event⟩ = false := by
        refine decide_eq_false ?_
        rintro (rfl | rfl)
        · exact noDrag.1 rfl
        · exact noDrag.2 rfl
      exact List.find?_cons_of_neg (by rw [hnot]; decide)

variable [TimedService τ]

/-- The docks that a run in time leads to, with all that has happened to them, the latest first. -/
inductive Remembered (allowed : Host α → Prop) : Dock α τ → List Occasion → Prop where
  | new (timers : τ) (obliges : Obliges timers)
      (nothing : ∀ handle, (timetable timers).plans handle = none) :
      Remembered allowed (new timers) []
  | step {dock dock' : Dock α τ} {history : List Occasion} {occurrence : Option Event}
      (before : Remembered allowed dock history) (step : TimedStep allowed dock occurrence dock') :
      Remembered allowed dock'
        (remember (timetable dock'.cadence.timers).now occurrence history)

variable {allowed : Host α → Prop} {history : List Occasion} {latest : Option Occasion}
variable {occurrence : Option Event}

/-- The history aside, such a run is a run in time. -/
theorem Remembered.timed (h : Remembered allowed dock history) : Timed allowed dock := by
  induction h with
  | new timers obliges nothing => exact .new timers obliges nothing
  | step before step ih => exact ih.step step

/-- A call is remembered with its time. -/
theorem Remembered.call (h : Remembered allowed dock history) (host : Host α) (event : Event)
    (allows : allowed host) (call : ∀ alarm, event ≠ .alarm alarm)
    (step : dock.handle host event = .ok (dock', commands)) :
    Remembered allowed dock' (⟨(timetable dock'.cadence.timers).now, event⟩ :: history) :=
  h.step (.call host allows call step)

/-- Time that passes is not remembered. -/
theorem Remembered.pass (h : Remembered allowed dock history) (timers : τ)
    (obliges : Obliges timers)
    (passes : (timetable dock.cadence.timers).Passes (timetable timers)) :
    Remembered allowed (dock.withTimers timers) history :=
  h.step (.pass obliges passes)

/-! ## What a suspension waits for -/

omit [Scalar α] in
/-- A suspended cadence waits for the end of the drag, or for the end of the pause after it. -/
inductive Waits (cadence : Cadence τ) : Option Occasion → Prop where
  | drag {begun : Nat} (resumeTimer : cadence.resumeTimer = none) :
      Waits cadence (some ⟨begun, .dragBegin⟩)
  | pause {ended : Nat} {handle : TimerHandle} (held : cadence.resumeTimer = some handle)
      (plan : (timetable cadence.timers).plans handle =
        some ⟨.resume, ended + Cadence.resumeDelay, none⟩) :
      Waits cadence (some ⟨ended, .dragEnd⟩)

omit [Scalar α] in
/-- A pause is waited for as long as its timer is held and has its plan. -/
theorem Waits.keep {cadence cadence' : Cadence τ} (h : Waits cadence latest)
    (resumeTimer : cadence'.resumeTimer = cadence.resumeTimer)
    (plans : (timetable cadence'.timers).plans = (timetable cadence.timers).plans) :
    Waits cadence' latest := by
  cases h with
  | drag hnone => exact .drag (resumeTimer.trans hnone)
  | pause held plan => exact .pause (resumeTimer.trans held) ((congrFun plans _).trans plan)

omit [Scalar α] in
/-- What the latest drag event says of a dock. -/
structure Awaits (dock : Dock α τ) (latest : Option Occasion) : Prop where
  queued : dock.cadence.dragQueued = true → ∃ begun, latest = some ⟨begun, .dragBegin⟩
  waits : dock.cadence.phase = .suspended → Waits dock.cadence latest
  free : dock.enabled = false → dock.cadence.dragQueued = false

omit [TimedService τ] in
/-- A dock that gets disabled has no drag queued any more. -/
theorem free_of_handle (step : dock.handle host event = .ok (dock', commands))
    (kept : dock.enabled = false → dock'.cadence.dragQueued = false)
    (disabled : dock'.enabled = false) : dock'.cadence.dragQueued = false := by
  by_cases henabled : dock.enabled = true
  · rw [(handle_effect step).disabled henabled disabled, disable, if_pos henabled,
      cadence_withdraw]
    rfl
  · exact kept ((Bool.not_eq_true _).mp henabled)

/-! ## The invariant -/

/-- An operation that concerns no drag keeps what a dock awaits. -/
theorem Awaits.undisturbed (h : dock.Awaits latest)
    (step : dock.handle host event = .ok (dock', commands))
    (same : Undisturbed dock.cadence dock'.cadence) : dock'.Awaits latest where
  queued hqueued := h.queued (same.dragQueued ▸ hqueued)
  waits := by
    intro hsuspended
    have hbefore := same.suspended_iff.mp hsuspended
    have hplans := congrArg (fun timers => (timetable timers).plans) (same.timers hbefore)
    exact (h.waits hbefore).keep same.resumeTimer hplans
  free := free_of_handle step fun hdisabled => same.dragQueued.trans (h.free hdisabled)

omit [Scalar α] in
/-- A dock that is not suspended, and has no drag queued, awaits nothing. -/
theorem Awaits.of_awake (awake : dock.cadence.phase ≠ .suspended)
    (free : dock.cadence.dragQueued = false) : dock.Awaits latest :=
  ⟨fun hqueued => absurd (hqueued.symm.trans free) nofun, fun hphase => absurd hphase awake,
    fun _ => free⟩

/-- A drag that begins waits for its end. -/
theorem awaits_of_dragBegin (h : dock.Awaits latest) (sound : dock.Sound)
    (step : dock.handle host .dragBegin = .ok (dock', commands)) (time : Nat) :
    dock'.Awaits (some ⟨time, .dragBegin⟩) := by
  obtain ⟨hdisabled, rfl⟩ | ⟨-, henabled, hcadence⟩ := dragBegin_cases step
  · exact .of_awake (by rw [sound.rests hdisabled]; decide) (h.free hdisabled)
  · refine ⟨fun _ => ⟨time, rfl⟩, fun _ => .drag ?_, ?_⟩
    · rw [hcadence]
      exact dock.cadence.dragOn_beginDrag.resumeTimer
    · exact fun hdisabled => nomatch henabled.symm.trans hdisabled

/-- A drag that ends waits for the resume, from now on. -/
theorem awaits_of_dragEnd (h : dock.Awaits latest) (sound : dock.Sound)
    (timely : dock.cadence.Timely) (step : dock.handle host .dragEnd = .ok (dock', commands)) :
    dock'.Awaits (some ⟨(timetable dock'.cadence.timers).now, .dragEnd⟩) := by
  obtain ⟨hdisabled, rfl⟩ | ⟨-, -, hcadence⟩ := dragEnd_cases step
  · exact .of_awake (by rw [sound.rests hdisabled]; decide) (h.free hdisabled)
  · obtain ⟨hdropped, hpauses⟩ := Cadence.endDrag_pauses timely.obliges
    rw [← hcadence] at hdropped hpauses
    refine ⟨fun hqueued => absurd (hqueued.symm.trans hdropped) nofun, fun hsuspended => ?_,
      fun _ => hdropped⟩
    obtain ⟨handle, hheld, hplan⟩ := hpauses hsuspended
    exact .pause hheld hplan

/-- Whatever is called, the latest drag is waited on. -/
theorem Awaits.call (h : dock.Awaits (latestDrag? history)) (sound : dock.Sound)
    (timely : dock.cadence.Timely) (call : ∀ alarm, event ≠ .alarm alarm)
    (step : dock.handle host event = .ok (dock', commands)) :
    dock'.Awaits (latestDrag?
      (remember (timetable dock'.cadence.timers).now (some event) history)) := by
  by_cases hbegin : event = .dragBegin
  · subst hbegin
    exact awaits_of_dragBegin h sound step _
  by_cases hend : event = .dragEnd
  · subst hend
    exact awaits_of_dragEnd h sound timely step
  rw [latestDrag?_remember _ _ ⟨mt Option.some.inj hbegin, mt Option.some.inj hend⟩]
  by_cases hdisable : event = .disable
  · subst hdisable
    by_cases henabled : dock.enabled = true
    · have hcadence : dock'.cadence = dock.cadence.reset := by
        rw [show dock' = dock.disable.1 from congrArg Prod.fst (Except.ok.inj step).symm, disable,
          if_pos henabled, cadence_withdraw]
      refine .of_awake ?_ (by rw [hcadence]; rfl)
      rw [hcadence]
      exact show Cadence.Phase.idle ≠ .suspended by decide
    · have hdock : dock' = dock.disable.1 := congrArg Prod.fst (Except.ok.inj step).symm
      rw [disable, if_neg henabled] at hdock
      rw [hdock]
      exact h
  · exact h.undisturbed step
      ((called call step).answer.undisturbed sound ⟨hbegin, hend⟩ hdisable)

/-! ## Alarms -/

/-- A dock that has just come back after a pause. -/
structure Resumed (dock : Dock α τ) : Prop where
  enabled : dock.enabled = true
  running : dock.cadence.phase = .running
  layoutsLeft : dock.cadence.layoutsLeft = Cadence.longLayout

omit [TimedService τ] in
/-- A new quiet period leaves the layouts that are ordered. -/
theorem layoutsLeft_rearm (c : Cadence τ) : c.rearm.layoutsLeft = c.layoutsLeft := by
  rw [Cadence.rearm]
  split <;> rfl

/-- No timer is refused, so that the end of a suspension starts the ticks. -/
theorem resumed_of_resume {settings : Settings α} (enabled : dock.enabled = true)
    (suspended : dock.cadence.phase = .suspended) (obliges : Obliges dock.cadence.timers)
    (h : dock.resume settings = .ok dock') :
    dock'.Resumed ∧ dock'.cadence.dragQueued = dock.cadence.dragQueued := by
  rw [Dock.resume, Cadence.resume_of_suspended suspended] at h
  obtain ⟨hdisabled, -⟩ | ⟨-, started, hstart, rfl⟩ := wake_cases h
  · exact absurd (enabled.symm.trans hdisabled) (by decide)
  · have hrearmed := (Cadence.sameDrag_rearm started).dragQueued
    obtain ⟨hawake, -⟩ | ⟨-, interval, handle, timers, -, -, rfl⟩ |
      ⟨-, interval, timers, -, hask, -⟩ := Cadence.start_cases hstart
    · exact absurd rfl hawake
    · refine ⟨⟨enabled, ?_, ?_⟩, hrearmed⟩
      · exact Cadence.phase_rearm _
      · exact layoutsLeft_rearm _
    · obtain ⟨granted, timers', hgranted, -⟩ :=
        TimedService.repeating_granted interval .tick obliges
      exact absurd (congrArg Prod.fst (hask.symm.trans hgranted)) (Option.some_ne_none _).symm

omit [TimedService τ] in
/-- A tick runs on, suspends for the drag that is queued, or disables the dock. -/
theorem drag_of_tick {animated : Bool} (enabled : dock.enabled = true)
    (h : dock.tick host = .ok (dock', commands, animated)) :
    Cadence.SameDrag dock.cadence dock'.cadence ∨
    (dock.cadence.dragQueued = true ∧ dock'.cadence = dock.cadence.suspend) ∨
    dock'.cadence = dock.cadence.reset := by
  obtain ⟨hdisabled, -⟩ | ⟨-, hqueued, heq⟩ | ⟨-, -, -, heq⟩ | ⟨-, -, -, shown, hanimate, -⟩ :=
    tick_cases h
  · exact nomatch enabled.symm.trans hdisabled
  · refine .inr (.inl ⟨hqueued, ?_⟩)
    rw [show dock' = _ from congrArg Prod.fst heq, cadence_withdraw]
  · refine .inr (.inr ?_)
    rw [show dock' = _ from congrArg Prod.fst heq, disable, if_pos enabled, cadence_withdraw]
  · refine .inl ?_
    have hupdated : Cadence.SameDrag dock.cadence (dock.updated host).cadence := by
      obtain ⟨ticks, heq⟩ := cadence_updated dock host
      rw [heq]
      exact Cadence.sameDrag_orderLayouts _ ticks
    obtain ⟨_, _, _, _, _, _, _, rfl⟩ := animate_cases hanimate
    show Cadence.SameDrag _ (if _ then _ else _ : Cadence τ)
    split
    · exact hupdated.trans (Cadence.sameDrag_rearm _)
    · exact hupdated

section Ring

variable {timers : τ} {handle : TimerHandle} {plan : Plan}

/-- Whatever rings, the latest drag is waited on. -/
theorem Awaits.ring (h : dock.Awaits latest) (sound : dock.Sound) (timely : dock.cadence.Timely)
    (obliges : Obliges timers)
    (rings : (timetable dock.cadence.timers).Rings handle plan (timetable timers))
    (step : (dock.withTimers timers).handle host (.alarm plan.alarm) = .ok (dock', commands)) :
    dock'.Awaits latest := by
  have hheld := held_of_rings sound timely.obliges rings
  have henabled : (dock.withTimers timers).enabled = true := sound.enabled_of_held hheld
  cases halarm : plan.alarm with
  | tick =>
      rw [halarm] at step hheld
      obtain ⟨animated, htick⟩ := tick_of_handle step
      have hrunning := sound.cadence.tick_iff.mp (Option.isSome_of_eq_some hheld)
      have hawake : dock.cadence.phase ≠ .suspended := by
        rw [hrunning]
        decide
      -- a tick finds the cadence running, so that it can only suspend for a drag that is queued
      obtain hsame | ⟨hqueued, hcadence⟩ | hcadence := drag_of_tick henabled htick
      · refine ⟨fun hqueued => h.queued (hsame.dragQueued ▸ hqueued),
          fun hsuspended => absurd (hsame.suspended_iff.mp hsuspended) hawake, ?_⟩
        exact free_of_handle step fun hdisabled => nomatch henabled.symm.trans hdisabled
      · -- the drag that was queued is the latest there is
        obtain ⟨begun, rfl⟩ := h.queued hqueued
        have hnone := sound.cadence.resumeTimer_eq_none hawake
        refine ⟨fun _ => ⟨begun, rfl⟩, fun _ => .drag ?_, fun _ => ?_⟩
        · rw [hcadence]
          exact hnone
        · rw [hcadence]
          rfl
      · refine .of_awake ?_ (by rw [hcadence]; rfl)
        rw [hcadence]
        exact show Cadence.Phase.idle ≠ .suspended by decide
  | quiet =>
      rw [halarm] at step hheld
      obtain ⟨rfl, -⟩ := Prod.mk.inj (Except.ok.inj step)
      have hrunning := sound.cadence.quiet_running (Option.isSome_of_eq_some hheld)
      have hsame := Cadence.sameDrag_halt { dock.cadence with timers, quietTimer := none }
      refine ⟨h.queued, fun hsuspended => ?_, h.free⟩
      exact nomatch hrunning.symm.trans (hsame.suspended_iff.mp hsuspended)
  | resume =>
      rw [halarm] at step hheld
      obtain ⟨hresume, -⟩ := resume_of_handle step
      have hsuspended : (dock.withTimers timers).cadence.phase = .suspended :=
        sound.cadence.resume_suspended (Option.isSome_of_eq_some hheld)
      obtain ⟨hresumed, hdrag⟩ := resumed_of_resume henabled hsuspended obliges hresume
      refine ⟨fun hqueued => h.queued (hdrag ▸ hqueued), fun hphase => ?_, fun hdisabled => ?_⟩
      · exact nomatch hresumed.running.symm.trans hphase
      · exact nomatch hresumed.enabled.symm.trans hdisabled

end Ring

/-- What a run keeps up: its history tells what a suspension waits for. -/
theorem Remembered.awaits (h : Remembered allowed dock history) :
    dock.Awaits (latestDrag? history) := by
  induction h with
  | new timers obliges nothing =>
      exact .of_awake (show Cadence.Phase.idle ≠ .suspended by decide) rfl
  | step before step ih =>
      have htimed := before.timed
      cases step with
      | call host allows call step => exact ih.call htimed.sound htimed.timely call step
      | ring host allows obliges rings step =>
          rw [latestDrag?_remember]
          · exact ih.ring htimed.sound htimed.timely obliges rings step
          · exact ⟨nofun, nofun⟩
      | pass obliges passes =>
          exact ⟨ih.queued, fun hsuspended => (ih.waits hsuspended).keep rfl passes.plans_eq,
            ih.free⟩

/-! ## The end of a suspension -/

/-- What can happen to a suspended dock. -/
inductive Pause (dock dock' : Dock α τ) : Option Event → Prop where
  | disabled (off : dock'.enabled = false) : Pause dock dock' (some .disable)
  | resumed {deadline : Nat} (due : dock.Due .resume deadline)
      (passed : deadline ≤ (timetable dock'.cadence.timers).now) (resumed : dock'.Resumed) :
      Pause dock dock' (some (.alarm .resume))
  | drags {event : Event} (drag : event = .dragBegin ∨ event = .dragEnd)
      (suspended : dock'.cadence.phase = .suspended) : Pause dock dock' (some event)
  /-- Nothing is done about the timers. -/
  | lasts {occurrence : Option Event} (suspended : dock'.cadence.phase = .suspended)
      (plans : (timetable dock'.cadence.timers).plans = (timetable dock.cadence.timers).plans) :
      Pause dock dock' occurrence

section Pause

variable (sound : dock.Sound) (timely : dock.cadence.Timely)
  (suspended : dock.cadence.phase = .suspended)

include sound suspended in
omit [Scalar α] in
/-- Only an enabled dock is suspended. -/
theorem enabled_of_suspended : dock.enabled = true := by
  by_contra hdisabled
  have hidle := sound.rests ((Bool.not_eq_true _).mp hdisabled)
  exact nomatch hidle.symm.trans suspended

include sound timely suspended in
/-- What a call can do to a suspended dock. -/
theorem pause_of_call (call : ∀ alarm, event ≠ .alarm alarm)
    (step : dock.handle host event = .ok (dock', commands)) : Pause dock dock' (some event) := by
  have henabled := enabled_of_suspended sound suspended
  by_cases hbegin : event = .dragBegin
  · subst hbegin
    refine .drags (.inl rfl) ?_
    rw [(begun_of_enabled henabled step).1]
    exact Cadence.phase_beginDrag_of_ne (by rw [suspended]; decide)
  by_cases hend : event = .dragEnd
  · subst hend
    obtain ⟨hdisabled, -⟩ | ⟨-, -, hcadence⟩ := dragEnd_cases step
    · exact nomatch henabled.symm.trans hdisabled
    · refine .drags (.inr rfl) ?_
      rw [hcadence]
      obtain hsame | hsuspended := timely.endDrag_cases
      · rw [hsame]
        exact suspended
      · exact hsuspended
  by_cases hdisable : event = .disable
  · subst hdisable
    refine .disabled ?_
    rw [show dock' = dock.disable.1 from congrArg Prod.fst (Except.ok.inj step).symm, disable,
      if_pos henabled, withdraw_fst]
  · have hsame := (called call step).answer.undisturbed sound ⟨hbegin, hend⟩ hdisable
    exact .lasts (hsame.suspended_iff.mpr suspended)
      (congrArg (fun timers => (timetable timers).plans) (hsame.timers suspended))

include sound timely suspended in
/-- Only the end of the pause rings. -/
theorem pause_of_ring {timers : τ} {handle : TimerHandle} {plan : Plan} (obliges : Obliges timers)
    (rings : (timetable dock.cadence.timers).Rings handle plan (timetable timers))
    (step : (dock.withTimers timers).handle host (.alarm plan.alarm) = .ok (dock', commands)) :
    Pause dock dock' (some (.alarm plan.alarm)) := by
  have hheld := held_of_rings sound timely.obliges rings
  have henabled : (dock.withTimers timers).enabled = true := sound.enabled_of_held hheld
  cases halarm : plan.alarm with
  | tick =>
      rw [halarm] at hheld
      have hrunning := sound.cadence.tick_iff.mp (Option.isSome_of_eq_some hheld)
      exact nomatch hrunning.symm.trans suspended
  | quiet =>
      rw [halarm] at hheld
      have hrunning := sound.cadence.quiet_running (Option.isSome_of_eq_some hheld)
      exact nomatch hrunning.symm.trans suspended
  | resume =>
      rw [halarm] at step
      have hpassed : plan.deadline ≤ (timetable dock'.cadence.timers).now := by
        have hnow : (timetable dock'.cadence.timers).now = (timetable timers).now :=
          (atOnce_handle obliges step).now_eq
        rw [hnow]
        exact rings.due
      obtain ⟨hresume, -⟩ := resume_of_handle step
      refine .resumed ⟨handle, plan.every, ?_⟩ hpassed
        (resumed_of_resume henabled suspended obliges hresume).1
      rw [rings.planned, ← halarm]

include sound timely suspended in
/-- What can happen to it all in all. -/
theorem TimedStep.pause (h : TimedStep allowed dock occurrence dock') :
    Pause dock dock' occurrence := by
  cases h with
  | call host allows call step => exact pause_of_call sound timely suspended call step
  | ring host allows obliges rings step =>
      exact pause_of_ring sound timely suspended obliges rings step
  | pass obliges passes => exact .lasts suspended passes.plans_eq

end Pause

/-- Nothing that was pending before a step was due before its end. -/
def OnTime (dock dock' : Dock α τ) : Prop :=
  ∀ {alarm : Alarm} {deadline : Nat}, dock.Due alarm deadline →
    (timetable dock'.cadence.timers).now ≤ deadline

/-- What ends the suspension of a dock with such a history, and when. -/
structure Suspension (allowed : Host α → Prop) (dock : Dock α τ) (history : List Occasion) :
    Prop where
  /-- The end of the pause is due once the latest drag has ended, and timed from there. -/
  due_iff : ∀ {deadline : Nat}, dock.Due .resume deadline ↔
    dock.cadence.phase = .suspended ∧ ∃ ended, latestDrag? history = some ⟨ended, .dragEnd⟩ ∧
      deadline = ended + Cadence.resumeDelay
  /-- A suspension ends when the dock is disabled, or when that pause has passed. -/
  leaves : dock.cadence.phase = .suspended → ∀ {occurrence : Option Event} {dock' : Dock α τ},
    TimedStep allowed dock occurrence dock' → dock'.cadence.phase ≠ .suspended →
    (occurrence = some .disable ∧ dock'.enabled = false) ∨
    (occurrence = some (.alarm .resume) ∧ dock'.Resumed ∧
      ∃ ended, latestDrag? history = some ⟨ended, .dragEnd⟩ ∧
        ended + Cadence.resumeDelay ≤ (timetable dock'.cadence.timers).now ∧
        (dock.OnTime dock' →
          (timetable dock'.cadence.timers).now = ended + Cadence.resumeDelay))
  /-- When it rings, the dock comes back. -/
  resumes : ∀ {host : Host α} {timers : τ} {handle : TimerHandle} {plan : Plan} {interval : Nat},
    Obliges timers → (timetable dock.cadence.timers).Rings handle plan (timetable timers) →
    plan.alarm = .resume → Cadence.intervalFor host.settings.magnification.fps = .ok interval →
    ∃ dock' commands,
      (dock.withTimers timers).handle host (.alarm plan.alarm) = .ok (dock', commands) ∧
        dock'.Resumed
  /-- Nothing but drags shortens or extends the wait. -/
  unmoved : dock.cadence.phase = .suspended → ∀ {occurrence : Option Event} {dock' : Dock α τ},
    TimedStep allowed dock occurrence dock' →
    occurrence ≠ some .dragBegin ∧ occurrence ≠ some .dragEnd → occurrence ≠ some .disable →
    occurrence ≠ some (.alarm .resume) → dock'.cadence.phase = .suspended ∧
      ∀ {deadline : Nat}, dock'.Due .resume deadline ↔ dock.Due .resume deadline

omit [Scalar α] in
/-- A resume is due exactly while the cadence is suspended and the latest drag has ended, a delay
    after that. -/
theorem Awaits.due_iff (h : dock.Awaits latest) (sound : dock.Sound)
    (obliges : Obliges dock.cadence.timers) {deadline : Nat} : dock.Due .resume deadline ↔
      dock.cadence.phase = .suspended ∧ ∃ ended, latest = some ⟨ended, .dragEnd⟩ ∧
        deadline = ended + Cadence.resumeDelay := by
  constructor
  · rintro ⟨handle, every, hplan⟩
    have hheld : dock.cadence.resumeTimer = some handle := held_of_due sound obliges hplan
    have hsuspended := sound.cadence.resume_suspended (Option.isSome_of_eq_some hheld)
    cases h.waits hsuspended with
    | drag hnone => exact nomatch hheld.symm.trans hnone
    | @pause ended _ held plan =>
        obtain rfl := Option.some.inj (hheld.symm.trans held)
        have hdeadline := congrArg Plan.deadline (Option.some.inj (hplan.symm.trans plan))
        exact ⟨hsuspended, ended, rfl, hdeadline⟩
  · rintro ⟨hsuspended, ended, rfl, rfl⟩
    obtain ⟨-⟩ | ⟨held, plan⟩ := h.waits hsuspended
    exact ⟨_, none, plan⟩

/-- **A SUSPENSION ENDS ON TIME**: `resumeDelay` after the end of the latest drag, unless the dock
    is disabled before. -/
theorem Remembered.suspension (h : Remembered allowed dock history) :
    Suspension allowed dock history := by
  have hsound := h.timed.sound
  have htimely := h.timed.timely
  have hdue : ∀ {deadline : Nat}, dock.Due .resume deadline ↔ _ :=
    h.awaits.due_iff hsound htimely.obliges
  refine ⟨hdue, ?leaves, ?resumes, ?unmoved⟩
  case leaves =>
    intro hsuspended occurrence dock' step hleft
    cases step.pause hsound htimely hsuspended with
    | disabled off => exact .inl ⟨rfl, off⟩
    | @resumed deadline due passed resumed =>
        obtain ⟨-, ended, hlatest, rfl⟩ := hdue.mp due
        exact .inr ⟨rfl, resumed, ended, hlatest, passed,
          fun onTime => Nat.le_antisymm (onTime due) passed⟩
    | drags drag suspended => exact absurd suspended hleft
    | lasts suspended plans => exact absurd suspended hleft
  case resumes =>
    intro host timers handle plan interval obliges rings halarm hfps
    obtain ⟨⟨dock', commands⟩, hstep⟩ :=
      handle_ok (dock.withTimers timers) host (.alarm plan.alarm) hfps
    have hheld := held_of_rings hsound htimely.obliges rings
    rw [halarm] at hheld
    have hsuspended := hsound.cadence.resume_suspended (Option.isSome_of_eq_some hheld)
    refine ⟨dock', commands, hstep, ?_⟩
    rw [halarm] at hstep
    obtain ⟨resumed, hresume, hdone⟩ := bind_eq_ok_iff.mp hstep
    obtain ⟨rfl, -⟩ := Prod.mk.inj (Except.ok.inj hdone)
    have henabled : (dock.withTimers timers).enabled = true := hsound.enabled_of_held hheld
    exact (resumed_of_resume henabled hsuspended obliges hresume).1
  case unmoved =>
    intro hsuspended occurrence dock' step noDrag on loud
    cases step.pause hsound htimely hsuspended with
    | disabled off => exact absurd rfl on
    | resumed due passed resumed => exact absurd rfl loud
    | drags drag suspended =>
        rcases drag with rfl | rfl
        · exact absurd rfl noDrag.1
        · exact absurd rfl noDrag.2
    | lasts suspended plans =>
        refine ⟨suspended, ?_⟩
        intro deadline
        rw [Due, Due, plans]

/-- A favorite of a standard dock. -/
private def draggedIcon : Host Float where
  settings := .standard
  geometry := .standard
  icons := [Icon.favorite 1 ⟨0.0, 0.0⟩]

set_option maxRecDepth 2048 in
/-- A drag ends 10 milliseconds after it has begun, and the pointer moves.  750 milliseconds after
    the end of the drag the dock comes back. -/
theorem suspension_after_drag : ∃ (dock dock' : Dock Float Chronicle) (history : List Occasion),
    Remembered (fun _ => True) dock history ∧
    latestDrag? history = some ⟨milliseconds 10, .dragEnd⟩ ∧
    dock.cadence.phase = .suspended ∧ dock.Due .resume (milliseconds 760) ∧
    TimedStep (fun _ => True) dock (some (.alarm .resume)) dock' ∧
    (timetable dock'.cadence.timers).now = milliseconds 760 ∧ dock'.Resumed := by
  have hnew : Remembered (fun _ => True) (new Chronicle.start : Dock Float Chronicle) [] :=
    .new _ Chronicle.start_isObliging fun _ => rfl
  have henabled := hnew.call draggedIcon .enable trivial nofun rfl
  have hbegun := henabled.call draggedIcon .dragBegin trivial nofun rfl
  have hwaited := hbegun.pass ⟨{ Clock.start with now := milliseconds 10 }, []⟩
    ⟨hbegun.timed.timely.obliges.proper, rfl⟩ ⟨by decide, rfl, rfl⟩
  have hended := hwaited.call draggedIcon .dragEnd trivial nofun rfl
  have hmoved := hended.call draggedIcon .pointerMotion trivial nofun rfl
  have hobliges := hmoved.timed.timely.obliges
  obtain ⟨hresume, -⟩ := hmoved.timed.ring draggedIcon trivial hobliges.ring
    (Chronicle.rings ⟨0, .resume, milliseconds 760, none⟩ (milliseconds 760) 0 hobliges rfl) rfl
  have hdue := hmoved.suspension.due_iff.mpr
    ⟨rfl, milliseconds 10, rfl, show milliseconds 760 = _ by decide⟩
  have hawake : Cadence.Phase.running ≠ .suspended := by decide
  obtain ⟨hdisable, -⟩ | ⟨-, hresumed, -⟩ := hmoved.suspension.leaves rfl hresume hawake
  · exact nomatch hdisable
  · exact ⟨_, _, _, hmoved, rfl, rfl, hdue, hresume, rfl, hresumed⟩

end Dock

end FisheyeDock
