import FisheyeDock.Proofs.Dock.Steps
import FisheyeDock.Proofs.Timer.Clock

/-! # The timers of a dock

    `Reached` are the docks that come out of any run: events in any order, settings and icons that
    change at will between them, alarms whenever a pending timer fires, and a timer service that may
    refuse any request.  In every one of them the timers are in order (`Reached.timersInOrder`).

    The run is an induction over `Dock.Sound`: the cadence is sound, and rests while the dock is
    disabled.  Runs on a `Clock` are such runs (`Reached.advance`). -/

namespace FisheyeDock.Dock

open Scene (Command)

variable {α τ : Type} [TimerService τ] [LawfulTimerService τ]

/-- The cadence is sound, and rests while the dock is disabled. -/
structure Sound (dock : Dock α τ) : Prop where
  cadence : dock.cadence.Sound
  rests : dock.enabled = false → dock.cadence.phase = .idle

namespace Sound

variable {dock dock' : Dock α τ} {host : Host α} {commands : List (Command α)}
variable {timers : τ}

/-- While the dock is enabled, a sound cadence is all there is to it. -/
theorem of_enabled (hcadence : dock.cadence.Sound) (henabled : dock.enabled = true) :
    dock.Sound where
  cadence := hcadence
  rests := by
    intro hdisabled
    rw [henabled] at hdisabled
    exact nomatch hdisabled

/-- Nothing else about the dock matters. -/
theorem congr (h : dock.Sound) (hcadence : dock'.cadence = dock.cadence)
    (henabled : dock'.enabled = dock.enabled) : dock'.Sound where
  cadence := by
    rw [hcadence]
    exact h.cadence
  rests := by
    rw [hcadence, henabled]
    exact h.rests

/-- The scene is left without a timer. -/
theorem withdraw (h : dock.Sound) : dock.withdraw.1.Sound := by
  rw [withdraw_fst]
  exact h.congr rfl rfl

theorem showLayers (h : dock.Sound) (visible : Bool) : (dock.showLayers visible).1.Sound := by
  rw [showLayers_fst]
  exact h.congr rfl rfl

theorem pointerLeave (h : dock.Sound) : dock.pointerLeave.Sound where
  cadence := h.cadence.rearm
  rests := by
    intro hdisabled
    show dock.cadence.rearm.phase = .idle
    rw [Cadence.phase_rearm]
    exact h.rests hdisabled

theorem orderLayouts (h : dock.Sound) (ticks : Nat) :
    { dock with cadence := dock.cadence.orderLayouts ticks }.Sound :=
  ⟨h.cadence.orderLayouts ticks, h.rests⟩

theorem enable (h : dock.Sound) (settings : Settings α) : (dock.enable settings).Sound := by
  unfold Dock.enable
  split
  · exact h
  · exact of_enabled (h.cadence.orderLayouts _) rfl

/-- After the dock is disabled, no timer is held. -/
theorem disable (h : dock.Sound) : dock.disable.1.Sound := by
  unfold Dock.disable
  split
  · exact withdraw ⟨h.cadence.reset, fun _ => rfl⟩
  · exact h

theorem fullscreenChanged (h : dock.Sound) (g : Geometry α) : (dock.fullscreenChanged g).1.Sound := by
  unfold Dock.fullscreenChanged
  split
  · exact h.showLayers _
  · exact h

theorem dragBegin (h : dock.Sound) : dock.dragBegin.1.Sound := by
  unfold Dock.dragBegin
  by_cases henabled : dock.enabled = true
  · rw [if_pos henabled]
    have hbegun : { dock with cadence := dock.cadence.beginDrag }.Sound :=
      of_enabled h.cadence.beginDrag henabled
    dsimp only
    split
    · exact hbegun.withdraw
    · exact hbegun
  · rw [if_neg henabled]
    exact h

theorem dragEnd (h : dock.Sound) : dock.dragEnd.1.Sound := by
  unfold Dock.dragEnd
  by_cases henabled : dock.enabled = true
  · rw [if_pos henabled]
    have hended : { dock with cadence := dock.cadence.endDrag }.Sound :=
      of_enabled h.cadence.endDrag henabled
    dsimp only
    split
    · exact hended.withdraw
    · exact hended
  · rw [if_neg henabled]
    exact h

/-- A handle is held only while the dock is enabled. -/
theorem enabled_of_held (h : dock.Sound) {a : Alarm} {handle : TimerHandle}
    (hheld : dock.cadence.held a = some handle) : dock.enabled = true := by
  cases henabled : dock.enabled with
  | true => rfl
  | false =>
      rw [h.cadence.held_idle (h.rests henabled)] at hheld
      exact nomatch hheld

/-- The service may go on in any way that leaves the accounts in order. -/
theorem withTimers (h : dock.Sound) (acc : Accounts timers dock.cadence.held) :
    (dock.withTimers timers).Sound :=
  ⟨⟨acc, h.cadence.tick_iff, h.cadence.quiet_running, h.cadence.resume_suspended⟩, h.rests⟩

variable [Scalar α]

/-- A start on waking holds its tick. -/
theorem wake (h : dock.Sound) {settings : Settings α} (hwake : dock.wake settings = .ok dock') :
    dock'.Sound := by
  rcases wake_cases hwake with ⟨_, rfl⟩ | ⟨henabled, cadence, hstart, rfl⟩
  · exact h
  · exact of_enabled (h.cadence.start hstart).rearm henabled

theorem focusChanged (h : dock.Sound) {settings : Settings α}
    (hfocus : dock.focusChanged settings = .ok dock') : dock'.Sound := by
  unfold Dock.focusChanged at hfocus
  by_cases henabled : dock.enabled = true
  · rw [if_pos henabled, bind_eq_ok_iff] at hfocus
    obtain ⟨woken, hwake, hfocus⟩ := hfocus
    obtain rfl := Except.ok.inj hfocus
    have halted : { dock with cadence := dock.cadence.halt }.Sound :=
      of_enabled h.cadence.halt henabled
    exact (halted.wake hwake).orderLayouts _
  · rw [if_neg henabled] at hfocus
    obtain rfl := Except.ok.inj hfocus
    exact h

theorem preview (h : dock.Sound) {on : Bool} {settings : Settings α}
    (hpreview : dock.preview on settings = .ok dock') : dock'.Sound := by
  unfold Dock.preview at hpreview
  cases on with
  | true =>
      have hset : { dock with previewLeft := some previewPeriod }.Sound := h.congr rfl rfl
      exact hset.wake hpreview
  | false =>
      obtain rfl := Except.ok.inj hpreview
      exact h.congr rfl rfl

/-- A tick suspends, resets or rearms the cadence, and counts layouts. -/
theorem tick (h : dock.Sound) {animated : Bool}
    (htick : dock.tick host = .ok (dock', commands, animated)) : dock'.Sound := by
  rcases tick_cases htick with ⟨_, rfl, _⟩ | ⟨henabled, _, heq⟩ | ⟨_, _, _, heq⟩ |
    ⟨henabled, _, _, shown, hanimate, _⟩
  · exact h
  · rw [show dock' = _ from congrArg Prod.fst heq]
    exact withdraw (of_enabled h.cadence.suspend henabled)
  · rw [show dock' = _ from congrArg Prod.fst heq]
    exact h.disable
  · -- the row may call for layouts on the way, and the frame may rearm in the end
    have hupdated : (dock.updated host).cadence.Sound := by
      show (if _ then _ else _ : Cadence τ).Sound
      split
      · exact h.cadence.takeLayout
      · exact h.cadence.takeLayout.orderLayouts _
    obtain ⟨_, _, _, _, _, _, _, rfl⟩ := animate_cases hanimate
    refine of_enabled ?_ henabled
    show (if _ then _ else _ : Cadence τ).Sound
    split
    · exact hupdated.rearm
    · exact hupdated

/-- Whatever a caller asks of a sound dock leaves it sound. -/
theorem event (h : dock.Sound) {event : Event} (hcall : ∀ alarm, event ≠ .alarm alarm)
    (hstep : dock.handle host event = .ok (dock', commands)) : dock'.Sound := by
  cases event with
  | enable =>
      obtain ⟨rfl, _⟩ := Prod.mk.inj (Except.ok.inj hstep)
      exact h.enable _
  | disable =>
      rw [show dock' = _ from congrArg Prod.fst (Except.ok.inj hstep).symm]
      exact h.disable
  | pointerEnter | pointerMotion =>
      obtain ⟨hwake, -⟩ := ok_of_silent hstep
      exact h.wake hwake
  | pointerLeave =>
      obtain ⟨rfl, _⟩ := Prod.mk.inj (Except.ok.inj hstep)
      exact h.pointerLeave
  | focusChanged =>
      obtain ⟨hfocus, -⟩ := ok_of_silent hstep
      exact h.focusChanged hfocus
  | fullscreenChanged =>
      rw [show dock' = _ from congrArg Prod.fst (Except.ok.inj hstep).symm]
      exact h.fullscreenChanged _
  | dragBegin =>
      rw [show dock' = _ from congrArg Prod.fst (Except.ok.inj hstep).symm]
      exact h.dragBegin
  | dragEnd =>
      rw [show dock' = _ from congrArg Prod.fst (Except.ok.inj hstep).symm]
      exact h.dragEnd
  | preview on =>
      obtain ⟨hpreview, -⟩ := ok_of_silent hstep
      exact h.preview hpreview
  | relayout =>
      obtain ⟨hwake, -⟩ := ok_of_silent hstep
      exact (h.orderLayouts _).wake hwake
  | alarm alarm => exact absurd rfl (hcall alarm)

/-- The end of a quiet period is pending no more when it rings, and it takes the tick back. -/
theorem quietPassed (h : dock.Sound) (henabled : dock.enabled = true)
    (acc : Accounts timers (Function.update dock.cadence.held .quiet none))
    (hstep : (dock.withTimers timers).handle host (.alarm .quiet) = .ok (dock', commands)) :
    dock'.Sound := by
  obtain ⟨rfl, _⟩ := Prod.mk.inj (Except.ok.inj hstep)
  exact of_enabled (h.cadence.quietPassed acc) henabled

/-- A resume is pending no more when it rings; a start may follow. -/
theorem resume (h : dock.Sound) (henabled : dock.enabled = true)
    (acc : Accounts timers (Function.update dock.cadence.held .resume none))
    (hstep : (dock.withTimers timers).handle host (.alarm .resume) = .ok (dock', commands)) :
    dock'.Sound := by
  obtain ⟨hresume, -⟩ := resume_of_handle hstep
  have hcadence := h.cadence.resume acc
  unfold Dock.resume at hresume
  rcases hcases : (dock.withTimers timers).cadence.resume with ⟨ended, cadence⟩
  rw [show dock.cadence.withTimers timers = (dock.withTimers timers).cadence from rfl, hcases]
    at hcadence
  rw [hcases] at hresume
  cases ended with
  | true =>
      have hended : { dock.withTimers timers with
          cadence := cadence.orderLayouts Cadence.longLayout }.Sound :=
        of_enabled (hcadence.orderLayouts _) henabled
      exact hended.wake hresume
  | false =>
      obtain rfl := Except.ok.inj hresume
      exact of_enabled hcadence henabled

/-- A timer that fires finds its handle, and leaves the dock sound. -/
theorem fire (h : dock.Sound) {handle : TimerHandle} {engagement : Engagement}
    (fires : Fires dock.cadence.timers handle engagement timers)
    (hstep : (dock.withTimers timers).handle host (.alarm engagement.alarm)
      = .ok (dock', commands)) : dock'.Sound := by
  obtain ⟨_, hheld, acc⟩ := h.cadence.accounts.fire fires
  -- what fires was held, and nothing is held while the dock is disabled
  have henabled := h.enabled_of_held hheld
  cases halarm : engagement.alarm with
  | tick =>
      rw [halarm] at hstep acc
      obtain ⟨animated, htick⟩ := tick_of_handle hstep
      exact (h.withTimers acc).tick htick
  | quiet =>
      rw [halarm] at hstep acc
      exact h.quietPassed henabled acc hstep
  | resume =>
      rw [halarm] at hstep acc
      exact h.resume henabled acc hstep

end Sound

/-! ## Runs -/

section Reached

variable [Scalar α]

/-- The docks that a run reaches.  Between two steps the service can change in any way that fires
    no timer, and the host tells something new at every step. -/
inductive Reached : Dock α τ → Prop where
  | new (timers : τ) (proper : Proper timers) (nothing : ∀ handle, pending timers handle = none) :
      Reached (new timers)
  | event {dock dock' : Dock α τ} {commands : List (Command α)} (host : Host α) (event : Event)
      (before : Reached dock) (call : ∀ alarm, event ≠ .alarm alarm)
      (step : dock.handle host event = .ok (dock', commands)) : Reached dock'
  | fire {dock dock' : Dock α τ} {commands : List (Command α)} {handle : TimerHandle}
      {engagement : Engagement} {timers : τ} (host : Host α) (before : Reached dock)
      (fires : Fires dock.cadence.timers handle engagement timers)
      (step : (dock.withTimers timers).handle host (.alarm engagement.alarm)
        = .ok (dock', commands)) : Reached dock'
  | drift {dock : Dock α τ} {timers : τ} (before : Reached dock)
      (drifts : Drifts dock.cadence.timers timers) : Reached (dock.withTimers timers)

/-- Whatever dock is reached is sound. -/
theorem Reached.sound {dock : Dock α τ} (h : Reached dock) : dock.Sound := by
  induction h with
  | new timers proper nothing => exact ⟨Cadence.sound_idle proper nothing, fun _ => rfl⟩
  | event host event _ call step ih => exact ih.event call step
  | fire host _ fires step ih => exact ih.fire fires step
  | drift _ drifts ih => exact ih.withTimers (ih.cadence.accounts.drift drifts)

/-- Handling the alarms of a clock as they fire is a run. -/
theorem Reached.runWithin {dock : Dock α Clock} (h : Reached dock) {host : Host α}
    {time bound : Nat} {passage : Passage α Clock}
    (hrun : dock.runWithin host time bound = .ok passage) : Reached passage.dock := by
  induction bound generalizing dock passage with
  | zero =>
      obtain rfl := Except.ok.inj hrun
      exact h
  | succ bound ih =>
      have proper : Proper dock.cadence.timers := h.sound.cadence.accounts.proper
      unfold Dock.runWithin at hrun
      cases hpop : dock.cadence.timers.popDue time with
      | none =>
          rw [hpop] at hrun
          obtain rfl := Except.ok.inj hrun
          exact h.drift (dock.cadence.timers.drifts_to time proper)
      | some fired =>
          -- the service spends the timer first, and the dock handles its alarm then
          obtain ⟨alarm, timers⟩ := fired
          rw [hpop] at hrun
          obtain ⟨⟨dock', commands⟩, hstep, hmore⟩ := bind_eq_ok_iff.mp hrun
          obtain ⟨rest, hrest, hdone⟩ := bind_eq_ok_iff.mp hmore
          obtain rfl := Except.ok.inj hdone
          obtain ⟨handle, engagement, rfl, fires⟩ := Clock.fires_of_popDue proper hpop
          have hreached : Reached rest.dock := ih (h.fire host fires hstep) hrest
          exact hreached

/-- Moving the clock of a dock on is a run. -/
theorem Reached.advance {dock : Dock α Clock} (h : Reached dock) (host : Host α) (period : Nat)
    {passage : Passage α Clock} (hrun : dock.advance host period = .ok passage) :
    Reached passage.dock :=
  h.runWithin hrun

/-! ## The timers of a run -/

/-- A timer is pending for an alarm. -/
def Pending (dock : Dock α τ) (alarm : Alarm) (handle : TimerHandle) : Prop :=
  ∃ repeats, pending dock.cadence.timers handle = some ⟨alarm, repeats⟩

/-- What is pending, and when. -/
structure TimersInOrder (dock : Dock α τ) : Prop where
  /-- A tick is pending exactly while the cadence runs. -/
  tick_iff : (∃ handle, dock.Pending .tick handle) ↔ dock.cadence.phase = .running
  /-- No two timers are pending for one alarm. -/
  unique : ∀ {alarm handle handle'}, dock.Pending alarm handle → dock.Pending alarm handle' →
    handle = handle'
  quiet_running : ∀ {handle}, dock.Pending .quiet handle → dock.cadence.phase = .running
  resume_suspended : ∀ {handle}, dock.Pending .resume handle → dock.cadence.phase = .suspended
  /-- Every pending timer is the one whose handle the cadence holds. -/
  held : ∀ {alarm handle}, dock.Pending alarm handle → dock.cadence.held alarm = some handle
  /-- A disabled dock rests, and nothing is pending. -/
  disabled : dock.enabled = false →
    dock.cadence.phase = .idle ∧ ∀ handle, pending dock.cadence.timers handle = none

/-- **THE TIMERS ARE IN ORDER** in every dock that a run reaches: one tick is pending exactly while
    the cadence runs, at most one quiet period ends and only then, at most one pause and only while
    suspended, and no timer outlives its handle or the enabled dock. -/
theorem Reached.timersInOrder {dock : Dock α τ} (h : Reached dock) : dock.TimersInOrder := by
  have hsound := h.sound
  have hc := hsound.cadence
  have hheld : ∀ {alarm handle}, dock.Pending alarm handle →
      dock.cadence.held alarm = some handle := by
    rintro alarm handle ⟨repeats, hpend⟩
    exact hc.accounts.held_of_pending hpend
  have hsome : ∀ {alarm handle}, dock.Pending alarm handle →
      (dock.cadence.held alarm).isSome = true := by
    intro alarm handle hpend
    rw [hheld hpend]
    rfl
  refine ⟨?_, ?_, ?_, ?_, hheld, ?_⟩
  · constructor
    · rintro ⟨handle, hpend⟩
      exact hc.tick_iff.mp (hsome hpend)
    · intro hrun
      obtain ⟨handle, htick⟩ := Option.isSome_iff_exists.mp (hc.tick_iff.mpr hrun)
      exact ⟨handle, true, hc.accounts.pending_of_held (a := .tick) htick⟩
  · intro alarm handle handle' hpend hpend'
    exact Option.some.inj ((hheld hpend).symm.trans (hheld hpend'))
  · intro handle hpend
    exact hc.quiet_running (hsome hpend)
  · intro handle hpend
    exact hc.resume_suspended (hsome hpend)
  · intro hdisabled
    have hidle := hsound.rests hdisabled
    refine ⟨hidle, ?_⟩
    intro handle
    cases hpend : pending dock.cadence.timers handle with
    | none => rfl
    | some engagement =>
        obtain ⟨a, ha, _⟩ := (hc.accounts.pending_iff handle engagement).mp hpend
        rw [hc.held_idle hidle] at ha
        exact nomatch ha

/-- One favorite at the start of a standard dock. -/
private def oneFavorite : Host Float where
  settings := .standard
  geometry := .standard
  icons := [Icon.favorite 1 ⟨0.0, 0.0⟩]

/-- A drag that begins while the cadence runs suspends it at the next tick; once the drag has ended,
    the pause before the next start is all that is pending. -/
theorem timersInOrder_after_drag : ∃ dock : Dock Float Clock, Reached dock ∧ dock.TimersInOrder ∧
    dock.cadence.phase = .suspended ∧ dock.Pending .resume 2 := by
  have hnew : Reached (new Clock.start : Dock Float Clock) :=
    .new _ Clock.start_proper fun _ => rfl
  have henabled := hnew.event oneFavorite .enable nofun rfl
  have hwoken := henabled.event oneFavorite .pointerEnter nofun rfl
  have hdragged := hwoken.event oneFavorite .dragBegin nofun rfl
  have hticked := hdragged.advance oneFavorite (milliseconds 15) rfl
  have hended := hticked.event oneFavorite .dragEnd nofun rfl
  exact ⟨_, hended, hended.timersInOrder, rfl, false, rfl⟩

end Reached

end FisheyeDock.Dock
