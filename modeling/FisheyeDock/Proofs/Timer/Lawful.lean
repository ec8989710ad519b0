import Mathlib.Logic.Function.Basic
import FisheyeDock.Timer.Clock

/-! # Timer services that keep their word

    `TimerService` says what can be asked of a service.  This file says what the service owes in
    return, through one view of its state: the timers that are pending, by their handles.  A service
    may refuse any timer.  One that it accepts has a handle that no pending timer has, a cancelled
    timer is not pending, and a timer that fires only once is spent by firing.

    `Accounts` compares the pending timers with the handles that a client holds.  Every move of the
    client and of the service has one lemma here, so that a client never looks into the service.
    The `Clock` is such a service, and what it fires on its way is a timer that was pending. -/

namespace FisheyeDock

open TimerService

/-- What a pending timer is armed for. -/
structure Engagement where
  alarm : Alarm
  repeats : Bool
  deriving Repr, DecidableEq

/-- The timers that are pending, by their handles. -/
abbrev Engagements := TimerHandle → Option Engagement

/-- What a request for a timer may come to: it is refused and changes nothing, or it adds one timer
    under a handle that no pending timer has. -/
def IsAnswer {τ : Type} (proper : τ → Prop) (pending : τ → Engagements) (timers : τ)
    (engagement : Engagement) : Option TimerHandle × τ → Prop
  | (some handle, timers') => proper timers' ∧ pending timers handle = none ∧
      pending timers' = Function.update (pending timers) handle (some engagement)
  | (none, timers') => proper timers' ∧ pending timers' = pending timers

/-- A service that keeps its word, in each of its proper states. -/
class LawfulTimerService (τ : Type) [TimerService τ] where
  /-- The states that the service can be in. -/
  Proper : τ → Prop
  pending : τ → Engagements
  scheduleRepeating_law : ∀ (timers : τ) (interval : Nat) (alarm : Alarm), Proper timers →
    IsAnswer Proper pending timers ⟨alarm, true⟩ (scheduleRepeating timers interval alarm)
  scheduleOnce_law : ∀ (timers : τ) (delay : Nat) (alarm : Alarm), Proper timers →
    IsAnswer Proper pending timers ⟨alarm, false⟩ (scheduleOnce timers delay alarm)
  cancel_law : ∀ (timers : τ) (handle : TimerHandle), Proper timers →
    Proper (cancel timers handle) ∧
      pending (cancel timers handle) = Function.update (pending timers) handle none

export LawfulTimerService (Proper pending)

variable {τ : Type} [TimerService τ] [LawfulTimerService τ]

/-- A pending timer fires.  One that repeats stays pending, any other is spent, and no other timer
    is touched. -/
structure Fires (timers : τ) (handle : TimerHandle) (engagement : Engagement) (timers' : τ) :
    Prop where
  proper : Proper timers'
  engaged : pending timers handle = some engagement
  pending_after : pending timers' = if engagement.repeats then pending timers
    else Function.update (pending timers) handle none

/-- The service changes without any timer firing: time passes, or it begins to refuse timers. -/
structure Drifts (timers timers' : τ) : Prop where
  proper : Proper timers'
  pending_eq : pending timers' = pending timers

/-! ## Accounts

    A client holds at most one handle for each alarm.  Its accounts are in order when the pending
    timers are the ones it holds, each armed for its own alarm. -/

/-- How an alarm is to be armed: ticks repeat, all else fires once. -/
def Alarm.engagement : Alarm → Engagement
  | .tick => ⟨.tick, true⟩
  | .quiet => ⟨.quiet, false⟩
  | .resume => ⟨.resume, false⟩

theorem Alarm.engagement_alarm (a : Alarm) : a.engagement.alarm = a := by
  cases a <;> rfl

/-- An alarm is known by its engagement. -/
theorem Alarm.engagement_injective {a b : Alarm} (h : a.engagement = b.engagement) : a = b := by
  rw [← a.engagement_alarm, ← b.engagement_alarm, h]

/-- The pending timers are those whose handles are held. -/
structure Accounts (timers : τ) (held : Alarm → Option TimerHandle) : Prop where
  proper : Proper timers
  pending_iff : ∀ handle engagement, pending timers handle = some engagement ↔
    ∃ alarm : Alarm, held alarm = some handle ∧ engagement = alarm.engagement

namespace Accounts

variable {timers timers' : τ} {held : Alarm → Option TimerHandle} {a b : Alarm}
variable {handle : TimerHandle}

/-- What is held is pending for its alarm. -/
theorem pending_of_held (acc : Accounts timers held) (h : held a = some handle) :
    pending timers handle = some a.engagement :=
  (acc.pending_iff handle a.engagement).mpr ⟨a, h, rfl⟩

/-- Two alarms never share a handle. -/
theorem held_injective (acc : Accounts timers held) (ha : held a = some handle)
    (hb : held b = some handle) : a = b := by
  have hsame := (acc.pending_of_held ha).symm.trans (acc.pending_of_held hb)
  exact Alarm.engagement_injective (Option.some.inj hsame)

/-- A timer that is pending for an alarm is the one held for it. -/
theorem held_of_pending (acc : Accounts timers held) {repeats : Bool}
    (h : pending timers handle = some ⟨a, repeats⟩) : held a = some handle := by
  obtain ⟨b, hb, heq⟩ := (acc.pending_iff handle _).mp h
  have hab : a = b := by
    rw [← b.engagement_alarm, ← heq]
  rw [hab]
  exact hb

/-- Accounts without a single handle are those of a service without a single timer. -/
theorem of_nothing_pending (proper : Proper timers) (h : ∀ handle, pending timers handle = none) :
    Accounts timers (fun _ => none) where
  proper := proper
  pending_iff := by
    intro handle engagement
    constructor
    · intro hpend
      rw [h handle] at hpend
      exact nomatch hpend
    · rintro ⟨_, hheld, _⟩
      exact nomatch hheld

/-- The timer under one handle changes, and with it what is held for one alarm: both are armed for
    the alarm now, or neither is. -/
theorem reassign (acc : Accounts timers held) (hown : ∀ b, held b = some handle → b = a)
    (hclear : ∀ other, held a = some other → other = handle) (armed : Bool)
    (proper : Proper timers') (h : pending timers' = Function.update (pending timers) handle
      (if armed then some a.engagement else none)) :
    Accounts timers' (Function.update held a (if armed then some handle else none)) where
  proper := proper
  pending_iff := by
    intro other engagement
    rw [h]
    by_cases hother : other = handle
    · -- under the handle itself, nothing but `a` can be armed
      subst hother
      rw [Function.update_self]
      constructor
      · intro heq
        refine ⟨a, ?_, ?_⟩
        · rw [Function.update_self]
          cases armed with
          | true => rfl
          | false => exact nomatch heq
        · cases armed with
          | true => exact (Option.some.inj heq).symm
          | false => exact nomatch heq
      · rintro ⟨b, hb, heq⟩
        by_cases hba : b = a
        · subst hba
          rw [Function.update_self] at hb
          cases armed with
          | true => exact congrArg some heq.symm
          | false => exact nomatch hb
        · rw [Function.update_of_ne hba] at hb
          exact absurd (hown b hb) hba
    · -- under any other handle nothing has changed
      rw [Function.update_of_ne hother, acc.pending_iff]
      constructor
      · rintro ⟨b, hb, heq⟩
        have hba : b ≠ a := by
          rintro rfl
          exact hother (hclear other hb)
        exact ⟨b, by rw [Function.update_of_ne hba]; exact hb, heq⟩
      · rintro ⟨b, hb, heq⟩
        by_cases hba : b = a
        · subst hba
          rw [Function.update_self] at hb
          cases armed with
          | true => exact absurd (Option.some.inj hb).symm hother
          | false => exact nomatch hb
        · rw [Function.update_of_ne hba] at hb
          exact ⟨b, hb, heq⟩

/-- What is left when the timer of one alarm is no longer pending. -/
theorem forget (acc : Accounts timers held) (ha : held a = some handle) (proper : Proper timers')
    (h : pending timers' = Function.update (pending timers) handle none) :
    Accounts timers' (Function.update held a none) := by
  refine acc.reassign (fun b hb => acc.held_injective hb ha) ?_ false proper h
  intro other hother
  exact Option.some.inj (hother.symm.trans ha)

/-- Cancelling what is held for an alarm, if anything is, and holding it no longer. -/
theorem cancelAny (acc : Accounts timers held) (a : Alarm) :
    Accounts (TimerService.cancelAny timers (held a)) (Function.update held a none) := by
  cases ha : held a with
  | none =>
      rw [← ha, Function.update_eq_self, ha]
      exact acc
  | some handle =>
      obtain ⟨proper, hpend⟩ := LawfulTimerService.cancel_law timers handle acc.proper
      exact acc.forget ha proper hpend

/-- Taking a new handle for an alarm that has none. -/
theorem take (acc : Accounts timers held) (hfree : held a = none) (proper : Proper timers')
    (hfresh : pending timers handle = none)
    (h : pending timers' = Function.update (pending timers) handle (some a.engagement)) :
    Accounts timers' (Function.update held a (some handle)) := by
  refine acc.reassign ?_ ?_ true proper h
  · intro b hb
    rw [acc.pending_of_held hb] at hfresh
    exact nomatch hfresh
  · intro other hother
    rw [hfree] at hother
    exact nomatch hother

/-- What is pending alike is accounted for alike. -/
theorem of_pending_eq (acc : Accounts timers held) (proper : Proper timers')
    (h : pending timers' = pending timers) : Accounts timers' held where
  proper := proper
  pending_iff := by
    intro handle engagement
    rw [h]
    exact acc.pending_iff handle engagement

/-- Asking for a timer for an alarm that has none.  The answer is what is held for it then. -/
theorem ask (acc : Accounts timers held) (hfree : held a = none) {answer : Option TimerHandle}
    (h : IsAnswer Proper pending timers a.engagement (answer, timers')) :
    Accounts timers' (Function.update held a answer) := by
  cases answer with
  | some handle =>
      obtain ⟨proper, hfresh, hpend⟩ := h
      exact acc.take hfree proper hfresh hpend
  | none =>
      obtain ⟨proper, hpend⟩ := h
      rw [← hfree, Function.update_eq_self]
      exact acc.of_pending_eq proper hpend

/-- Time that passes does not change that. -/
theorem drift (acc : Accounts timers held) (h : Drifts timers timers') : Accounts timers' held :=
  acc.of_pending_eq h.proper h.pending_eq

/-- A timer that fires is one that is held.  A tick stays held, anything else is spent. -/
theorem fire (acc : Accounts timers held) {engagement : Engagement}
    (h : Fires timers handle engagement timers') :
    engagement = engagement.alarm.engagement ∧ held engagement.alarm = some handle ∧
      Accounts timers' (if engagement.alarm = .tick then held
        else Function.update held engagement.alarm none) := by
  obtain ⟨a, ha, heq⟩ := (acc.pending_iff handle engagement).mp h.engaged
  have halarm : engagement.alarm = a := by
    rw [heq, a.engagement_alarm]
  have hafter := h.pending_after
  rw [halarm]
  refine ⟨heq, ha, ?_⟩
  subst heq
  cases a with
  | tick => exact acc.of_pending_eq h.proper hafter
  | quiet => exact acc.forget ha h.proper hafter
  | resume => exact acc.forget ha h.proper hafter

end Accounts

end FisheyeDock
