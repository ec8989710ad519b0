import FisheyeDock.Proofs.Timer.Lawful

/-! # Timer services that keep time

    `LawfulTimerService` tells which timers are pending.  A `Timetable` tells besides when they are
    due, and what a `TimedService` owes in return is told by it alone: a timer that is asked for is
    due after its delay, and an alarm rings when its time has come, in the order of the deadlines.
    It may ring late, and the next alarm of a timer that repeats comes within its interval.

    The journal is an onlooker's.  It notes every timer that is asked for and every alarm that rings,
    so that one can speak of the ticks since the last quiet period was begun (`tickDelays`). -/

namespace FisheyeDock

open TimerService

/-- What a pending timer is going to do. -/
structure Plan where
  alarm : Alarm
  deadline : Nat
  /-- The interval of a repeating timer. -/
  every : Option Nat
  deriving Repr, DecidableEq

def Plan.engagement (plan : Plan) : Engagement := ⟨plan.alarm, plan.every.isSome⟩

/-- What an onlooker notes about a service. -/
inductive Note where
  /-- A timer is asked for. -/
  | asked (alarm : Alarm)
  /-- An alarm rings, so much later than it was due. -/
  | rang (alarm : Alarm) (delay : Nat)
  deriving Repr, DecidableEq

/-- What there is to know of a service at one moment. -/
structure Timetable where
  now : Nat
  /-- The plans of the pending timers, by their handles. -/
  plans : TimerHandle → Option Plan
  /-- What has happened, the latest first. -/
  journal : List Note

namespace Timetable

/-- A timer has been asked for and accepted. -/
def enter (table : Timetable) (handle : TimerHandle) (plan : Plan) : Timetable :=
  { table with
    plans := Function.update table.plans handle (some plan)
    journal := .asked plan.alarm :: table.journal }

/-- A timer is accepted under a handle that no pending timer has. -/
structure Grants (table : Timetable) (handle : TimerHandle) (plan : Plan) (table' : Timetable) :
    Prop where
  fresh : table.plans handle = none
  table_eq : table' = table.enter handle plan

/-- A timer is pending no longer. -/
def strike (table : Timetable) (handle : TimerHandle) : Timetable :=
  { table with plans := Function.update table.plans handle none }

/-- The alarm of a pending timer rings.  No other timer has an earlier deadline. -/
structure Rings (table : Timetable) (handle : TimerHandle) (plan : Plan) (table' : Timetable) :
    Prop where
  planned : table.plans handle = some plan
  first : ∀ {other otherPlan}, table.plans other = some otherPlan →
    plan.deadline ≤ otherPlan.deadline
  due : plan.deadline ≤ table'.now
  now_le : table.now ≤ table'.now
  /-- A timer that repeats is due again within an interval, any other is spent. -/
  again : ∃ next, (∀ interval ∈ plan.every, next ≤ table'.now + interval) ∧
    table'.plans = Function.update table.plans handle
      (plan.every.map fun interval => ⟨plan.alarm, next, some interval⟩)
  noted : table'.journal = .rang plan.alarm (table'.now - plan.deadline) :: table.journal

/-- Time passes, and nothing else happens. -/
structure Passes (table table' : Timetable) : Prop where
  now_le : table.now ≤ table'.now
  plans_eq : table'.plans = table.plans
  journal_eq : table'.journal = table.journal

end Timetable

/-- A service that keeps its word and its time.  It obliges where it is in order and refuses
    nothing. -/
class TimedService (τ : Type) [TimerService τ] extends LawfulTimerService τ where
  timetable : τ → Timetable
  Obliges : τ → Prop
  proper_of_obliges : ∀ {timers}, Obliges timers → Proper timers
  pending_eq : ∀ {timers}, Obliges timers →
    pending timers = fun handle => ((timetable timers).plans handle).map Plan.engagement
  repeating_granted : ∀ {timers} (interval : Nat) (alarm : Alarm), Obliges timers →
    ∃ handle timers', scheduleRepeating timers interval alarm = (some handle, timers') ∧
      Obliges timers' ∧ (timetable timers).Grants handle
        ⟨alarm, (timetable timers).now + interval, some interval⟩ (timetable timers')
  once_granted : ∀ {timers} (delay : Nat) (alarm : Alarm), Obliges timers →
    ∃ handle timers', scheduleOnce timers delay alarm = (some handle, timers') ∧
      Obliges timers' ∧ (timetable timers).Grants handle
        ⟨alarm, (timetable timers).now + delay, none⟩ (timetable timers')
  cancel_granted : ∀ {timers} (handle : TimerHandle), Obliges timers →
    Obliges (cancel timers handle) ∧
      timetable (cancel timers handle) = (timetable timers).strike handle

export TimedService (timetable Obliges)

section Views

variable {τ : Type} [TimerService τ] [TimedService τ] {timers timers' : τ}
variable {handle : TimerHandle} {plan : Plan}

/-- Whatever rings on a timetable fires. -/
theorem fires_of_rings (obliges : Obliges timers) (obliges' : Obliges timers')
    (rings : (timetable timers).Rings handle plan (timetable timers')) :
    Fires timers handle plan.engagement timers' where
  proper := TimedService.proper_of_obliges obliges'
  engaged := by
    rw [TimedService.pending_eq obliges]
    exact congrArg (Option.map Plan.engagement) rings.planned
  pending_after := by
    obtain ⟨next, -, hplans⟩ := rings.again
    rw [TimedService.pending_eq obliges, TimedService.pending_eq obliges', hplans]
    funext other
    by_cases hother : other = handle
    · subst hother
      cases hevery : plan.every <;> simp [Plan.engagement, hevery, rings.planned]
    · cases hevery : plan.every <;> simp [Plan.engagement, hevery, hother]

/-- Where time passes in a timetable, timers drift. -/
theorem drifts_of_passes (obliges : Obliges timers) (obliges' : Obliges timers')
    (passes : (timetable timers).Passes (timetable timers')) : Drifts timers timers' where
  proper := TimedService.proper_of_obliges obliges'
  pending_eq := by
    rw [TimedService.pending_eq obliges, TimedService.pending_eq obliges', passes.plans_eq]

/-- Cancelling what is held, if anything is. -/
theorem cancelAny_obliges (obliges : Obliges timers) (held : Option TimerHandle) :
    Obliges (cancelAny timers held) := by
  cases held with
  | none => exact obliges
  | some handle => exact (TimedService.cancel_granted handle obliges).1

/-- To cancel a timer strikes its plan, if it is held. -/
theorem timetable_cancelAny (obliges : Obliges timers) (held : Option TimerHandle) :
    timetable (cancelAny timers held) =
      held.elim (timetable timers) (timetable timers).strike := by
  cases held with
  | none => rfl
  | some handle => exact (TimedService.cancel_granted handle obliges).2

/-- Cancelling one timer leaves the plans of all others. -/
theorem plans_cancelAny (obliges : Obliges timers) {held : Option TimerHandle}
    (hother : held ≠ some handle) :
    (timetable (cancelAny timers held)).plans handle = (timetable timers).plans handle := by
  rw [timetable_cancelAny obliges]
  cases held with
  | none => rfl
  | some other => exact Function.update_of_ne (fun heq => hother (congrArg some heq.symm)) _ _

end Views

/-! ## The journal -/

/-- How late the ticks were that have rung since a quiet period was last asked for, the latest
    first. -/
def tickDelays : List Note → List Nat
  | [] => []
  | .asked .quiet :: _ => []
  | .rang .tick delay :: journal => delay :: tickDelays journal
  | _ :: journal => tickDelays journal

end FisheyeDock
