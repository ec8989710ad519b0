import FisheyeDock.Timer.Basic

/-! # A clock that is moved by hand

    A timer service whose time stands still until it is moved on.  Timers fire in the order of their
    deadlines, those of one deadline in the order in which they were scheduled. -/

namespace FisheyeDock

/-- A pending timer. -/
structure PendingTimer where
  handle : TimerHandle
  alarm : Alarm
  deadline : Nat
  /-- The interval of a repeating timer. -/
  every : Option Nat
  deriving Repr, DecidableEq

structure Clock where
  now : Nat
  nextHandle : TimerHandle
  /-- The pending timers in the order in which they were scheduled. -/
  pending : List PendingTimer
  /-- Whether timers are refused at present. -/
  refusing : Bool
  deriving Repr

namespace Clock

/-- A clock at time zero without timers. -/
def start : Clock := ⟨0, 0, [], false⟩

/-- Adds a timer, unless timers are refused. -/
def schedule (clock : Clock) (delay : Nat) (every : Option Nat) (alarm : Alarm) :
    Option TimerHandle × Clock :=
  if clock.refusing then (none, clock)
  else
    let timer := { handle := clock.nextHandle, alarm, deadline := clock.now + delay, every }
    (some clock.nextHandle,
      { clock with nextHandle := clock.nextHandle + 1, pending := clock.pending ++ [timer] })

instance : TimerService Clock where
  scheduleRepeating clock interval alarm := clock.schedule interval (some interval) alarm
  scheduleOnce clock delay alarm := clock.schedule delay none alarm
  cancel clock handle := { clock with pending := clock.pending.filter (·.handle ≠ handle) }

/-- Whether one timer fires before another. -/
def isBefore (a b : PendingTimer) : Bool :=
  decide (a.deadline < b.deadline) || (a.deadline == b.deadline && decide (a.handle < b.handle))

/-- The timer that fires first. -/
def earliest? : List PendingTimer → Option PendingTimer
  | [] => none
  | timer :: timers =>
    match earliest? timers with
    | none => some timer
    | some other => if isBefore other timer then some other else some timer

/-- The earliest of timers is one of them. -/
theorem mem_of_earliest? {timers : List PendingTimer} {timer : PendingTimer}
    (h : earliest? timers = some timer) : timer ∈ timers := by
  induction timers generalizing timer with
  | nil => cases h
  | cons first rest ih =>
    simp only [earliest?] at h
    split at h
    · obtain rfl := Option.some.inj h
      exact List.mem_cons_self
    · rename_i other hother
      split at h
      · obtain rfl := Option.some.inj h
        exact List.mem_cons_of_mem _ (ih hother)
      · obtain rfl := Option.some.inj h
        exact List.mem_cons_self

/-- What becomes of the pending timers when one of them fires: it is armed again if it repeats, and
    gone if not. -/
def spend (fired : PendingTimer) (pending : List PendingTimer) : List PendingTimer :=
  match fired.every with
  | some interval => pending.map fun timer =>
      if timer.handle = fired.handle then { timer with deadline := timer.deadline + interval }
      else timer
  | none => pending.filter (·.handle ≠ fired.handle)

/-- Fires the first timer that is due at a time, and moves the clock to its deadline. -/
def popDue (clock : Clock) (time : Nat) : Option (Alarm × Clock) :=
  (earliest? (clock.pending.filter fun timer => decide (timer.deadline ≤ time))).map fun timer =>
    (timer.alarm, { clock with now := timer.deadline, pending := spend timer clock.pending })

/-- Fires every timer that is due now, once, in the order in which they were scheduled.  Repeating
    timers are armed again from now on. -/
def fireDue (clock : Clock) : List Alarm × Clock :=
  let isDue (timer : PendingTimer) : Bool := decide (timer.deadline ≤ clock.now)
  let rearm (timer : PendingTimer) : Option PendingTimer :=
    if isDue timer then
      timer.every.map fun interval => { timer with deadline := clock.now + interval }
    else some timer
  ((clock.pending.filter isDue).map (·.alarm),
    { clock with pending := clock.pending.filterMap rearm })

/-- More alarms than can fire on the way to a time, as long as each takes at least a nanosecond to
    be armed again. -/
def alarmBound (clock : Clock) (time : Nat) : Nat :=
  clock.pending.length + 3 * (time + 1 - clock.now) + 1

end Clock

end FisheyeDock
