import FisheyeDock.Demo.Session

/-! # The demonstration

    The pointer sweeps along the dock for the greater part of the time and leaves it for the rest.
    Time is counted and not waited for, so that the log depends on the settings alone. -/

namespace FisheyeDock.Demo

variable {α : Type} [Scalar α]

/-- The time between two moves of the pointer. -/
def pointerInterval : Nat := milliseconds 10

/-- The part of the time in which the pointer sweeps. -/
def sweepPart : α := 0.7

/-- The shortest time of a demonstration, in seconds. -/
def shortestTour : α := 0.1

/-- How long a demonstration of so many seconds takes. -/
def tourPeriod (seconds : α) : Except Fault Nat :=
  match Scalar.roundPlaces 9 (Scalar.atLeast shortestTour seconds) with
  | some period => if period < Cadence.timeLimit then .ok period else .error .intervalOverflow
  | none => .error .intervalOverflow

namespace Session

/-- Lets the timers fire up to a time, at most `bound` of them. -/
def runWithin (time : Nat) :
    (bound : Nat) → Session α → Except Fault (Session α × List (LogLine α))
  | 0, session => pure (session, [])
  | bound + 1, session =>
    let withClock (timers : Clock) : Session α :=
      { session with dock := { session.dock with
          cadence := { session.dock.cadence with timers } } }
    match session.dock.cadence.timers.popDue time with
    | some (alarm, timers) => do
      let (session, log) ← (withClock timers).fire alarm
      let (session, rest) ← runWithin time bound session
      pure (session, log ++ rest)
    | none => pure (withClock { session.dock.cadence.timers with now := time }, [])

/-- Lets the timers fire up to a time. -/
def runUntil (session : Session α) (time : Nat) : Except Fault (Session α × List (LogLine α)) :=
  session.runWithin time (session.dock.cadence.timers.alarmBound time)

/-- Moves the pointer at a time of a tour: it sweeps, or leaves at the first move after that. -/
def movePointer (session : Session α) (now period : Nat) :
    Except Fault (Session α × List (LogLine α)) :=
  let progress : α := Scalar.ofNat now / Scalar.ofNat period
  if progress < sweepPart then session.sweep (progress / sweepPart)
  else if session.shell.pointer.isFinite then session.leave
  else pure (session, [])

/-- Goes on with a tour for so many moves of the pointer. -/
def tourFrom (period : Nat) :
    (moves : Nat) → (now : Nat) → Session α → Except Fault (List (LogLine α))
  | 0, _, session => pure session.finish.2
  | moves + 1, now, session => do
    let (session, moved) ← session.movePointer now period
    let (session, fired) ← session.runUntil (now + pointerInterval)
    let rest ← tourFrom period moves (now + pointerInterval) session
    pure (moved ++ fired ++ rest)

/-- The log of a whole demonstration. -/
def tour (session : Session α) (period : Nat) : Except Fault (List (LogLine α)) := do
  let (session, log) ← session.handle .enable
  let rest ← tourFrom period ((period + pointerInterval - 1) / pointerInterval) 0 session
  pure (log ++ rest)

end Session

end FisheyeDock.Demo
