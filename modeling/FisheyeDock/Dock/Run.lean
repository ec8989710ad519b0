import FisheyeDock.Dock.Basic
import FisheyeDock.Timer.Clock

/-! # Runs of a dock

    What can happen to a dock, as one type, and what it does about it.  A dock on a `Clock` can also
    be run up to a time, with every alarm on the way handled as it fires. -/

namespace FisheyeDock.Dock

open Scene (Command)

/-- What can happen to a dock. -/
inductive Event where
  | enable
  | disable
  | pointerEnter
  | pointerMotion
  | pointerLeave
  /-- Another window has the focus. -/
  | focusChanged
  | fullscreenChanged
  | dragBegin
  | dragEnd
  | preview (on : Bool)
  | relayout
  | alarm (alarm : Alarm)
  deriving Repr, DecidableEq

variable {α τ : Type} [Scalar α]

/-- What the dock does about an event, given what the host tells at that moment. -/
def handle [TimerService τ] (dock : Dock α τ) (host : Host α) :
    Event → Except Fault (Dock α τ × List (Command α))
  | .enable => pure (dock.enable host.settings, [])
  | .disable => pure dock.disable
  | .pointerEnter | .pointerMotion => (·, []) <$> dock.wake host.settings
  | .pointerLeave => pure (dock.pointerLeave, [])
  | .focusChanged => (·, []) <$> dock.focusChanged host.settings
  | .fullscreenChanged => pure (dock.fullscreenChanged host.geometry)
  | .dragBegin => pure dock.dragBegin
  | .dragEnd => pure dock.dragEnd
  | .preview on => (·, []) <$> dock.preview on host.settings
  | .relayout => (·, []) <$> dock.relayout host.settings
  | .alarm alarm => dock.handleAlarm host alarm

/-- What happened while a clock was moved on. -/
structure Passage (α τ : Type) where
  dock : Dock α τ
  commands : List (Command α)
  /-- The alarms that fired, in order. -/
  alarms : List Alarm

/-- Handles the alarms up to a time, at most `bound` of them, and moves the clock to that time. -/
def runWithin (host : Host α) (time : Nat) :
    (bound : Nat) → Dock α Clock → Except Fault (Passage α Clock)
  | 0, dock => pure { dock, commands := [], alarms := [] }
  | bound + 1, dock =>
    match dock.cadence.timers.popDue time with
    | some (alarm, timers) => do
      let (dock, commands) ←
        handleAlarm { dock with cadence := { dock.cadence with timers } } host alarm
      let rest ← runWithin host time bound dock
      pure { rest with commands := commands ++ rest.commands, alarms := alarm :: rest.alarms }
    | none =>
      let timers := { dock.cadence.timers with now := time }
      pure
        { dock := { dock with cadence := { dock.cadence with timers } }
          commands := []
          alarms := [] }

/-- Moves the clock of a dock on by a period, and handles the alarms on the way. -/
def advance (dock : Dock α Clock) (host : Host α) (period : Nat) :
    Except Fault (Passage α Clock) :=
  let clock := dock.cadence.timers
  let time := clock.now + period
  runWithin host time (clock.alarmBound time) dock

end FisheyeDock.Dock
