/-! # Timers

    The engine sleeps between its ticks.  It asks a timer service to wake it, and the service tells
    only what the wake-up is for.  Times are counted in nanoseconds. -/

namespace FisheyeDock

/-- What a timer is for. -/
inductive Alarm where
  /-- The next step of the animation. -/
  | tick
  /-- The quiet period has passed. -/
  | quiet
  /-- The pause after a drag has passed. -/
  | resume
  deriving Repr, DecidableEq

/-- The name of a timer that has been accepted. -/
abbrev TimerHandle := Nat

/-- A service that accepts timers or refuses them.  An accepted timer has a handle that no other one
    has, and fires no more once it is cancelled; cancelling a timer that is not pending does
    nothing. -/
class TimerService (τ : Type) where
  /-- Asks for an alarm after every interval. -/
  scheduleRepeating : τ → (interval : Nat) → Alarm → Option TimerHandle × τ
  /-- Asks for one alarm after a delay. -/
  scheduleOnce : τ → (delay : Nat) → Alarm → Option TimerHandle × τ
  cancel : τ → TimerHandle → τ

namespace TimerService

variable {τ : Type} [TimerService τ]

/-- Cancels a timer, if there is one to cancel. -/
def cancelAny (timers : τ) : Option TimerHandle → τ
  | some handle => cancel timers handle
  | none => timers

end TimerService

/-- Nanoseconds in a millisecond. -/
def milliseconds (n : Nat) : Nat := n * 1000000

end FisheyeDock
