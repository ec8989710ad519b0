import FisheyeDock.Fault
import FisheyeDock.Scalar
import FisheyeDock.Timer.Basic

/-! # When the dock moves

    The cadence ticks on a repeating timer while there is something to animate, and stops after a
    quiet period.  A drag suspends it until shortly after the drag has ended. -/

namespace FisheyeDock

/-- What the cadence is doing. -/
inductive Cadence.Phase where
  | idle
  | running
  /-- A drag is going on, or has just ended. -/
  | suspended
  deriving Repr, DecidableEq

structure Cadence (τ : Type) where
  timers : τ
  phase : Cadence.Phase
  /-- The time between two ticks, since the last start. -/
  interval : Nat
  tickTimer : Option TimerHandle
  quietTimer : Option TimerHandle
  resumeTimer : Option TimerHandle
  /-- How many of the next ticks run the layout of the host. -/
  layoutsLeft : Nat
  /-- A drag has begun while running, and suspends at the next tick. -/
  dragQueued : Bool

namespace Cadence

/-- The shortest time between two ticks. -/
def baseInterval : Nat := milliseconds 15

/-- The quiet period before a stop, which one tick more is added to. -/
def quietPeriod : Nat := milliseconds 750

/-- The pause between the end of a drag and the next start. -/
def resumeDelay : Nat := milliseconds 750

/-- The ticks with a layout after the engine has been enabled, or on request. -/
def longLayout : Nat := 20

/-- The ticks with a layout after the focus or the number of icons has changed. -/
def shortLayout : Nat := 8

/-- Times are counted in nanoseconds below this one. -/
def timeLimit : Nat := UInt64.size * milliseconds 1000

/-- The time between two ticks: the shortest one, and fifteen milliseconds for each step of slowing
    down, rounded to whole nanoseconds.  A setting that is negative or undefined does not slow
    down. -/
def intervalFor {α : Type} [Scalar α] (fps : α) : Except Fault Nat :=
  match Scalar.roundPlaces 9 (Scalar.atLeast 0.0 fps * 0.015) with
  | some slowing =>
    if slowing < timeLimit then .ok (baseInterval + slowing) else .error .intervalOverflow
  | none => .error .intervalOverflow

variable {τ : Type} [TimerService τ]

open TimerService

/-- A cadence at rest. -/
def idle (timers : τ) : Cadence τ where
  timers
  phase := .idle
  interval := baseInterval
  tickTimer := none
  quietTimer := none
  resumeTimer := none
  layoutsLeft := 0
  dragQueued := false

def isRunning (c : Cadence τ) : Bool := c.phase == .running

/-- Starts to tick, unless it does already or is suspended.  Without a timer it stays at rest. -/
def start {α : Type} [Scalar α] (c : Cadence τ) (fps : α) : Except Fault (Cadence τ) :=
  if c.phase = .idle then do
    let interval ← intervalFor fps
    match scheduleRepeating c.timers interval .tick with
    | (some handle, timers) =>
      .ok { c with timers, interval, tickTimer := some handle, phase := .running }
    | (none, timers) => .ok { c with timers }
  else .ok c

/-- Lets a running cadence stop after a quiet period, which every request begins anew. -/
def rearm (c : Cadence τ) : Cadence τ :=
  if c.phase = .running then
    let (handle, timers) :=
      scheduleOnce (cancelAny c.timers c.quietTimer) (quietPeriod + c.interval) .quiet
    { c with timers, quietTimer := handle }
  else c

/-- Stops to tick at once. -/
def halt (c : Cadence τ) : Cadence τ :=
  { c with
    timers := cancelAny (cancelAny c.timers c.tickTimer) c.quietTimer
    tickTimer := none
    quietTimer := none
    layoutsLeft := 0
    phase := if c.phase = .running then .idle else c.phase }

/-- Stops because the quiet period has passed.  Its timer is spent. -/
def quietPassed (c : Cadence τ) : Cadence τ := halt { c with quietTimer := none }

def orderLayouts (c : Cadence τ) (ticks : Nat) : Cadence τ := { c with layoutsLeft := ticks }

/-- Counts one tick down, and tells whether it runs the layout. -/
def takeLayout (c : Cadence τ) : Bool × Cadence τ :=
  match c.layoutsLeft with
  | 0 => (false, c)
  | ticks + 1 => (true, { c with layoutsLeft := ticks })

/-- Suspends at once. -/
def suspend (c : Cadence τ) : Cadence τ :=
  { halt c with dragQueued := false, phase := .suspended }

/-- Suspends for a drag: at the next tick while running, otherwise at once. -/
def beginDrag (c : Cadence τ) : Cadence τ :=
  let c := { c with timers := cancelAny c.timers c.resumeTimer, resumeTimer := none }
  match c.phase with
  | .running => { c with dragQueued := true }
  | .idle => suspend c
  | .suspended => c

/-- Suspends if a drag has asked for it, and tells whether it did. -/
def applyDrag (c : Cadence τ) : Bool × Cadence τ :=
  if c.dragQueued then (true, suspend c) else (false, c)

/-- Ends a suspension, and tells whether there was one.  The timer for it is spent. -/
def resume (c : Cadence τ) : Bool × Cadence τ :=
  let c := { c with resumeTimer := none }
  if c.phase = .suspended then (true, { c with phase := .idle }) else (false, c)

/-- Lets a suspension end after a pause; at once where no timer can be had.  A suspension that is
    queued begins before. -/
def endDrag (c : Cadence τ) : Cadence τ :=
  let c := if c.dragQueued then suspend c else c
  if c.phase = .suspended then
    match scheduleOnce (cancelAny c.timers c.resumeTimer) resumeDelay .resume with
    | (some handle, timers) => { c with timers, resumeTimer := some handle }
    | (none, timers) => (resume { c with timers, resumeTimer := none }).2
  else c

/-- Cancels all timers and forgets all requests. -/
def reset (c : Cadence τ) : Cadence τ :=
  let c := halt c
  { c with
    timers := cancelAny c.timers c.resumeTimer
    resumeTimer := none
    dragQueued := false
    phase := .idle }

end Cadence

end FisheyeDock
