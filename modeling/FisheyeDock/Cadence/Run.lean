import FisheyeDock.Cadence.Basic
import FisheyeDock.Timer.Clock

/-! # Runs of a cadence

    A cadence on a `Clock`, run up to a time with every alarm on the way handled as it fires. -/

namespace FisheyeDock.Cadence

/-- Does what a timer is for.  A tick is for others to act on. -/
def handleAlarm {τ : Type} [TimerService τ] (c : Cadence τ) : Alarm → Cadence τ
  | .tick => c
  | .quiet => c.quietPassed
  | .resume => c.resume.2

/-- Handles the alarms up to a time, at most `bound` of them, and moves the clock to that time.
    Gives the alarms in the order in which they fired. -/
def runWithin (time : Nat) : (bound : Nat) → Cadence Clock → Cadence Clock × List Alarm
  | 0, c => (c, [])
  | bound + 1, c =>
    match c.timers.popDue time with
    | some (alarm, timers) =>
      let (c, alarms) := runWithin time bound (handleAlarm { c with timers } alarm)
      (c, alarm :: alarms)
    | none => ({ c with timers := { c.timers with now := time } }, [])

/-- Moves the clock of a cadence on by a period, and handles the alarms on the way. -/
def advance (c : Cadence Clock) (period : Nat) : Cadence Clock × List Alarm :=
  let time := c.timers.now + period
  runWithin time (c.timers.alarmBound time) c

end FisheyeDock.Cadence
