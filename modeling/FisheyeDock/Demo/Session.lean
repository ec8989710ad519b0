import FisheyeDock.Decimal.Fixed
import FisheyeDock.Demo.Shell
import FisheyeDock.Dock.Run

/-! # A session without a screen

    A dock on the host in memory, and the log of what it does. -/

namespace FisheyeDock.Demo

open Scene (Command)

/-- A line of the log. -/
inductive LogLine (α : Type) where
  | layersVisible (visible : Bool)
  /-- The scales of the tiles after a tick. -/
  | scales (scales : List α)
  | finishing (tiles markers : Nat)

variable {α : Type} [Scalar α]

/-- The text of a line.  Scales have two decimal places. -/
def LogLine.text : LogLine α → String
  | layersVisible visible => "layers visible: " ++ (if visible then "true" else "false")
  | scales values => values.foldl (fun text scale => text ++ " " ++ Decimal.fixed 2 scale) "scales:"
  | finishing tiles markers =>
    "finishing with " ++ Nat.repr tiles ++ " proxies and " ++ Nat.repr markers ++ " indicators"

structure Session (α : Type) where
  dock : Dock α Clock
  shell : Shell α
  settings : Settings α

namespace Session

/-- A session with a dock that is not enabled. -/
def new (edge : Edge) (count : Nat) (settings : Settings α) : Session α :=
  ⟨Dock.new Clock.start, Shell.new edge count, settings⟩

def host (session : Session α) : Host α := session.shell.host session.settings

/-- The lines that some commands leave in the log. -/
def logOf (commands : List (Command α)) : List (LogLine α) :=
  commands.filterMap fun
    | .showLayers visible => some (.layersVisible visible)
    | _ => none

/-- Goes on with a dock that has given commands. -/
def follow (session : Session α) (dock : Dock α Clock) (commands : List (Command α)) :
    Session α × List (LogLine α) :=
  ({ session with dock, shell := commands.foldl Shell.apply session.shell }, logOf commands)

/-- Lets an event happen to the dock. -/
def handle (session : Session α) (event : Dock.Event) :
    Except Fault (Session α × List (LogLine α)) := do
  let (dock, commands) ← session.dock.handle session.host event
  pure (session.follow dock commands)

/-- The scales of the tiles, for the log. -/
def scales (session : Session α) : LogLine α := .scales (session.dock.row.tiles.map (·.scale))

/-- Lets a timer fire.  After a tick the scales are logged. -/
def fire (session : Session α) (alarm : Alarm) : Except Fault (Session α × List (LogLine α)) := do
  let (session, log) ← session.handle (.alarm alarm)
  pure (session, if alarm = .tick then log ++ [session.scales] else log)

/-- Moves the pointer to a part of the way along the dock. -/
def sweep (session : Session α) (progress : α) : Except Fault (Session α × List (LogLine α)) :=
  { session with shell := session.shell.sweep progress }.handle .pointerMotion

/-- Takes the pointer away. -/
def leave (session : Session α) : Except Fault (Session α × List (LogLine α)) :=
  { session with shell := session.shell.leave }.handle .pointerLeave

/-- Ends the session. -/
def finish (session : Session α) : Session α × List (LogLine α) :=
  let (dock, commands) := session.dock.disable
  let (after, log) := session.follow dock commands
  (after, .finishing session.shell.tiles.length session.shell.markers.length :: log)

end Session

end FisheyeDock.Demo
