import FisheyeDock.CommandLine
import FisheyeDock.Demo.Tour
import FisheyeDock.Settings.File

/-! # The program

    Runs a demonstration as the command line asks for it, and prints its log. -/

namespace FisheyeDock.Program

/-- The bytes of a file, if it can be read. -/
def contents? (path : String) : IO (Option ByteArray) := do
  try
    let bytes ← IO.FS.readBinFile path
    pure (some bytes)
  catch _ => pure none

/-- The settings in a file, or the standard ones, and what to warn of. -/
def settings (path : Option String) : IO (Except Fault (Settings Float × Option String)) := do
  match path with
  | none => pure (.ok (Settings.standard, none))
  | some path =>
    match Settings.ofFile path (← contents? path) with
    | .ok settings => pure (.ok (settings, none))
    | .error (.report mistake) => pure (.ok (Settings.standard, some mistake.message))
    | .error (.fault fault) => pure (.error fault)

/-- The log of the demonstration that some arguments ask for. -/
def log (arguments : CommandLine.Arguments) (settings : Settings Float) :
    Except Fault (List (Demo.LogLine Float)) := do
  let period ← Demo.tourPeriod arguments.seconds
  (Demo.Session.new arguments.edge arguments.icons settings).tour period

/-- Tells of a fault, and gives the exit code for it. -/
def stopAt (fault : Fault) : IO UInt32 := do
  IO.eprintln fault.message
  pure 101

end FisheyeDock.Program

open FisheyeDock in
def main (arguments : List String) : IO UInt32 := do
  match CommandLine.parse arguments with
  | .error stop =>
    if stop.exitCode = 0 then IO.println stop.message else IO.eprintln stop.message
    pure stop.exitCode
  | .ok arguments =>
    match ← Program.settings arguments.config with
    | .error fault => Program.stopAt fault
    | .ok (settings, warning) =>
      if let some text := warning then IO.eprintln text
      match Program.log arguments settings with
      | .ok lines =>
        for line in lines do IO.println line.text
        pure 0
      | .error fault => Program.stopAt fault
