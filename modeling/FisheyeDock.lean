import FisheyeDock.Decimal.Rounding
import FisheyeDock.Scalar
import FisheyeDock.Plane
import FisheyeDock.Geometry
import FisheyeDock.Decimal.Numeral
import FisheyeDock.Decimal.Fixed
import FisheyeDock.Text.Blank
import FisheyeDock.Text.Escape
import FisheyeDock.Color.Css
import FisheyeDock.Marker.Pool
import FisheyeDock.Row
import FisheyeDock.Lens
import FisheyeDock.Frame
import FisheyeDock.Timer.Clock
import FisheyeDock.Cadence.Basic
import FisheyeDock.Dock.Run
import FisheyeDock.Cadence.Run
import FisheyeDock.Demo.Session
import FisheyeDock.Kdl.Parser
import FisheyeDock.Settings.File
import FisheyeDock.Settings.Embedded
import FisheyeDock.CommandLine
import FisheyeDock.Demo.Tour
import FisheyeDock.Main
import FisheyeDock.Proofs.Timer.Clock
import FisheyeDock.Proofs.Cadence.Sound
import FisheyeDock.Proofs.Dock.Steps
import FisheyeDock.Proofs.Dock.Timers
import FisheyeDock.Proofs.Marker.Roster
import FisheyeDock.Proofs.Row.Identity
import FisheyeDock.Proofs.Dock.Staging
import FisheyeDock.Proofs.Dock.SceneProtocol
import FisheyeDock.Proofs.Dock.HandOver
import FisheyeDock.Proofs.Scalar.Real
import FisheyeDock.Proofs.Scalar.Value
import FisheyeDock.Proofs.Row.Order
import FisheyeDock.Proofs.Lens.Ends
import FisheyeDock.Proofs.Timer.Timetable
import FisheyeDock.Proofs.Timer.Chronicle
import FisheyeDock.Proofs.Cadence.Timely
import FisheyeDock.Proofs.Dock.Timed
import FisheyeDock.Proofs.Dock.Drag
import FisheyeDock.Proofs.Dock.Quiet
import FisheyeDock.Proofs.Dock.Solo
import FisheyeDock.Proofs.Dock.Settling
import FisheyeDock.Proofs.Dock.Scales
import FisheyeDock.Proofs.Dock.Shrinking
import FisheyeDock.Proofs.Marker.Service
import FisheyeDock.Proofs.Frame.Marking
import FisheyeDock.Proofs.Frame.Faces
import FisheyeDock.Proofs.Dock.Picture
import FisheyeDock.Proofs.Lens.Crossing
import FisheyeDock.Proofs.Lens.Density
import FisheyeDock.Proofs.Dock.Sound
import FisheyeDock.Proofs.Scalar.Double
import FisheyeDock.Proofs.Scalar.Ordered
import FisheyeDock.Proofs.Dock.Reckoning
import FisheyeDock.Proofs.Cadence.Ticking
import FisheyeDock.Proofs.Dock.Effect
import FisheyeDock.Proofs.Dock.Driven
import FisheyeDock.Proofs.Dock.TearDown
import FisheyeDock.Proofs.Dock.Layers
import FisheyeDock.Proofs.Cadence.Instants
import FisheyeDock.Proofs.Dock.Pulse
import FisheyeDock.Proofs.Dock.Debounce
import FisheyeDock.Proofs.Frame.Renumbering
import FisheyeDock.Proofs.Dock.Renumbering
import FisheyeDock.Proofs.Dock.Unnoticed
import FisheyeDock.Proofs.Dock.Afresh
import FisheyeDock.Proofs.Dock.Suspension
import FisheyeDock.Proofs.Row.Visible
import FisheyeDock.Proofs.Row.Sorting
import FisheyeDock.Proofs.Lens.Visible
import FisheyeDock.Proofs.Lens.Names
import FisheyeDock.Proofs.Frame.Sights
import FisheyeDock.Proofs.Frame.Lineup
import FisheyeDock.Proofs.Scene.Told
import FisheyeDock.Proofs.Row.Relisting
import FisheyeDock.Proofs.Dock.Turn
import FisheyeDock.Proofs.Dock.Relisting
import FisheyeDock.Proofs.Dock.Telling
import FisheyeDock.Proofs.Dock.Listing
import FisheyeDock.Proofs.Dock.Preview
import FisheyeDock.Proofs.Dock.Lasting
import FisheyeDock.Proofs.Scalar.Whole
import FisheyeDock.Proofs.Scalar.Magnitude
import FisheyeDock.Proofs.Scalar.Signs
import FisheyeDock.Proofs.Scalar.Undefined
import FisheyeDock.Proofs.Scalar.Rounding
import FisheyeDock.Proofs.Scalar.Nearest
import FisheyeDock.Proofs.Decimal.Nearest
import FisheyeDock.Proofs.Decimal.Spelling
import FisheyeDock.Proofs.Color.Hues
import FisheyeDock.Proofs.Color.Lawful
import FisheyeDock.Proofs.Color.Reading
import FisheyeDock.Proofs.Kdl.Number
import FisheyeDock.Proofs.Settings.Acceptance
import FisheyeDock.Proofs.Settings.Lawful
import FisheyeDock.Proofs.Settings.Derive
import FisheyeDock.Proofs.Settings.Range
import FisheyeDock.Proofs.Settings.Fields
import FisheyeDock.Proofs.Settings.Coefficient
import FisheyeDock.Proofs.Settings.Override
import FisheyeDock.Proofs.Settings.Colors
import FisheyeDock.Proofs.Lens.Edges
import FisheyeDock.Proofs.Timer.Logbook
import FisheyeDock.Proofs.Cadence.Armed
import FisheyeDock.Proofs.Dock.Noted
import FisheyeDock.Proofs.Dock.Dated
import FisheyeDock.Proofs.Dock.Countdown
import FisheyeDock.Proofs.Row.Pass
import FisheyeDock.Proofs.Row.Keyed
import FisheyeDock.Proofs.Lens.Sweep
import FisheyeDock.Proofs.Lens.Walks
import FisheyeDock.Proofs.Lens.Bell
import FisheyeDock.Proofs.Frame.Gliding
import FisheyeDock.Proofs.Scalar.Comparison
import FisheyeDock.Proofs.Lens.Search
import FisheyeDock.Proofs.Demo.Sweep
import FisheyeDock.Proofs.Row.Stable
import FisheyeDock.Proofs.Scalar.Exponents
import FisheyeDock.Proofs.Scalar.Zeros
import FisheyeDock.Proofs.Lens.Still
import FisheyeDock.Proofs.Dock.Pinned
