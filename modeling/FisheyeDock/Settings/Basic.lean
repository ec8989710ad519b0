import FisheyeDock.Color.Basic
import FisheyeDock.Scalar

/-! # Settings

    What the user can choose.  The host keeps the settings and may change them at any time. -/

namespace FisheyeDock

/-- How the icon under the pointer and its neighbors react. -/
structure Magnification (α : Type) where
  /-- Turns the whole engine off. -/
  off : Bool
  /-- How far the icon rises away from the screen edge. -/
  rise : α
  /-- How much the icon grows. -/
  magnify : α
  /-- How strongly the neighbors are pushed aside. -/
  spread : α
  /-- By how many steps the ticks are slowed down. -/
  fps : α

/-- How one kind of marker looks. -/
structure MarkerSettings where
  off : Bool
  color : Color
  /-- The number of a style; a number without a style means the first one. -/
  style : UInt8

structure Settings (α : Type) where
  magnification : Magnification α
  /-- The dot under an icon with windows. -/
  dot : MarkerSettings
  /-- The counter on an icon with notifications. -/
  badge : MarkerSettings
  /-- Only favorites have a place in the dock. -/
  favoritesOnly : Bool
  /-- Icons are magnified even while the dock is hidden. -/
  peekHiddenIcons : Bool

variable {α : Type} [Scalar α]

/-- Whether no strength is left that could move or grow an icon. -/
def Magnification.isInert (m : Magnification α) : Bool :=
  Scalar.isZero (m.rise + m.magnify + m.spread)

/-- What holds where the user has not chosen. -/
def Settings.standard : Settings α where
  magnification := { off := false, rise := 0.25, magnify := 0.5, spread := 0.5, fps := 0.0 }
  dot := { off := false, color := Color.white, style := 0 }
  badge := { off := false, color := Color.pureRed, style := 0 }
  favoritesOnly := false
  peekHiddenIcons := false

end FisheyeDock
