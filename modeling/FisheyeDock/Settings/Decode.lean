import FisheyeDock.Color.Text
import FisheyeDock.Marker.Basic
import FisheyeDock.Settings.Library

/-! # Settings from nodes

    How the nodes of a document give the settings: what each field is declared as, and how the numbers
    that say how strong the magnification is are checked.  What a document does not name keeps its
    standard value. -/

namespace FisheyeDock.Settings

open Kdl (Node Value Literal)
open Decoder

/-! ## Coefficients -/

/-- A number of a document that says how strong the magnification is. -/
inductive Coefficient where
  | rise
  | magnify
  | spread
  | fps
  deriving Repr, DecidableEq

namespace Coefficient

/-- The name of the node that gives a coefficient. -/
def name : Coefficient → String
  | rise => "rise"
  | magnify => "magnify"
  | spread => "spread"
  | fps => "fps"

/-- The bound of a coefficient. -/
def highest : Coefficient → Nat
  | fps => 4
  | rise | magnify | spread => 1

def get {α : Type} : Coefficient → Magnification α → α
  | rise => Magnification.rise
  | magnify => Magnification.magnify
  | spread => Magnification.spread
  | fps => Magnification.fps

/-- What a coefficient is where no document gives it. -/
def standard (c : Coefficient) : Float := c.get (Settings.standard : Settings Float).magnification

end Coefficient

namespace Library

variable (library : Library)

/-- The number of a literal. -/
def numberOf : Literal → Except Issue Float
  | .integer negative radix digits => (library.integer32 negative radix digits).map Float.ofInt
  | .decimal spelling => library.float spelling
  | _ => .error .notANumber

/-- The number of a literal, if it lies between zero and a bound. -/
def numberUpTo (highest : Nat) (literal : Literal) : Except Issue Float :=
  match library.numberOf literal with
  | .ok number =>
    if 0.0 ≤ number ∧ number ≤ Float.ofNat highest then .ok number
    else .error (.outOfRange highest)
  | .error issue => .error issue

/-- Decodes a number between zero and a bound.  Goes on with zero where there is none. -/
def boundedNumber (highest : Nat) (value : Value) : Decoder Float := do
  if value.typeName.isSome then note .unexpectedType
  match library.numberUpTo highest value.literal with
  | .ok number => pure number
  | .error issue =>
    note issue
    pure 0.0

end Library

/-! ## The magnification -/

inductive MagnificationField where
  | off
  | coefficient (c : Coefficient)
  deriving DecidableEq

namespace MagnificationField

def Content : MagnificationField → Type
  | off => Bool
  | coefficient _ => Float

def name : MagnificationField → String
  | off => "off"
  | coefficient c => c.name

def all : List MagnificationField :=
  [off, coefficient .rise, coefficient .magnify, coefficient .spread, coefficient .fps]

theorem mem_all (field : MagnificationField) : field ∈ all := by
  obtain _ | _ | _ | _ | _ := field <;> decide

theorem name_injective : Function.Injective name := by
  rintro (_ | _ | _ | _ | _) (_ | _ | _ | _ | _) h <;> first | rfl | exact absurd h (by decide)

end MagnificationField

/-- How nodes give the settings of the magnification. -/
def Library.magnification (library : Library) : Declaration (Magnification Float) where
  Field := MagnificationField
  Content := MagnificationField.Content
  name := MagnificationField.name
  attributeOf
    | .off => .flag
    | .coefficient c => .argument (library.boundedNumber c.highest) c.standard
  make contents :=
    { off := contents .off
      rise := contents (.coefficient .rise)
      magnify := contents (.coefficient .magnify)
      spread := contents (.coefficient .spread)
      fps := contents (.coefficient .fps) }
  fields := MagnificationField.all
  mem_fields := MagnificationField.mem_all
  name_injective := MagnificationField.name_injective

/-! ## A kind of marker -/

inductive MarkerField where
  | off
  | color
  | style
  deriving DecidableEq

namespace MarkerField

def Content : MarkerField → Type
  | off => Bool
  | color => Color
  | style => UInt8

def name : MarkerField → String
  | off => "off"
  | color => "color"
  | style => "style"

def all : List MarkerField := [off, color, style]

theorem mem_all (field : MarkerField) : field ∈ all := by
  cases field <;> decide

theorem name_injective : Function.Injective name := by
  rintro (_ | _ | _) (_ | _ | _) h <;> first | rfl | exact absurd h (by decide)

end MarkerField

/-- The settings of a kind of marker. -/
def marker (settings : Settings Float) : Marker.Kind → MarkerSettings
  | .dot => settings.dot
  | .badge => settings.badge

/-- The color that a text stands for. -/
def colorOf (css : Color.Css) (text : String) : Except (Halt Issue) Color :=
  (Color.ofText css text).mapError (Halt.map .color)

/-- How nodes give the settings of a kind of marker. -/
def Library.marker (library : Library) (css : Color.Css) (kind : Marker.Kind) :
    Declaration MarkerSettings where
  Field := MarkerField
  Content := MarkerField.Content
  name := MarkerField.name
  attributeOf
    | .off => .flag
    | .color => .text (colorOf css) (Settings.marker .standard kind).color
    | .style => .argument library.byte (Settings.marker .standard kind).style
  make contents := { off := contents .off, color := contents .color, style := contents .style }
  fields := MarkerField.all
  mem_fields := MarkerField.mem_all
  name_injective := MarkerField.name_injective

/-! ## The document -/

inductive DocumentField where
  | magnification
  | marker (kind : Marker.Kind)
  | favoritesOnly
  | peekHiddenIcons
  deriving DecidableEq

namespace DocumentField

def Content : DocumentField → Type
  | magnification => Magnification Float
  | marker _ => MarkerSettings
  | favoritesOnly | peekHiddenIcons => Bool

def name : DocumentField → String
  | magnification => "magnification"
  | marker .dot => "running-indicator"
  | marker .badge => "notification-badge"
  | favoritesOnly => "favorites-only"
  | peekHiddenIcons => "peek-hidden-icons"

def all : List DocumentField :=
  [magnification, marker .dot, marker .badge, favoritesOnly, peekHiddenIcons]

theorem mem_all (field : DocumentField) : field ∈ all := by
  obtain _ | (_ | _) | _ | _ := field <;> decide

theorem name_injective : Function.Injective name := by
  rintro (_ | (_ | _) | _ | _) (_ | (_ | _) | _ | _) h <;> first | rfl | exact absurd h (by decide)

end DocumentField

/-- How nodes give the settings. -/
def Library.document (library : Library) (css : Color.Css) : Declaration (Settings Float) where
  Field := DocumentField
  Content := DocumentField.Content
  name := DocumentField.name
  attributeOf
    | .magnification =>
      .node (library.node library.magnification) (Settings.standard : Settings Float).magnification
    | .marker kind =>
      .node (library.node (library.marker css kind)) (Settings.marker .standard kind)
    | .favoritesOnly | .peekHiddenIcons => .flag
  make contents :=
    { magnification := contents .magnification
      dot := contents (.marker .dot)
      badge := contents (.marker .badge)
      favoritesOnly := contents .favoritesOnly
      peekHiddenIcons := contents .peekHiddenIcons }
  fields := DocumentField.all
  mem_fields := DocumentField.mem_all
  name_injective := DocumentField.name_injective

/-- The settings of a document. -/
def Library.ofNodes (library : Library) (css : Color.Css) (nodes : List Node) :
    Except (Halt (List Issue)) (Settings Float) :=
  library.result (library.children (library.document css) nodes)

end FisheyeDock.Settings
