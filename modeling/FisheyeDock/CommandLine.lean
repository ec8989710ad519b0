import FisheyeDock.Decimal.Numeral
import FisheyeDock.Geometry

/-! # The command line

    A demonstration is set up by options, which may stand in any order.  Arguments are taken from
    left to right, and the first that is wrong decides.  The value of an option is read only when the
    next known option comes up or the arguments are at their end, so an argument that cannot be
    placed at all comes before a value that cannot be read. -/

namespace FisheyeDock.CommandLine

/-- What a demonstration is to be. -/
structure Arguments where
  /-- The settings file, if there is one. -/
  config : Option String
  icons : Nat
  seconds : Float
  edge : Edge

/-- Why the arguments do not set up a demonstration. -/
inductive Stop where
  | displayHelp
  | displayVersion
  /-- An argument that is neither a known option nor a value. -/
  | unknownArgument
  /-- A value that is missing, or is none of those allowed. -/
  | invalidValue
  /-- A number that cannot be read. -/
  | valueValidation
  /-- An option that is given twice. -/
  | argumentConflict
  /-- A value for an option that takes none. -/
  | tooManyValues
  deriving Repr, DecidableEq

/-- The exit code: asking for help or for the version is no failure. -/
def Stop.exitCode : Stop → UInt32
  | displayHelp | displayVersion => 0
  | _ => 2

def Stop.message : Stop → String
  | displayHelp => "usage: [--config PATH] [--icons N] [--seconds S] [--edge top|right|bottom|left]"
  | displayVersion => "0.1.0"
  | unknownArgument => "error: unexpected argument found"
  | invalidValue => "error: a value is missing or not one of those allowed"
  | valueValidation => "error: a value cannot be read as a number"
  | argumentConflict => "error: an option is given twice"
  | tooManyValues => "error: a value is given to an option that takes none"

/-- The options with a value. -/
inductive Parameter where
  | config
  | icons
  | seconds
  | edge
  deriving Repr, DecidableEq

/-- What has been given so far. -/
structure Given where
  config : Option String
  icons : Option Nat
  seconds : Option Numeral
  edge : Option Edge

namespace Given

def nothing : Given := ⟨none, none, none, none⟩

def has (given : Given) : Parameter → Bool
  | .config => given.config.isSome
  | .icons => given.icons.isSome
  | .seconds => given.seconds.isSome
  | .edge => given.edge.isSome

/-- The edges by name. -/
def edges : List (String × Edge) :=
  [("top", .top), ("right", .right), ("bottom", .bottom), ("left", .left)]

/-- A count that fits a machine word. -/
def count? (text : String) : Option Nat :=
  (Numeral.readNat? text.toList).filter fun n => decide (n < UInt64.size)

/-- Reads the value of a parameter that has not been given before. -/
def assign (given : Given) (parameter : Parameter) (value : String) : Except Stop Given :=
  if given.has parameter then .error .argumentConflict
  else match parameter with
    | .config =>
      if value.isEmpty then .error .invalidValue else .ok { given with config := some value }
    | .icons =>
      match count? value with
      | some icons => .ok { given with icons := some icons }
      | none => .error .valueValidation
    | .seconds =>
      match Numeral.read? value.toList with
      | some seconds => .ok { given with seconds := some seconds }
      | none => .error .valueValidation
    | .edge =>
      match edges.lookup value with
      | some edge => .ok { given with edge := some edge }
      | none => .error .invalidValue

/-- What was given, and the standard for the rest. -/
def arguments (given : Given) : Arguments where
  config := given.config
  icons := given.icons.getD 8
  seconds := (given.seconds.map Numeral.toFloat).getD 4.0
  edge := given.edge.getD .bottom

end Given

/-- The state between two arguments. -/
structure State where
  given : Given
  /-- The last parameter, and its value once that has come up. -/
  pending : Option (Parameter × Option String)
  /-- Two dashes have ended the options. -/
  ended : Bool

namespace State

def start : State := ⟨.nothing, none, false⟩

/-- Reads the value that is pending. -/
def settle (state : State) : Except Stop State :=
  match state.pending with
  | none => .ok state
  | some (_, none) => .error .invalidValue
  | some (parameter, some value) => do
    pure { state with given := ← state.given.assign parameter value, pending := none }

/-- Takes a parameter up, with its value if that is attached. -/
def takeParameter (state : State) (parameter : Parameter) (value : Option String) :
    Except Stop State := do
  let state ← state.settle
  match value with
  | some value => pure { state with given := ← state.given.assign parameter value }
  | none => pure { state with pending := some (parameter, none) }

/-- Stops at an option without a value, once what is pending has been read. -/
def takeSwitch (state : State) (stop : Stop) : Except Stop State := do
  let _ ← state.settle
  .error stop

/-- The parameters by name. -/
def parameters : List (String × Parameter) :=
  [("config", .config), ("icons", .icons), ("seconds", .seconds), ("edge", .edge)]

/-- The options without a value by name. -/
def switches : List (String × Stop) := [("help", .displayHelp), ("version", .displayVersion)]

/-- Takes an option by its name, which two dashes precede. -/
def takeLong (state : State) (text : List Char) : Except Stop State :=
  let name := String.ofList (text.takeWhile (· ≠ '='))
  let value := match text.dropWhile (· ≠ '=') with
    | _ :: value => some (String.ofList value)
    | [] => none
  match parameters.lookup name, switches.lookup name, value with
  | some parameter, _, value => state.takeParameter parameter value
  | none, some stop, none => state.takeSwitch stop
  | none, some _, some _ => .error .tooManyValues
  | none, none, _ => .error .unknownArgument

/-- Takes options by their letters, which one dash precedes.  All letters but one stop at once, so
    nothing is to be taken behind them. -/
def takeShort (state : State) : List Char → Except Stop State
  | 'h' :: _ => state.takeSwitch .displayHelp
  | 'V' :: _ => state.takeSwitch .displayVersion
  | ['c'] => state.takeParameter .config none
  | 'c' :: '=' :: value => state.takeParameter .config (some (String.ofList value))
  | 'c' :: value => state.takeParameter .config (some (String.ofList value))
  | _ => .error .unknownArgument

/-- Takes an argument that is no option. -/
def takeWord (state : State) (word : String) : Except Stop State :=
  match state.pending with
  | some (parameter, none) => .ok { state with pending := some (parameter, some word) }
  | _ => .error .unknownArgument

def take (state : State) (argument : String) : Except Stop State :=
  if state.ended then .error .unknownArgument
  else match argument.toList with
    | ['-', '-'] => .ok { state with ended := true }
    | '-' :: '-' :: text => state.takeLong text
    | '-' :: c :: text => state.takeShort (c :: text)
    | _ => state.takeWord argument

end State

/-- The demonstration that some arguments set up. -/
def parse (arguments : List String) : Except Stop Arguments := do
  let state ← arguments.foldlM State.take .start
  let state ← state.settle
  pure state.given.arguments

end FisheyeDock.CommandLine
