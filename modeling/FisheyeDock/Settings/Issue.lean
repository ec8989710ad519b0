import FisheyeDock.Color.Text
import FisheyeDock.Text.Escape

/-! # What can be wrong with settings

    The ways in which a document can fail to be a settings document, and how each is told. -/

namespace FisheyeDock.Settings

inductive Issue where
  | unexpectedArgument
  | unexpectedProperty (name : String)
  | unexpectedNode (name : String)
  /-- A node that may stand once stands again. -/
  | duplicateNode (name : String)
  | missingArgument (node : String)
  | unexpectedType
  /-- A number of a byte has another type name. -/
  | typeOfByte (found : String)
  /-- A text has a type name. -/
  | typeOfText (found : String)
  /-- A value is of the wrong kind. -/
  | wrongKind (found : String)
  | notANumber
  | tooLarge
  | tooSmall
  /-- A decimal number has an exponent without digits. -/
  | invalidNumber
  /-- A byte has a minus sign. -/
  | invalidDigit
  | outOfRange (highest : Nat)
  | color (cause : Color.ReadError)
  deriving Repr, DecidableEq

def Issue.message : Issue → String
  | unexpectedArgument => "unexpected argument"
  | unexpectedProperty name => "unexpected property `" ++ Text.escape name ++ "`"
  | unexpectedNode name => "unexpected node `" ++ Text.escape name ++ "`"
  | duplicateNode name => "duplicate node `" ++ Text.escape name ++ "`, single node expected"
  | missingArgument node => "additional argument `" ++ node ++ "` is required"
  | unexpectedType => "no type name expected for this node"
  | typeOfByte found => "u8 or no type for u8, found " ++ found
  | typeOfText found => "no type for str, found " ++ found
  | wrongKind found => "expected string scalar, found " ++ found
  | notANumber => "Unsupported value, only numbers are recognized"
  | tooLarge => "number too large to fit in target type"
  | tooSmall => "number too small to fit in target type"
  | invalidNumber => "invalid float literal"
  | invalidDigit => "invalid digit found in string"
  | outOfRange highest => "value must be between 0 and " ++ Nat.repr highest
  | color cause => cause.message

end FisheyeDock.Settings
