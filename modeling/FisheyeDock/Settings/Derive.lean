import FisheyeDock.Decimal.Numeral
import FisheyeDock.Kdl.Parser
import FisheyeDock.Settings.Library

/-! # Decoding by declarations

    The library that comes with the dock.  The nodes of a record are taken one after the other into a
    draft of it, each for the field that has its name; what the draft does not know at the end is
    standard.  A document with any issue has no value. -/

namespace FisheyeDock.Settings

open Kdl (Node Value Literal Radix)
open Decoder

/-! ## Values -/

/-- The name of the kind of a value. -/
def kindOf : Literal → String
  | .integer .. => "integer"
  | .decimal _ => "decimal"
  | .string _ => "string"
  | .boolean _ => "boolean"
  | .null => "null"

/-- What digits stand for in a base, if they are some. -/
def magnitudeOf (radix : Radix) (digits : List Char) : Except Issue Nat :=
  if digits ≠ [] ∧ digits.all (Kdl.isDigitOf radix.base) then .ok (Kdl.valueOf radix.base digits)
  else .error .invalidDigit

/-- The number of 32 bits that digits stand for. -/
def integer32 (negative : Bool) (radix : Radix) (digits : List Char) : Except Issue Int := do
  let magnitude ← magnitudeOf radix digits
  if negative then
    if magnitude ≤ 2147483648 then pure (-(magnitude : Int)) else .error .tooSmall
  else
    if magnitude < 2147483648 then pure magnitude else .error .tooLarge

/-- The double that a decimal number stands for. -/
def float (spelling : List Char) : Except Issue Float :=
  match Numeral.read? spelling with
  | some numeral => .ok numeral.toFloat
  | none => .error .invalidNumber

/-- The byte of a literal. -/
def byteOf : Literal → Except Issue UInt8
  | .integer negative radix digits =>
    if negative then .error .invalidDigit
    else do
      let magnitude ← magnitudeOf radix digits
      if magnitude < UInt8.size then pure (UInt8.ofNat magnitude) else .error .tooLarge
  | literal => .error (.wrongKind (kindOf literal))

/-- Decodes a byte.  Goes on with zero where there is none. -/
def byte (value : Value) : Decoder UInt8 := do
  match value.typeName with
  | some typeName => if typeName ≠ "u8" then note (.typeOfByte typeName)
  | none => pure ()
  match byteOf value.literal with
  | .ok byte => pure byte
  | .error issue =>
    note issue
    pure 0

/-- Decodes a text that is read.  Ends where there is none. -/
def text {β : Type} (read : String → Except (Halt Issue) β) (value : Value) : Decoder β := do
  match value.typeName with
  | some typeName => note (.typeOfText typeName)
  | none => pure ()
  match value.literal with
  | .string text => ofExcept (read text)
  | literal => refuse (.wrongKind (kindOf literal))

/-! ## Nodes -/

/-- Ends where a node has properties. -/
def refuseProperties (node : Node) : Decoder Unit :=
  match node.propertyNames with
  | name :: _ => refuse (.unexpectedProperty name)
  | [] => pure ()

/-- Ends where a node that may stand once has been seen. -/
def refuseSecond (seen : Bool) (node : Node) : Decoder Unit :=
  if seen then refuse (.duplicateNode node.name) else pure ()

/-- The issues of a node that should stand alone. -/
def extraParts (node : Node) : List Issue :=
  node.arguments.map (fun _ => .unexpectedArgument)
    ++ node.propertyNames.map .unexpectedProperty
    ++ node.children.map (.unexpectedNode ·.name)

/-- Decodes a node that says something by standing there. -/
def flag (seen : Bool) (node : Node) : Decoder Bool := do
  noteAll (extraParts node)
  if seen then note (.duplicateNode node.name)
  pure true

/-- Decodes a node with one argument. -/
def single {β : Type} (decode : Value → Decoder β) (seen : Bool) (node : Node) : Decoder β := do
  refuseSecond seen node
  match node.arguments with
  | [] => refuse (.missingArgument node.name)
  | first :: others =>
    let value ← decode first
    if !others.isEmpty then refuse .unexpectedArgument
    refuseProperties node
    noteAll (node.children.map (.unexpectedNode ·.name))
    pure value

/-- Decodes a node for a field that may be known already. -/
def Attribute.decode : {β : Type} → Attribute β → (seen : Bool) → Node → Decoder β
  | _, .flag, seen, given => Settings.flag seen given
  | _, .argument decode _, seen, given => single decode seen given
  | _, .text read _, seen, given => single (Settings.text read) seen given
  | _, .node decode _, seen, given => do
    refuseSecond seen given
    decode given

/-! ## Records -/

/-- What is known of the fields of a record. -/
def Draft {ρ : Type} (declaration : Declaration ρ) : Type :=
  (field : declaration.Field) → Option (declaration.Content field)

namespace Draft

variable {ρ : Type} {declaration : Declaration ρ}

def empty : Draft declaration := fun _ => none

/-- Makes a field known. -/
def learn (draft : Draft declaration) (field : declaration.Field)
    (content : declaration.Content field) : Draft declaration := fun other =>
  if h : field = other then some (h ▸ content) else draft other

/-- Adds a node to what is known. -/
def add (draft : Draft declaration) (node : Node) : Decoder (Draft declaration) :=
  match declaration.fields.find? fun field => declaration.name field = node.name with
  | some field => do
    let content ← (declaration.attributeOf field).decode (draft field).isSome node
    pure (draft.learn field content)
  | none => do
    note (.unexpectedNode node.name)
    pure draft

/-- The record of a draft: what is known, and the standard for the rest. -/
def record (draft : Draft declaration) : ρ :=
  declaration.make fun field => (draft field).getD (declaration.attributeOf field).standard

end Draft

/-- Decodes a record from the nodes that give its fields. -/
def children {ρ : Type} (declaration : Declaration ρ) (nodes : List Node) : Decoder ρ :=
  Draft.record <$> nodes.foldlM Draft.add (Draft.empty : Draft declaration)

/-- Decodes a record from a node around those that give its fields. -/
def group {ρ : Type} (declaration : Declaration ρ) (node : Node) : Decoder ρ := do
  if node.typeName.isSome then note .unexpectedType
  if !node.arguments.isEmpty then refuse .unexpectedArgument
  refuseProperties node
  children declaration node.children

/-- The value of a decoder that has come to its end without any issue; otherwise all issues in the
    order in which they were found, or the fault that has stopped it. -/
def result {β : Type} (decoder : Decoder β) : Except (Halt (List Issue)) β :=
  match decoder.outcome, decoder.issues with
  | .ok value, [] => .ok value
  | .ok _, issues => .error (.report issues)
  | .error (.report last), issues => .error (.report (issues ++ [last]))
  | .error (.fault fault), _ => .error (.fault fault)

/-- The library that comes with the dock. -/
def Library.builtIn : Library where
  parse := Kdl.parse
  integer32 := Settings.integer32
  float := Settings.float
  byte := Settings.byte
  children := Settings.children
  node := Settings.group
  result := Settings.result

end FisheyeDock.Settings
