/-! # Documents of nodes

    The data model of the KDL document language: a document is a list of nodes, and a node has a
    name, arguments, properties, and children of its own. -/

namespace FisheyeDock.Kdl

/-- The base in which a whole number is written. -/
inductive Radix where
  | binary
  | octal
  | decimal
  | hexadecimal
  deriving Repr, DecidableEq

def Radix.base : Radix → Nat
  | binary => 2
  | octal => 8
  | decimal => 10
  | hexadecimal => 16

/-- A value as written. -/
inductive Literal where
  /-- A whole number by its digits, without what separates them.  Zero keeps its sign. -/
  | integer (negative : Bool) (radix : Radix) (digits : List Char)
  /-- A number with a point or an exponent.  It keeps its spelling, because the language admits
  exponents without digits, which spell no number. -/
  | decimal (spelling : List Char)
  | string (text : String)
  | boolean (value : Bool)
  | null
  deriving Repr, DecidableEq

/-- A value with the type that may be written in front of it. -/
structure Value where
  typeName : Option String
  literal : Literal
  deriving Repr, DecidableEq

structure Node where
  typeName : Option String
  name : String
  arguments : List Value
  properties : List (String × Value)
  children : List Node
  deriving Repr

mutual

/-- Whether two nodes are the same. -/
def Node.decEq : (node other : Node) → Decidable (node = other)
  | ⟨typeName, name, arguments, properties, children⟩,
    ⟨typeName', name', arguments', properties', children'⟩ =>
    have := Node.decEqList children children'
    decidable_of_iff (typeName = typeName' ∧ name = name' ∧ arguments = arguments' ∧
      properties = properties' ∧ children = children') (by rw [Node.mk.injEq])

def Node.decEqList : (nodes others : List Node) → Decidable (nodes = others)
  | [], [] => isTrue rfl
  | [], _ :: _ => isFalse nofun
  | _ :: _, [] => isFalse nofun
  | node :: nodes, other :: others =>
    have := Node.decEq node other
    have := Node.decEqList nodes others
    decidable_of_iff (node = other ∧ nodes = others) (by rw [List.cons.injEq])

end

instance : DecidableEq Node := Node.decEq

/-- What stands behind the name of a node. -/
inductive Entry where
  | argument (value : Value)
  | property (name : String) (value : Value)
  deriving Repr

namespace Node

/-- A node from what was written. -/
def ofEntries (typeName : Option String) (name : String) (entries : List Entry)
    (children : List Node) : Node where
  typeName
  name
  arguments := entries.filterMap fun
    | .argument value => some value
    | .property .. => none
  properties := entries.filterMap fun
    | .argument _ => none
    | .property name value => some (name, value)
  children

/-- Puts a name among sorted ones, unless it is there already. -/
def insertName (name : String) : List String → List String
  | [] => [name]
  | other :: names =>
    if name < other then name :: other :: names
    else if name = other then other :: names
    else other :: insertName name names

/-- The names of the properties, each once, in the order of their code points. -/
def propertyNames (node : Node) : List String :=
  (node.properties.map (·.1)).foldr insertName []

end Node

end FisheyeDock.Kdl
