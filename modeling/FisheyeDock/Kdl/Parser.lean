import FisheyeDock.Kdl.Lexical

/-! # Nodes of the document language

    A node is a name with entries behind it and a block of children in braces, ended by a line end, a
    semicolon or a comment.  A slash with a dash takes what follows it out of the document. -/

namespace FisheyeDock.Kdl

open Reader

/-- The mark that takes the next part out, and the blanks behind it. -/
def omission : Reader Unit := do
  exactly ['/', '-']
  let _ ← many nodeSpace

/-- An entry that begins with a literal: an argument, or a property with a quoted name. -/
def literalEntry : Reader Entry := do
  let first ← literal
  match first, ← optional (char '=' *> value) with
  | .string name, some value => pure (.property name value)
  | _, some _ => failure
  | literal, none => pure (.argument ⟨none, literal⟩)

/-- A property. -/
def bareProperty : Reader Entry := do
  let name ← bareIdentifier
  let _ ← char '='
  pure (.property name (← value))

/-- An argument with a type. -/
def typedArgument : Reader Entry := do
  let typeName ← typeName
  pure (.argument ⟨some typeName, ← literal⟩)

/-- An entry, unless it is taken out. -/
def entry : Reader (Option Entry) := do
  let omitted ← optional omission
  let entry ← literalEntry <|> bareProperty <|> typedArgument
  pure (if omitted.isSome then none else some entry)

/-- The children of a node, between braces, unless they are taken out. -/
def block (nodes : Reader (List Node)) : Reader (List Node) := do
  let _ ← many nodeSpace
  let omitted ← optional omission
  let _ ← char '\x7b'
  let children ← nodes
  let _ ← char '\x7d'
  pure (if omitted.isSome then [] else children)

/-- A node with children that are read by `nodes`, unless it is taken out. -/
def node (nodes : Reader (List Node)) : Reader (Option Node) := do
  let omitted ← optional omission
  let typeName ← optional typeName
  let name ← identifier
  let entries ← many (many1 nodeSpace *> entry)
  let children ← optional (block nodes)
  let _ ← many nodeSpace
  terminator
  let node := Node.ofEntries typeName name (entries.filterMap id) (children.getD [])
  pure (if omitted.isSome then none else some node)

/-- Nodes one after the other, nested to less than a depth. -/
def nodesWithin : (depth : Nat) → Reader (List Node)
  | 0 => failure
  | depth + 1 => do
    let _ ← many lineSpace
    let nodes ← many do
      let found ← node (nodesWithin depth)
      let _ ← many lineSpace
      pure found
    pure (nodes.filterMap id)

/-- The nodes of a document, if the text is one.  No text is nested deeper than it is long. -/
def parse (text : String) : Option (List Node) :=
  let input := text.toList
  (nodesWithin (input.length + 1)).run input

end FisheyeDock.Kdl
