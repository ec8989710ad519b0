/-! # Readers

    A reader takes a value off the front of a text, or fails and takes nothing.  Of two alternatives
    the second is tried only if the first fails, and what an alternative has read is not reconsidered
    later. -/

namespace FisheyeDock.Kdl

/-- Reads a value off the front of a text. -/
abbrev Reader (β : Type) := StateT (List Char) Option β

namespace Reader

variable {β : Type}

/-- Reads one character of a class. -/
def satisfy (accepts : Char → Bool) : Reader Char := fun
  | [] => none
  | c :: rest => if accepts c then some (c, rest) else none

/-- Reads one given character. -/
def char (c : Char) : Reader Char := satisfy (· == c)

/-- Reads a given text. -/
def exactly (text : List Char) : Reader Unit := fun input =>
  if text.isPrefixOf input then some ((), input.drop text.length) else none

/-- Reads the longest run of characters of a class. -/
def takeWhile (accepts : Char → Bool) : Reader (List Char) := fun input =>
  some (input.takeWhile accepts, input.dropWhile accepts)

/-- Reads nothing, at the end of the text alone. -/
def atEnd : Reader Unit := fun
  | [] => some ((), [])
  | _ :: _ => none

/-- Reads as often as possible, at most `bound` times. -/
def manyWithin (item : Reader β) : (bound : Nat) → Reader (List β)
  | 0 => pure []
  | bound + 1 =>
    (do
      let first ← item
      let others ← manyWithin item bound
      pure (first :: others))
    <|> pure []

/-- Reads as often as possible.  An item that takes nothing is not read forever. -/
def many (item : Reader β) : Reader (List β) := fun input =>
  manyWithin item input.length input

/-- Reads once at least. -/
def many1 (item : Reader β) : Reader (List β) := do
  let first ← item
  let others ← many item
  pure (first :: others)

/-- The value of a whole text. -/
def run (reader : Reader β) (text : List Char) : Option β :=
  (do
    let value ← reader
    atEnd
    pure value : Reader β).run' text

end Reader

end FisheyeDock.Kdl
