import FisheyeDock.Kdl.Document
import FisheyeDock.Kdl.Reader
import FisheyeDock.Decimal.Basic

/-! # Words of the document language

    Blanks and comments, identifiers, strings and numbers. -/

namespace FisheyeDock.Kdl

open Reader

/-! ## Blanks and comments -/

/-- The characters that end a line. -/
def isLineEnd (c : Char) : Bool :=
  c == '\n' || c == '\r' || c == '\x0c' || c == '\u0085' || c == '\u2028' || c == '\u2029'

/-- The characters that separate words on a line. -/
def isLineBlank (c : Char) : Bool :=
  let n := c.toNat
  c == '\t' || c == ' ' || n == 0xA0 || n == 0x1680 || (0x2000 ≤ n && n ≤ 0x200A) || n == 0x202F
    || n == 0x205F || n == 0x3000 || n == 0xFEFF

/-- A line end, of one character or two. -/
def lineEnd : Reader Unit := fun
  | '\r' :: '\n' :: rest => some ((), rest)
  | c :: rest => if isLineEnd c then some ((), rest) else none
  | [] => none

/-- What follows the line that a text begins with. -/
def afterLine : List Char → List Char
  | [] => []
  | '\r' :: '\n' :: rest => rest
  | c :: rest => if isLineEnd c then rest else afterLine rest

/-- A comment up to the end of the line, which is part of it. -/
def lineComment : Reader Unit := do
  exactly ['/', '/']
  modify afterLine

/-- What follows a comment that is open, if it is closed within so many steps.  A comment inside is
    passed over.  A mark that opens none, because nothing closes it, is text, and its star can still
    close the comment around it. -/
def afterBlockWithin : (bound : Nat) → List Char → Option (List Char)
  | _ + 1, '*' :: '/' :: rest => some rest
  | bound + 1, '/' :: '*' :: rest =>
    match afterBlockWithin bound rest with
    | some rest => afterBlockWithin bound rest
    | none =>
      match rest with
      | '/' :: rest => some rest
      | _ => none
  | bound + 1, _ :: rest => afterBlockWithin bound rest
  | _, _ => none

/-- What follows a comment that is open.  No comment takes more steps than it has characters. -/
def afterBlock? (text : List Char) : Option (List Char) := afterBlockWithin text.length text

/-- A comment between marks, which may hold others. -/
def blockComment : Reader Unit := do
  exactly ['/', '*']
  fun input => (afterBlock? input).map ((), ·)

/-- Blanks of a line, or a comment among them. -/
def blank : Reader Unit :=
  (do let _ ← satisfy isLineBlank; let _ ← takeWhile isLineBlank) <|> blockComment

/-- A line end that does not end the node, and a comment before it at most. -/
def continuation : Reader Unit := do
  let _ ← char '\\'
  let _ ← many blank
  lineComment <|> lineEnd

/-- What may stand between the parts of a node. -/
def nodeSpace : Reader Unit := blank <|> continuation

/-- What may stand between nodes. -/
def lineSpace : Reader Unit := lineEnd <|> blank <|> lineComment

/-- What ends a node. -/
def terminator : Reader Unit := lineEnd <|> lineComment <|> (do let _ ← char ';') <|> atEnd

/-! ## Strings -/

/-- The character of a code point that has one. -/
def charOf? (codePoint : Nat) : Option Char :=
  if h : codePoint.isValidChar then some (Char.ofNatAux codePoint h) else none

/-- The value of a digit of either case, up to base sixteen. -/
def digitValue? (base : Nat) (c : Char) : Option Nat :=
  let value? : Option Nat :=
    if '0' ≤ c ∧ c ≤ '9' then some (c.toNat - '0'.toNat)
    else if 'a' ≤ c ∧ c ≤ 'f' then some (c.toNat - 'a'.toNat + 10)
    else if 'A' ≤ c ∧ c ≤ 'F' then some (c.toNat - 'A'.toNat + 10)
    else none
  value?.filter fun value => decide (value < base)

def isDigitOf (base : Nat) (c : Char) : Bool := (digitValue? base c).isSome

/-- The value of a run of digits; what is no digit is passed over. -/
def valueOf (base : Nat) (digits : List Char) : Nat :=
  digits.foldl (fun value c =>
    match digitValue? base c with
    | some digit => base * value + digit
    | none => value) 0

/-- A code point in one to six hexadecimal digits between braces. -/
def codePointEscape : Reader Char := do
  let _ ← char 'u'
  let _ ← char '\x7b'
  let digits ← takeWhile (isDigitOf 16)
  let _ ← char '\x7d'
  if digits.isEmpty || 6 < digits.length then failure
  match charOf? (valueOf 16 digits) with
  | some c => pure c
  | none => failure

/-- What a letter stands for behind a backslash. -/
def escapes : List (Char × Char) :=
  [('"', '"'), ('\\', '\\'), ('/', '/'), ('b', '\x08'), ('f', '\x0c'), ('n', '\n'), ('r', '\r'),
    ('t', '\t')]

def letterEscape : Reader Char := fun
  | [] => none
  | c :: rest => (escapes.lookup c).map (·, rest)

/-- A character of a string. -/
def stringChar : Reader Char :=
  satisfy (fun c => c != '"' && c != '\\')
    <|> (do let _ ← char '\\'; letterEscape <|> codePointEscape)

/-- A string between quotes. -/
def quotedString : Reader String := do
  let _ ← char '"'
  let text ← many stringChar
  let _ ← char '"'
  pure (String.ofList text)

/-- The text before the first quote that so many marks follow, and what comes behind them. -/
def beforeMarks (marks : Nat) : List Char → Option (List Char × List Char)
  | [] => none
  | c :: rest =>
    if c = '"' ∧ (List.replicate marks '#').isPrefixOf rest then some ([], rest.drop marks)
    else (beforeMarks marks rest).map fun (text, rest) => (c :: text, rest)

/-- A string in which nothing is escaped, between quotes with marks around them. -/
def rawString : Reader String := do
  let _ ← char 'r'
  let marks ← takeWhile (· == '#')
  let _ ← char '"'
  let text ← beforeMarks marks.length
  pure (String.ofList text)

def string : Reader String := rawString <|> quotedString

/-! ## Numbers -/

/-- A sign that may be left out: whether it is a minus. -/
def sign : Reader Bool := do
  let found ← optional (satisfy fun c => c == '+' || c == '-')
  pure (found == some '-')

/-- A digit, then digits and separators. -/
def digits (base : Nat) : Reader (List Char) := do
  let first ← satisfy (isDigitOf base)
  let others ← takeWhile fun c => c == '_' || isDigitOf base c
  pure (first :: others)

/-- The bases that a letter stands for. -/
def bases : List (Char × Radix) := [('b', .binary), ('o', .octal), ('x', .hexadecimal)]

/-- What is written without what separates its digits. -/
def withoutSeparators (spelling : List Char) : List Char := spelling.filter (· != '_')

/-- A whole number in a base that is named. -/
def basedInteger : Reader Literal := do
  let negative ← sign
  let _ ← char '0'
  let letter ← satisfy fun _ => true
  match bases.lookup letter with
  | some radix => do pure (.integer negative radix (withoutSeparators (← digits radix.base)))
  | none => failure

/-- The point of a number and the digits behind it. -/
def fraction : Reader (List Char) := do
  let point ← char '.'
  pure (point :: (← digits 10))

/-- The exponent of a number.  Its digits may be missing. -/
def exponent : Reader (List Char) := do
  let mark ← satisfy fun c => c == 'e' || c == 'E'
  let sign ← optional (satisfy fun c => c == '+' || c == '-')
  let digits ← takeWhile fun c => c == '_' || isDigitOf 10 c
  pure (mark :: sign.toList ++ digits)

/-- A number in base ten. -/
def plainNumber : Reader Literal := do
  let negative ← sign
  let whole ← digits 10
  let fraction ← optional fraction
  let exponent ← optional exponent
  match fraction, exponent with
  | none, none => pure (.integer negative .decimal (withoutSeparators whole))
  | _, _ =>
    let spelling := whole ++ fraction.getD [] ++ exponent.getD []
    pure (.decimal ((if negative then ['-'] else []) ++ withoutSeparators spelling))

def number : Reader Literal := basedInteger <|> plainNumber

/-! ## Identifiers -/

/-- The characters that no identifier holds. -/
def isReserved (c : Char) : Bool :=
  let n := c.toNat
  n ≤ 0x20 || "\\/()\x7b\x7d<>;[]=,\"".toList.contains c || n == 0xA0 || n == 0x1680
    || (0x2000 ≤ n && n ≤ 0x200A) || n == 0x202F || n == 0x205F || n == 0x3000 || n == 0x85
    || n == 0x2028 || n == 0x2029

/-- The characters of an identifier after the first. -/
def isIdentifierChar (c : Char) : Bool := !isReserved c && c != '!'

def isSign (c : Char) : Bool := c == '+' || c == '-'

/-- The words that are values and not names. -/
def keywords : List String := ["true", "false", "null"]

/-- The characters of an identifier without quotes.  It does not begin like a number. -/
def identifierChars : Reader (List Char) :=
  (do
    let first ← satisfy isSign
    let second ← satisfy fun c => !isReserved c && !c.isDigit
    let others ← takeWhile isIdentifierChar
    pure (first :: second :: others))
  <|> (do pure [← satisfy isSign])
  <|> (do
    let first ← satisfy fun c => !isReserved c && !c.isDigit && !isSign c
    let others ← takeWhile isIdentifierChar
    pure (first :: others))

/-- An identifier without quotes. -/
def bareIdentifier : Reader String := do
  let name := String.ofList (← identifierChars)
  if keywords.contains name then failure else pure name

/-- A name, with quotes or without.  What begins like a number is none. -/
def identifier : Reader String := do
  if (← optional number).isSome then failure
  bareIdentifier <|> string

/-! ## Values -/

def keyword : Reader Literal :=
  (do exactly "null".toList; pure .null)
  <|> (do exactly "true".toList; pure (.boolean true))
  <|> (do exactly "false".toList; pure (.boolean false))

def literal : Reader Literal := (.string <$> string) <|> keyword <|> number

/-- A type name between parentheses. -/
def typeName : Reader String := do
  let _ ← char '('
  let name ← identifier
  let _ ← char ')'
  pure name

def value : Reader Value := do
  let typeName ← optional typeName
  let literal ← literal
  pure { typeName, literal }

end FisheyeDock.Kdl
