import FisheyeDock.Text.Marks
import FisheyeDock.Text.Unassigned

/-! # Escaped names

    How a name that may hold any character is shown inside a message.  `Text.escape` shows ASCII
    only; `Text.quote` puts the name between quotes and keeps what can be printed. -/

namespace FisheyeDock.Text

/-- The code point of a character in hexadecimal, as an escape. -/
def codePoint (c : Char) : List Char :=
  ['\\', 'u', '\x7b'] ++ Nat.toDigits 16 c.toNat ++ ['\x7d']

/-- The escape of a character that has one of its own. -/
def shortEscape? : Char → Option (List Char)
  | '\t' => some ['\\', 't']
  | '\r' => some ['\\', 'r']
  | '\n' => some ['\\', 'n']
  | '\\' => some ['\\', '\\']
  | '"' => some ['\\', '"']
  | _ => none

/-- A character in ASCII: printable ones stay, both quotes and the backslash take a backslash. -/
def escapeChar (c : Char) : List Char :=
  match shortEscape? c with
  | some escape => escape
  | none =>
    if c = '\'' then ['\\', '\'']
    else if ' ' ≤ c ∧ c ≤ '~' then [c]
    else codePoint c

/-- A name in ASCII. -/
def escape (name : String) : String := String.ofList (name.toList.flatMap escapeChar)

/-- The ranges of the characters that show nothing: controls, format characters, blanks other than
    the space, and letters that only fill a place. -/
def silent : List (Nat × Nat) :=
  [(0x0, 0x1F), (0x7F, 0xA0), (0xAD, 0xAD), (0x600, 0x605), (0x61C, 0x61C), (0x6DD, 0x6DD),
   (0x70F, 0x70F), (0x890, 0x891), (0x8E2, 0x8E2), (0x115F, 0x1160), (0x1680, 0x1680),
   (0x180E, 0x180E), (0x2000, 0x200F), (0x2028, 0x202F), (0x205F, 0x2064), (0x2066, 0x206F),
   (0x3000, 0x3000), (0x3164, 0x3164), (0xFEFF, 0xFEFF), (0xFFA0, 0xFFA0), (0xFFF9, 0xFFFB),
   (0x110BD, 0x110BD), (0x110CD, 0x110CD), (0x13430, 0x1343F), (0x1BCA0, 0x1BCA3),
   (0x1D173, 0x1D17A), (0xE0001, 0xE0001), (0xE0020, 0xE007F)]

/-- Whether a code point lies in one of some ranges. -/
def isWithin (ranges : List (Nat × Nat)) (codePoint : Nat) : Bool :=
  ranges.any fun range => range.1 ≤ codePoint && codePoint ≤ range.2

/-- Whether a character shows something of its own. -/
def isPrintable (c : Char) : Bool :=
  !(isWithin silent c.toNat || isWithin attachedMarks c.toNat || isWithin unassigned c.toNat)

/-- A character between quotes. -/
def quoteChar (c : Char) : List Char :=
  match shortEscape? c with
  | some escape => escape
  | none =>
    if c = '\x00' then ['\\', '0']
    else if isPrintable c then [c]
    else codePoint c

/-- A name between quotes. -/
def quote (name : String) : String :=
  String.ofList ('"' :: name.toList.flatMap quoteChar ++ ['"'])

end FisheyeDock.Text
