import FisheyeDock.Decimal.Basic

/-! # Numerals

    How numbers are spelled on the command line, in colors and in settings.  A numeral is a sign
    that may be left out, then either `inf`, `infinity` or `nan` in any case, or digits with at
    most one point among or around them and an exponent that may be left out.  Nothing else may
    stand in a numeral, blanks and separators included. -/

namespace FisheyeDock

/-- The number that a numeral stands for. -/
inductive Numeral where
  | undefined
  | infinite (negative : Bool)
  | finite (value : Decimal)
  deriving Repr, DecidableEq

namespace Numeral

/-- Splits a leading sign off: whether it is a minus, and the rest. -/
def splitSign : List Char → Bool × List Char
  | '-' :: rest => (true, rest)
  | '+' :: rest => (false, rest)
  | rest => (false, rest)

/-- Splits the leading decimal digits off. -/
def splitDigits (text : List Char) : List Char × List Char :=
  (text.takeWhile Char.isDigit, text.dropWhile Char.isDigit)

/-- The exponent that ends a numeral, zero where there is none. -/
def exponent? : List Char → Option Int
  | [] => some 0
  | c :: rest =>
    if c = 'e' ∨ c = 'E' then
      let (negative, digits) := splitSign rest
      if digits ≠ [] ∧ digits.all Char.isDigit then
        let value := Decimal.digitsValue digits
        some (if negative then -(value : Int) else value)
      else none
    else none

/-- The digits behind a point, and what follows them. -/
def splitFraction : List Char → List Char × List Char
  | '.' :: rest => splitDigits rest
  | rest => ([], rest)

/-- Digits with a point and an exponent, of which at least one digit stands before the exponent. -/
def unsigned? (negative : Bool) (text : List Char) : Option Decimal :=
  let (whole, rest) := splitDigits text
  let (fraction, rest) := splitFraction rest
  if whole = [] ∧ fraction = [] then none
  else (exponent? rest).map fun exponent =>
    { negative, digits := Decimal.digitsValue (whole ++ fraction)
      exponent := exponent - fraction.length }

/-- The number a text spells, if it spells one. -/
def read? (text : List Char) : Option Numeral :=
  let (negative, body) := splitSign text
  let word := body.map Char.toLower
  if word = ['n', 'a', 'n'] then some undefined
  else if word = ['i', 'n', 'f'] ∨ word = ['i', 'n', 'f', 'i', 'n', 'i', 't', 'y'] then
    some (infinite negative)
  else (unsigned? negative body).map finite

/-- A count: digits, a plus sign before them at most. -/
def readNat? (text : List Char) : Option Nat :=
  let digits := match text with
    | '+' :: rest => rest
    | _ => text
  if digits ≠ [] ∧ digits.all Char.isDigit then some (Decimal.digitsValue digits) else none

/-- The double nearest to the number. -/
def toFloat : Numeral → Float
  | undefined => 0.0 / 0.0
  | infinite negative => if negative then -1.0 / 0.0 else 1.0 / 0.0
  | finite value => value.toFloat

/-- The single precision number nearest to the number. -/
def toFloat32 : Numeral → Float32
  | undefined => 0.0 / 0.0
  | infinite negative => if negative then -1.0 / 0.0 else 1.0 / 0.0
  | finite value => value.toFloat32

end Numeral

end FisheyeDock
