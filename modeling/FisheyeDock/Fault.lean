import FisheyeDock.Text.Escape

/-! # Faults

    What can stop an operation for good.  A fault is no answer to a mistake of the user; an operation
    that reports mistakes as well ends with a `Halt`. -/

namespace FisheyeDock

/-- Why an operation cannot be carried out. -/
inductive Fault where
  /-- The interval between two ticks is too long to be counted, or no number at all. -/
  | intervalOverflow
  /-- There is no tile with the given index. -/
  | indexOutOfBounds (size index : Nat)
  /-- A text was to be cut at a byte inside a character, which begins at byte `start`. -/
  | insideCharacter (index : Nat) (c : Char) (start : Nat)
  deriving Repr, DecidableEq

def Fault.message : Fault → String
  | intervalOverflow => "cannot convert float seconds to Duration: value is either too big or NaN"
  | indexOutOfBounds size index =>
    s!"index out of bounds: the len is {size} but the index is {index}"
  | insideCharacter index c start =>
    "start byte index " ++ Nat.repr index ++ " is not a char boundary; it is inside '"
      ++ String.ofList (Text.quoteChar c) ++ "' (bytes " ++ Nat.repr start ++ ".."
      ++ Nat.repr (start + c.utf8Size) ++ " of string)"

/-- How an operation ends without a result: with a mistake that it reports, or with a fault. -/
inductive Halt (ε : Type) where
  | report (mistake : ε)
  | fault (cause : Fault)
  deriving Repr, DecidableEq

/-- The same end with the mistake told in other words. -/
def Halt.map {ε δ : Type} (f : ε → δ) : Halt ε → Halt δ
  | report mistake => report (f mistake)
  | fault cause => fault cause

/-- Two steps succeed when both do. -/
theorem bind_eq_ok_iff {ε β γ : Type} {x : Except ε β} {f : β → Except ε γ} {c : γ} :
    (x >>= f) = .ok c ↔ ∃ b, x = .ok b ∧ f b = .ok c := by
  cases x with
  | error e =>
      constructor
      · intro h
        exact nomatch h
      · rintro ⟨b, hb, _⟩
        exact nomatch hb
  | ok b =>
      constructor
      · intro h
        exact ⟨b, rfl, h⟩
      · rintro ⟨b', hb, h⟩
        obtain rfl := Except.ok.inj hb
        exact h

/-- A result that is mapped over is accepted exactly if it is accepted, and its content mapped. -/
theorem map_eq_ok_iff {ε β γ : Type} {x : Except ε β} {f : β → γ} {c : γ} :
    f <$> x = .ok c ↔ ∃ b, x = .ok b ∧ f b = c := by
  cases x with
  | error e =>
      constructor
      · intro h
        exact nomatch h
      · rintro ⟨b, hb, _⟩
        exact nomatch hb
  | ok b =>
      constructor
      · intro h
        exact ⟨b, rfl, Except.ok.inj h⟩
      · rintro ⟨b', hb, rfl⟩
        obtain rfl := Except.ok.inj hb
        rfl

end FisheyeDock
