import FisheyeDock.Proofs.Settings.Lawful

/-! # Numbers in range

    A coefficient is given by a literal: a whole number, in whatever base it is written, or a decimal
    number.  A lawful library accepts exactly those that lie between zero and the bound of the
    coefficient (`Library.Lawful.numberUpTo_eq_ok_iff`), where a decimal number counts as the nearest
    double. -/

namespace FisheyeDock.Settings

open Kdl (Literal Radix)
open Float.Model UnpackedFloat

/-- A literal stands for a number between zero and a bound: a whole number that lies there, or a decimal
    number to which a double is nearest that lies there. -/
inductive InRange (highest : Nat) : Literal → Float → Prop where
  | whole {negative : Bool} {radix : Radix} {digits : List Char} {magnitude : ℕ}
      (stands : StandsFor radix.base digits magnitude) (nonneg : 0 ≤ wholeOf negative magnitude)
      (le : wholeOf negative magnitude ≤ highest) :
      InRange highest (.integer negative radix digits) (Float.ofInt (wholeOf negative magnitude))
  | decimal {spelling : List Char} {d : Decimal} {x : Float} (spells : Decimal.Spells spelling d)
      (nearest : Double.Nearest d.sign d.magnitude x) (nonneg : 0.0 ≤ x)
      (le : x ≤ Float.ofNat highest) : InRange highest (.decimal spelling) x

/-- A number between zero and a bound. -/
structure LiesWithin (highest : Nat) (number : Float) : Prop where
  nonneg : 0.0 ≤ number
  le : number ≤ Float.ofNat highest
  isNaN : number.isNaN = false

variable {highest : Nat} {literal : Literal} {number number' : Float} {c : Coefficient}

/-- A literal stands for one number only. -/
theorem InRange.unique (h : InRange highest literal number) (h' : InRange highest literal number') :
    number = number' := by
  cases h with
  | whole stands =>
      cases h' with
      | whole stands' => rw [stands.unique stands']
  | decimal spells nearest =>
      cases h' with
      | decimal spells' nearest' =>
          obtain rfl := spells.unique spells'
          exact nearest.unique nearest'

/-- The bounds leave no room for infinities. -/
theorem LiesWithin.isFinite (h : LiesWithin highest number) (hhighest : highest < 2 ^ 53) :
    number.isFinite = true := by
  show number.toModel.unpack.isFinite = true
  have hnonneg := Double.le_iff_unpacked.mp h.nonneg
  have hle := Double.le_iff_unpacked.mp h.le
  have hnumber : number.toModel.unpack.isNaN = false := h.isNaN
  rw [Double.unpack_zero] at hnonneg
  cases hunpack : number.toModel.unpack with
  | zero | finite => rfl
  | notANumber =>
      rw [hunpack] at hnumber
      exact nomatch hnumber
  | infinity sign =>
      rw [hunpack] at hnonneg hle
      cases sign with
      | negative => exact nomatch hnonneg
      | positive =>
          rcases Nat.eq_zero_or_pos highest with rfl | hpos
          · exact nomatch hle
          · rw [Double.unpack_ofNat hpos hhighest] at hle
            exact nomatch hle

/-- A whole number within the bounds is the double of a number in range. -/
theorem liesWithin_ofInt_iff {n : ℤ} (hn : n.natAbs < 2 ^ 53) (hhighest : highest < 2 ^ 53) :
    LiesWithin highest (Float.ofInt n) ↔ 0 ≤ n ∧ n ≤ highest := by
  rw [← Double.ofInt_mem_range_iff hn hhighest]
  exact ⟨fun h => ⟨h.nonneg, h.le⟩, fun h => ⟨h.1, h.2, Double.isNaN_of_le h.1⟩⟩

/-- A number that is in range lies within the bounds. -/
theorem InRange.liesWithin (h : InRange highest literal number) (hhighest : highest < 2 ^ 53) :
    LiesWithin highest number := by
  cases h with
  | @whole negative _ _ magnitude _ hnonneg hle =>
      exact (liesWithin_ofInt_iff (by omega) hhighest).mpr ⟨hnonneg, hle⟩
  | decimal _ _ hnonneg hle => exact ⟨hnonneg, hle, Double.isNaN_of_le hnonneg⟩

/-! ## What a lawful library accepts -/

namespace Library

variable {library : Library}

/-- A number is taken up to a bound if it is taken at all, and lies within that. -/
theorem numberUpTo_eq_ok_iff_numberOf : library.numberUpTo highest literal = .ok number ↔
    library.numberOf literal = .ok number ∧ LiesWithin highest number := by
  unfold numberUpTo
  cases library.numberOf literal with
  | error issue => exact iff_of_false nofun nofun
  | ok found =>
      dsimp only
      split
      · next hin =>
          refine ⟨fun h => ⟨h, ?_⟩, fun h => h.1⟩
          obtain rfl := Except.ok.inj h
          exact ⟨hin.1, hin.2, Double.isNaN_of_le hin.1⟩
      · next hout =>
          refine iff_of_false nofun ?_
          rintro ⟨hfound, hin⟩
          exact hout (Except.ok.inj hfound ▸ ⟨hin.nonneg, hin.le⟩)

/-- **A LITERAL IS ACCEPTED FOR A NUMBER UP TO A BOUND IF IT STANDS FOR ONE**, and no other is. -/
theorem Lawful.numberUpTo_eq_ok_iff (lawful : library.Lawful) (hhighest : highest < 2 ^ 31) :
    library.numberUpTo highest literal = .ok number ↔ InRange highest literal number := by
  rw [numberUpTo_eq_ok_iff_numberOf]
  -- a number comes from an integer of thirty-two bits or from a decimal number, and from nothing else
  constructor
  · rintro ⟨hnumber, hin⟩
    cases literal with
    | integer negative radix digits =>
        change (library.integer32 negative radix digits).map Float.ofInt = .ok number at hnumber
        cases hn : library.integer32 negative radix digits with
        | error issue =>
            rw [hn] at hnumber
            exact nomatch hnumber
        | ok n =>
            rw [hn] at hnumber
            obtain rfl := Except.ok.inj hnumber
            obtain ⟨⟨magnitude, hdigits, rfl⟩, hlow, hhigh⟩ := lawful.integer32_eq_ok_iff.mp hn
            obtain ⟨hnonneg, hle⟩ := (liesWithin_ofInt_iff (by omega) (by omega)).mp hin
            exact .whole hdigits hnonneg hle
    | decimal spelling =>
        obtain ⟨d, hspells⟩ := lawful.spells_of_float hnumber (hin.isFinite (by omega))
        obtain ⟨x, hx, hnearest⟩ := lawful.float_of_spells hspells
        obtain rfl := Except.ok.inj (hnumber.symm.trans hx)
        exact .decimal hspells hnearest hin.nonneg hin.le
    | string | boolean | null => exact nomatch hnumber
  · intro hin
    refine ⟨?_, hin.liesWithin (by omega)⟩
    cases hin with
    | @whole negative radix digits magnitude hdigits hnonneg hle =>
        have hn : library.integer32 negative radix digits = .ok (wholeOf negative magnitude) :=
          lawful.integer32_eq_ok_iff.mpr ⟨⟨magnitude, hdigits, rfl⟩, by omega, by omega⟩
        show (library.integer32 negative radix digits).map Float.ofInt = _
        rw [hn]
        rfl
    | decimal hspells hnearest hnonneg hle =>
        obtain ⟨x, hx, hnearest'⟩ := lawful.float_of_spells hspells
        exact hx.trans (congrArg Except.ok (hnearest'.unique hnearest))

end Library

/-! ## The bounds of coefficients -/

/-- The bounds of coefficients are whole numbers of thirty-two bits. -/
theorem Coefficient.highest_lt (c : Coefficient) : c.highest < 2 ^ 31 := by
  cases c <;> decide

/-- The standard numbers lie within them. -/
theorem liesWithin_standard (c : Coefficient) : LiesWithin c.highest c.standard := by
  cases c <;> exact ⟨by decide +kernel, by decide +kernel, by decide +kernel⟩

end FisheyeDock.Settings
