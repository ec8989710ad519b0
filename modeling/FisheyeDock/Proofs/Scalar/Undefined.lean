import FisheyeDock.Proofs.Scalar.Magnitude
import FisheyeDock.Proofs.Scalar.Signs

/-! # Numbers and what is undefined

    What is reckoned from something undefined is undefined, and no comparison with it holds.  All else
    can be compared, so that clamping brings every number into its range and leaves alone what is
    undefined (`inUnit_clampUnit`, `isNaN_clampUnit`). -/

namespace FisheyeDock.Single

open Float.Model UnpackedFloat

/-! ## On unpacked values -/

section Unpacked

variable {f g : UnpackedFloat}

/-- Packing makes no number undefined, however large it is. -/
theorem isNaN_packed (f : UnpackedFloat) :
    (UnpackedFloat.unpack Format.binary32 (UnpackedFloat.pack Format.binary32 f)).isNaN =
      f.isNaN :=
  Double.isNaN_unpack_pack f

/-- Rounding makes numbers. -/
theorem isNaN_roundWithAccuracy {sign : Sign} {m : Nat} {e : Int} {accuracy : Accuracy} :
    (roundWithAccuracy Format.binary32 sign m e accuracy).isNaN = false :=
  Double.hasSign_roundWithAccuracy.isNaN

/-- A product with a number other than zero is undefined only if its factor is. -/
theorem isNaN_mul_finite (f : UnpackedFloat) {sign : Sign} {m : Nat} {e : Int} {hpos : 0 < m} :
    (UnpackedFloat.mul Format.binary32 f (.finite sign m e hpos)).isNaN = f.isNaN := by
  cases f with
  | notANumber | infinity | zero => rfl
  | finite => exact isNaN_roundWithAccuracy

theorem isNaN_div_finite (f : UnpackedFloat) {sign : Sign} {m : Nat} {e : Int} {hpos : 0 < m} :
    (UnpackedFloat.div Format.binary32 f (.finite sign m e hpos)).isNaN = f.isNaN := by
  cases f with
  | notANumber | infinity | zero => rfl
  | finite => exact isNaN_roundWithAccuracy

/-- What is not a number does not compare. -/
theorem compare_of_isNaN (h : f.isNaN = true ∨ g.isNaN = true) : f.compare g = none := by
  rcases h with h | h <;> rw [isNaN_iff.mp h]
  · rfl
  · cases f <;> rfl

theorem exists_compare (hf : f.isNaN = false) (hg : g.isNaN = false) :
    ∃ order, f.compare g = some order := by
  cases f with
  | notANumber => exact nomatch hf
  | infinity sign =>
      cases g with
      | notANumber => exact nomatch hg
      | infinity => exact ⟨_, rfl⟩
      | zero | finite => cases sign <;> exact ⟨_, rfl⟩
  | zero =>
      cases g with
      | notANumber => exact nomatch hg
      | infinity sign' | finite sign' => cases sign' <;> exact ⟨_, rfl⟩
      | zero => exact ⟨_, rfl⟩
  | finite sign =>
      cases g with
      | notANumber => exact nomatch hg
      | infinity sign' => cases sign' <;> exact ⟨_, rfl⟩
      | zero => cases sign <;> exact ⟨_, rfl⟩
      | finite sign' => cases sign <;> cases sign' <;> exact ⟨_, rfl⟩

theorem compare_swap (f g : UnpackedFloat) : g.compare f = (f.compare g).map Ordering.swap := by
  cases f with
  | notANumber => cases g <;> rfl
  | infinity sign =>
      cases g with
      | notANumber => cases sign <;> rfl
      | infinity sign' => cases sign <;> cases sign' <;> rfl
      | zero | finite => cases sign <;> rfl
  | zero =>
      cases g with
      | notANumber | zero => rfl
      | infinity sign' | finite sign' => cases sign' <;> rfl
  | finite sign m e =>
      cases g with
      | notANumber => cases sign <;> rfl
      | infinity sign' => cases sign <;> cases sign' <;> rfl
      | zero => cases sign <;> rfl
      | finite sign' m' e' =>
          cases sign <;> cases sign' <;>
            simp [UnpackedFloat.compare, Ordering.swap_then, Int.compare_swap, Nat.compare_swap]

/-- Of two that can be compared, one is not above the other. -/
theorem le_of_lt_eq_false (hf : f.isNaN = false) (hg : g.isNaN = false) (h : f.lt g = false) :
    g.le f = true := by
  obtain ⟨order, horder⟩ := exists_compare hf hg
  rw [UnpackedFloat.lt, horder] at h
  rw [UnpackedFloat.le, compare_swap, horder]
  cases order with
  | lt => exact nomatch h
  | eq | gt => rfl

end Unpacked

/-! ## Comparisons -/

section Comparisons

variable {x y : Float32}

theorem le_iff_unpacked : x ≤ y ↔ x.toModel.unpack.le y.toModel.unpack = true :=
  ⟨fun h => of_decide_eq_true h, fun h => decide_eq_true h⟩

theorem lt_iff_unpacked : x < y ↔ x.toModel.unpack.lt y.toModel.unpack = true :=
  ⟨fun h => of_decide_eq_true h, fun h => decide_eq_true h⟩

theorem not_le_of_isNaN (h : x.isNaN = true ∨ y.isNaN = true) : ¬ x ≤ y := by
  rw [le_iff_unpacked, UnpackedFloat.le, compare_of_isNaN h]
  exact nofun

theorem not_lt_of_isNaN (h : x.isNaN = true ∨ y.isNaN = true) : ¬ x < y := by
  rw [lt_iff_unpacked, UnpackedFloat.lt, compare_of_isNaN h]
  exact nofun

/-- Nothing is equal to what is not a number. -/
theorem beq_of_isNaN (h : x.isNaN = true ∨ y.isNaN = true) : (x == y) = false := by
  show (x.toModel.unpack.compare y.toModel.unpack == some .eq) = false
  rw [compare_of_isNaN h]
  rfl

/-- What is below something is a number, and so is what is above it. -/
theorem isNaN_of_lt (h : x < y) : x.isNaN = false ∧ y.isNaN = false := by
  have hnot := fun hnan => not_lt_of_isNaN (y := y) (x := x) hnan h
  exact ⟨Bool.eq_false_iff.mpr fun hx => hnot (.inl hx),
    Bool.eq_false_iff.mpr fun hy => hnot (.inr hy)⟩

theorem isNaN_of_le (h : x ≤ y) : x.isNaN = false ∧ y.isNaN = false := by
  have hnot := fun hnan => not_le_of_isNaN (y := y) (x := x) hnan h
  exact ⟨Bool.eq_false_iff.mpr fun hx => hnot (.inl hx),
    Bool.eq_false_iff.mpr fun hy => hnot (.inr hy)⟩

/-- Of two numbers one is not above the other. -/
theorem le_of_not_lt (hx : x.isNaN = false) (hy : y.isNaN = false) (h : ¬ x < y) : y ≤ x :=
  le_iff_unpacked.mpr <| le_of_lt_eq_false hx hy <|
    Bool.eq_false_iff.mpr fun hlt => h (lt_iff_unpacked.mpr hlt)

end Comparisons

/-! ## Operations -/

section Operations

variable {x y : Float32}

theorem isNaN_add (h : x.isNaN = true ∨ y.isNaN = true) : (x + y).isNaN = true :=
  Double.isNaN_operation (fun _ => rfl) (fun f => by cases f <;> rfl) h

theorem isNaN_sub (h : x.isNaN = true ∨ y.isNaN = true) : (x - y).isNaN = true :=
  Double.isNaN_operation (fun _ => rfl) (fun f => by cases f <;> rfl) h

theorem isNaN_mul (h : x.isNaN = true ∨ y.isNaN = true) : (x * y).isNaN = true :=
  Double.isNaN_operation (fun _ => rfl) (fun f => by cases f <;> rfl) h

theorem isNaN_div (h : x.isNaN = true ∨ y.isNaN = true) : (x / y).isNaN = true :=
  Double.isNaN_operation (fun _ => rfl) (fun f => by cases f <;> rfl) h

/-- The opposite of what is not a number is none. -/
theorem isNaN_neg (x : Float32) : (-x).isNaN = x.isNaN := by
  refine (isNaN_packed (UnpackedFloat.neg _)).trans ?_
  show (UnpackedFloat.neg x.toModel.unpack).isNaN = x.toModel.unpack.isNaN
  cases x.toModel.unpack <;> rfl

/-- Where the other number is finite and not zero, only what is undefined makes a product
    undefined. -/
theorem isNaN_mul_of_unpack {sign : Sign} {m : Nat} {e : Int} {hpos : 0 < m}
    (h : y.toModel.unpack = .finite sign m e hpos) (x : Float32) : (x * y).isNaN = x.isNaN := by
  refine (isNaN_packed (UnpackedFloat.mul Format.binary32 _ _)).trans ?_
  rw [h]
  exact isNaN_mul_finite _

/-- Nor does anything else make a quotient undefined. -/
theorem isNaN_div_of_unpack {sign : Sign} {m : Nat} {e : Int} {hpos : 0 < m}
    (h : y.toModel.unpack = .finite sign m e hpos) (x : Float32) : (x / y).isNaN = x.isNaN := by
  refine (isNaN_packed (UnpackedFloat.div Format.binary32 _ _)).trans ?_
  rw [h]
  exact isNaN_div_finite _

end Operations

/-! ## Clamping -/

/-- A number from zero to one. -/
structure InUnit (x : Float32) : Prop where
  nonneg : 0.0 ≤ x
  le_one : x ≤ 1.0

section Clamping

variable {x : Float32}

theorem InUnit.isNaN (h : InUnit x) : x.isNaN = false := (isNaN_of_le h.nonneg).2

theorem inUnit_zero : InUnit 0.0 := ⟨by decide, by decide⟩

theorem inUnit_one : InUnit 1.0 := ⟨by decide, by decide⟩

/-- **EVERY NUMBER IS BROUGHT INTO ITS RANGE.** -/
theorem inUnit_clampUnit (h : x.isNaN = false) : InUnit (clampUnit x) := by
  unfold clampUnit clamp
  split
  · exact inUnit_zero
  · next hlow =>
      split
      · exact inUnit_one
      · next hhigh =>
          exact ⟨le_of_not_lt h rfl hlow, le_of_not_lt rfl h hhigh⟩

/-- What is undefined stays so. -/
theorem clampUnit_of_isNaN (h : x.isNaN = true) : clampUnit x = x := by
  unfold clampUnit clamp
  rw [if_neg (not_lt_of_isNaN (.inl h)), if_neg (not_lt_of_isNaN (.inr h))]

/-- Clamping leaves what is not a number. -/
theorem isNaN_clampUnit (x : Float32) : (clampUnit x).isNaN = x.isNaN := by
  cases h : x.isNaN with
  | false => exact (inUnit_clampUnit h).isNaN
  | true => rw [clampUnit_of_isNaN h, h]

end Clamping

/-! ## What is finite -/

section Finite

variable {x modulus : Float32} {sign : Sign} {m : Nat} {e place : Int} {hpos : 0 < m}

/-- A finite number has a full mantissa, or is one of the smallest. -/
theorem fits_of_unpack (h : x.toModel.unpack = .finite sign m e hpos) : Fits m e ∧ e ≤ 104 := by
  have hbias : (Format.binary32.exponentBias : Int) = 127 := rfl
  have hbits : (Format.binary32.mantissaBitsWithoutImplicit : Int) = 23 := rfl
  unfold Fits totalExponent
  obtain ⟨hfull, hlow, hhigh⟩ | ⟨hshort, hsmallest⟩ := Double.canonical_of_unpack h
  · rw [hbias, hbits] at hlow hhigh
    change m.log2 = 23 at hfull
    change e + 127 + 23 + 1 < ((2 ^ 8 : Nat) : Int) at hhigh
    omega
  · rw [hbias, hbits] at hsmallest
    change m.log2 < 23 at hshort
    omega

/-- A number from zero to one is zero, or it is positive and not above one. -/
theorem InUnit.unpacked (h : InUnit x) : (∃ sign, x.toModel.unpack = .zero sign) ∨
    ∃ m e hpos, x.toModel.unpack = .finite .positive m e hpos ∧ Fits m e ∧
      (e < -23 ∨ (e = -23 ∧ m = 2 ^ 23)) := by
  have hone : (1.0 : Float32).toModel.unpack = .finite .positive (2 ^ 23) (-23) (by decide) := rfl
  have hzero : (0.0 : Float32).toModel.unpack = .zero .positive := rfl
  have hle := le_iff_unpacked.mp h.le_one
  have hnonneg := le_iff_unpacked.mp h.nonneg
  rw [hone] at hle
  rw [hzero] at hnonneg
  cases hx : x.toModel.unpack with
  | notANumber =>
      rw [hx] at hle
      exact nomatch hle
  | infinity sign =>
      rw [hx] at hle hnonneg
      cases sign with
      | negative => exact nomatch hnonneg
      | positive => exact nomatch hle
  | zero sign => exact .inl ⟨sign, rfl⟩
  | finite sign m e hpos =>
      obtain ⟨hfits, -⟩ := fits_of_unpack hx
      rw [hx] at hle hnonneg
      cases sign with
      | negative => exact nomatch hnonneg
      | positive =>
          refine .inr ⟨m, e, hpos, rfl, hfits, ?_⟩
          rcases Double.isLE_then.mp hle with hlt | ⟨heq, hm⟩
          · exact .inl hlt
          · refine .inr ⟨heq, le_antisymm hm ((Nat.le_log2 hpos.ne').mp ?_)⟩
            unfold Fits totalExponent at hfits
            omega

/-- What is in the unit is within the first place. -/
theorem InUnit.within (h : InUnit x) : Within 1 x := by
  obtain ⟨sign, hx⟩ | ⟨m, e, hpos, hx, hfits, hle⟩ := h.unpacked
  · rw [Within, hx]
    exact .zero
  · rw [Within, hx]
    refine .finite ?_
    unfold Fits at hfits
    unfold totalExponent at hfits ⊢
    rcases hle with hlt | ⟨heq, -⟩ <;> omega

/-- What remains after taking away whole multiples is undefined or below what was taken away. -/
theorem remainder_within (h : modulus.toModel.unpack = .finite sign m e hpos)
    (hplace : totalExponent m e ≤ place) (hlow : -127 ≤ place) (hhigh : place ≤ 104) (x : Float32) :
    (remainder x modulus).isNaN = true ∨ Within (place + 1) (remainder x modulus) := by
  have hundefined : (0.0 / 0.0 : Float32).isNaN = true := by decide
  unfold remainder
  rw [h]
  cases hx : x.toModel.unpack with
  | notANumber | infinity => exact .inl hundefined
  | zero sign' =>
      refine .inr ?_
      rw [Within]
      dsimp only
      rw [hx]
      exact .zero
  | finite sign' m' e' hpos' =>
      refine .inr ?_
      dsimp only
      -- on the finer of the two grids, the rest is a whole number below the modulus
      generalize hrest : m' <<< (e' - min e' e).toNat % m <<< (e - min e' e).toNat = rest
      suffices hrounded : UpTo (place + 1) (if rest = 0 then .zero sign'
          else UnpackedFloat.round Format.binary32 sign' rest (min e' e)) from
        hrounded.packed (by omega) (by omega)
      split
      · exact .zero
      · next hne =>
          refine upTo_round ?_ (by omega)
          have hlt : rest < 2 ^ (m.log2 + 1 + (e - min e' e).toNat) :=
            calc rest < m * 2 ^ (e - min e' e).toNat := by
                  rw [← hrest, ← Nat.shiftLeft_eq]
                  refine Nat.mod_lt _ ?_
                  rw [Nat.shiftLeft_eq]
                  exact Nat.mul_pos hpos (Nat.two_pow_pos _)
              _ ≤ 2 ^ (m.log2 + 1 + (e - min e' e).toNat) := by
                  rw [Nat.pow_add]
                  exact Nat.mul_le_mul_right _ Nat.lt_log2_self.le
          have hlog := (Nat.log2_lt hne).mpr hlt
          unfold totalExponent at hplace ⊢
          omega

/-- A hue counted in sixths is undefined or small. -/
theorem wrap_six_within (x : Float32) : (wrap 6.0 x).isNaN = true ∨ Within 4 (wrap 6.0 x) := by
  have hsix : (6.0 : Float32).toModel.unpack = .finite .positive (3 * 2 ^ 22) (-21) (by decide) := rfl
  have hplace : totalExponent (3 * 2 ^ 22) (-21) ≤ 3 := by decide
  exact remainder_within hsix hplace (by decide) (by decide) _

end Finite

end FisheyeDock.Single
