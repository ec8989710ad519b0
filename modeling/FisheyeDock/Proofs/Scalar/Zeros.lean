import FisheyeDock.Proofs.Scalar.Exponents

/-! # Zeros

    There are two zeros, and a setting may be either of them.  Both of them stay zero under any finite
    factor, and neither changes a number to which it is added, as far as comparing can tell.  Numbers
    that are not below zero add up to a zero only if they are zeros (`Vanishes.of_add`). -/

namespace FisheyeDock.Double

open Float.Model UnpackedFloat

variable {x y z : Float}

/-- Either zero. -/
def Vanishes (x : Float) : Prop := ∃ sign, x.toModel.unpack = .zero sign

/-- What is unpacked alike is the same double, since all that is undefined is one value. -/
theorem toModel_inj (h : x.toModel.unpack = y.toModel.unpack) : x = y := by
  refine Float.toBits_inj.mp (UInt64.toBitVec_inj.mp ?_)
  exact (unpack_inj_of_valid x.toModel.valid y.toModel.valid).mp h

/-- A double is packed and unpacked without loss. -/
theorem unpack_pack_unpack (x : Float) : UnpackedFloat.unpack Format.binary64
    (UnpackedFloat.pack Format.binary64 x.toModel.unpack) = x.toModel.unpack :=
  congrArg (UnpackedFloat.unpack Format.binary64) (pack_unpack_of_valid x.toModel.valid)

/-- The sum of doubles does not depend on the order. -/
protected theorem add_comm (x y : Float) : x + y = y + x := by
  have hadd : ∀ f g : UnpackedFloat,
      UnpackedFloat.add Format.binary64 f g = UnpackedFloat.add Format.binary64 g f := by
    intro f g
    cases f with
    | notANumber => cases g <;> rfl
    | infinity sign =>
        cases g with
        | infinity sign' => cases sign <;> cases sign' <;> rfl
        | _ => rfl
    | zero sign =>
        cases g with
        | zero sign' => cases sign <;> cases sign' <;> rfl
        | _ => rfl
    | finite sign m e hpos =>
        cases g with
        | finite sign' m' e' hpos' => simp [UnpackedFloat.add, Int.add_comm, Int.min_comm]
        | _ => rfl
  exact congrArg (fun f => Float.ofModel (Float.Model.pack f)) (hadd _ _)

/-- What counts as zero vanishes. -/
theorem vanishes_of_isZero (h : Scalar.isZero x = true) : Vanishes x := by
  unfold Scalar.isZero at h
  rw [Bool.and_eq_true, decide_eq_true_iff, decide_eq_true_iff, le_iff_unpacked, le_iff_unpacked,
    unpack_zero] at h
  obtain ⟨hle, hge⟩ := h
  unfold Vanishes
  cases hx : x.toModel.unpack with
  | notANumber => rw [hx] at hle; exact nomatch hle
  | infinity sign | finite sign =>
      rw [hx] at hle hge
      cases sign with
      | positive => exact nomatch hle
      | negative => exact nomatch hge
  | zero sign => exact ⟨sign, rfl⟩

/-- There are two zeros only. -/
theorem Vanishes.eq (h : Vanishes x) : x = 0.0 ∨ x = -0.0 := by
  obtain ⟨sign, hx⟩ := h
  cases sign with
  | positive => exact .inl (toModel_inj hx)
  | negative => exact .inr (toModel_inj hx)

/-- What vanishes counts as zero. -/
theorem Vanishes.isZero (h : Vanishes x) : Scalar.isZero x = true := by
  obtain rfl | rfl := h.eq
  · decide
  · decide

/-- A finite multiple of what vanishes does so as well. -/
theorem Vanishes.mul (hx : x.isFinite = true) (hy : Vanishes y) : Vanishes (x * y) := by
  obtain ⟨sign, hy⟩ := hy
  have hfinite : x.toModel.unpack.isFinite = true := hx
  have hmul : (x * y).toModel.unpack = UnpackedFloat.unpack Format.binary64
      (UnpackedFloat.pack Format.binary64
        (UnpackedFloat.mul Format.binary64 x.toModel.unpack y.toModel.unpack)) := rfl
  rw [hy] at hmul
  cases hunpack : x.toModel.unpack with
  | infinity | notANumber => rw [hunpack] at hfinite; exact nomatch hfinite
  | zero sign' | finite sign' =>
      rw [hunpack] at hmul
      exact ⟨sign' * sign, hmul.trans unpack_packedZero⟩

/-- A finite double is equal to itself. -/
theorem beq_self (hx : x.isFinite = true) : (x == x) = true := by
  refine Float.beq_self_iff.mpr fun hnan => ?_
  rw [hnan] at hx
  exact absurd hx (by decide)

/-- What is added to a finite number and is zero makes no difference. -/
theorem Vanishes.add_beq (hz : Vanishes z) (hx : x.isFinite = true) : (x + z == x) = true := by
  obtain ⟨sign, hz⟩ := hz
  have hfinite : x.toModel.unpack.isFinite = true := hx
  have hadd : (x + z).toModel.unpack = UnpackedFloat.unpack Format.binary64
      (UnpackedFloat.pack Format.binary64
        (UnpackedFloat.add Format.binary64 x.toModel.unpack z.toModel.unpack)) := rfl
  have hsame := unpack_pack_unpack x
  rw [hz] at hadd
  show (x + z).toModel.unpack.beq x.toModel.unpack = true
  cases hunpack : x.toModel.unpack with
  | infinity | notANumber => rw [hunpack] at hfinite; exact nomatch hfinite
  | zero sign' =>
      rw [hadd, hunpack]
      cases sign <;> cases sign' <;> rfl
  | finite sign' m e hpos =>
      have hself : x.toModel.unpack.beq x.toModel.unpack = true := beq_self hx
      rw [hunpack] at hadd hsame hself
      rw [hadd.trans hsame]
      exact hself

/-! ## Sums that are zero

    No sum of two positive doubles is rounded to zero: it is not below the smallest double. -/

section Unpacked

variable {sign : Sign} {m : Nat} {e : Int}

/-- What is not finer than the smallest double is not shifted away. -/
theorem shifted_ne_zero (hm : m ≠ 0) (he : -1074 ≤ e) (accuracy : Accuracy) :
    (shiftToTargetExponent Format.binary64 m e accuracy).1.mantissa ≠ 0 ∧
      (shiftToTargetExponent Format.binary64 m e accuracy).1.mantissa.log2 ≤ 52 ∧
      -1074 ≤ (shiftToTargetExponent Format.binary64 m e accuracy).2 := by
  obtain ⟨places, hplaces, hmantissa, hexponent⟩ := shiftToTargetExponent_binary64 m e accuracy
  have hle : 2 ^ places ≤ m :=
    (Nat.pow_le_pow_right (by decide) (by omega)).trans (Nat.log2_self_le hm)
  have hne : m / 2 ^ places ≠ 0 := (Nat.div_pos hle (Nat.two_pow_pos places)).ne'
  have hlog := Single.log2_div_pow hne
  rw [hmantissa, hexponent]
  exact ⟨hne, by omega, by omega⟩

/-- A number that is not zero is not rounded to zero, unless it is below all doubles. -/
theorem exists_finite_of_round (hm : m ≠ 0) (he : -1074 ≤ e) (sign : Sign) :
    ∃ m' e' hpos, UnpackedFloat.round Format.binary64 sign m e = .finite sign m' e' hpos ∧
      m'.log2 ≤ 52 ∧ -1074 ≤ e' := by
  rw [UnpackedFloat.round, targetExponent_binary64]
  dsimp only [decreaseExponent]
  have hfine : m <<< (e - max (m.log2 + e - 52) (-1074)).toNat ≠ 0 := by
    rw [Nat.shiftLeft_eq]
    exact Nat.mul_ne_zero hm (Nat.two_pow_pos _).ne'
  have hlow : -1074 ≤ e - (e - max (m.log2 + e - 52) (-1074)).toNat := by omega
  generalize m <<< (e - max (m.log2 + e - 52) (-1074)).toNat = fine at hfine
  generalize e - ((e - max (m.log2 + e - 52) (-1074)).toNat : Int) = low at hlow
  obtain ⟨hfirst, -, hlow'⟩ := shifted_ne_zero hfine hlow .exact
  have hrounded := Single.le_roundedMantissa
    (shiftToTargetExponent Format.binary64 fine low .exact).1
  obtain ⟨hlast, hlog, hlow''⟩ := shifted_ne_zero
    ((Nat.pos_of_ne_zero hfirst).trans_le hrounded).ne' hlow' .exact
  exact ⟨_, _, Nat.pos_of_ne_zero hlast, dif_neg hlast, hlog, hlow''⟩

theorem unpack_pack_ne_zero {hpos : 0 < m} (hlog : m.log2 ≤ 52) (he : -1074 ≤ e) (sign' : Sign) :
    UnpackedFloat.unpack Format.binary64 (UnpackedFloat.pack Format.binary64
      (.finite sign m e hpos)) ≠ .zero sign' := by
  have hbias : (Format.binary64.exponentBias : Int) = 1023 := rfl
  have hbits : (Format.binary64.mantissaBitsWithoutImplicit : Int) = 52 := rfl
  rcases Nat.lt_or_eq_of_le hlog with hshort | hfull
  · -- one of the smallest, whose mantissa is packed as it is
    have hmantissa : BitVec.ofNat Format.binary64.mantissaBitsWithoutImplicit m ≠ 0#_ := by
      intro hzero
      have hnat := congrArg BitVec.toNat hzero
      have hlt : m < 2 ^ 52 := (Nat.log2_lt hpos.ne').mp hshort
      rw [BitVec.toNat_ofNat, BitVec.toNat_zero] at hnat
      change m % 2 ^ 52 = 0 at hnat
      omega
    have hnormal : ¬ m.log2 + 1 = Format.binary64.mantissaBits := by
      show ¬ m.log2 + 1 = 1 + 52
      omega
    rw [UnpackedFloat.pack, if_neg hnormal]
    split
    · cases sign <;> exact nofun
    · rw [UnpackedFloat.unpack]
      simp only [unpackExponent_packComponents, unpackMantissa_packComponents]
      rw [if_neg (by decide), if_pos trivial, dif_neg hmantissa]
      exact nofun
  · -- a full mantissa is kept, or becomes infinite
    by_cases hhigh : e ≤ 971
    · have hkept : UnpackedFloat.unpack Format.binary64 (UnpackedFloat.pack Format.binary64
          (.finite sign m e hpos)) = .finite sign m e hpos :=
        unpack_pack_finite hpos hfull he hhigh
      rw [hkept]
      exact nofun
    · have hover : 2 ^ Format.binary64.exponentBits ≤ (e + Format.binary64.exponentBias +
          Format.binary64.mantissaBitsWithoutImplicit).toNat + 1 := by
        rw [hbias, hbits]
        show 2 ^ 11 ≤ _
        omega
      rw [UnpackedFloat.pack, if_pos hover]
      cases sign <;> exact nofun

theorem unpack_pack_add_ne_zero {m' : Nat} {e' : Int} {hpos : 0 < m} {hpos' : 0 < m'}
    (he : -1074 ≤ e) (he' : -1074 ≤ e') (sign : Sign) :
    UnpackedFloat.unpack Format.binary64 (UnpackedFloat.pack Format.binary64
      (UnpackedFloat.add Format.binary64 (.finite .positive m e hpos)
        (.finite .positive m' e' hpos'))) ≠ .zero sign := by
  have hsum : ∃ n : Nat, n ≠ 0 ∧ UnpackedFloat.add Format.binary64 (.finite .positive m e hpos)
      (.finite .positive m' e' hpos') =
      UnpackedFloat.round Format.binary64 .positive n (min e e') := by
    have hne : m <<< (e - min e e').toNat + m' <<< (e' - min e e').toNat ≠ 0 := by
      rw [Nat.shiftLeft_eq]
      exact (Nat.add_pos_left (Nat.mul_pos hpos (Nat.two_pow_pos _)) _).ne'
    refine ⟨_, hne, ?_⟩
    show UnpackedFloat.normalize Format.binary64 ((m <<< (e - min e e').toNat : Nat) +
      (m' <<< (e' - min e e').toNat : Nat)) (min e e') .positive = _
    have hgt := Int.compare_eq_gt.mpr (Int.natCast_pos.mpr (Nat.pos_of_ne_zero hne))
    rw [← Int.natCast_add, UnpackedFloat.normalize, hgt]
    rfl
  obtain ⟨n, hn, hsum⟩ := hsum
  obtain ⟨m'', e'', hpos'', hround, hlog, hlow⟩ :=
    exists_finite_of_round hn (le_min he he') .positive
  rw [hsum, hround]
  exact unpack_pack_ne_zero hlog hlow sign

end Unpacked

/-- A double above zero. -/
inductive Positive (x : Float) : Prop where
  | infinity (unpacked : x.toModel.unpack = .infinity .positive)
  | finite {m : Nat} {e : Int} (hpos : 0 < m)
      (unpacked : x.toModel.unpack = .finite .positive m e hpos)

/-- What is not below zero is positive, if it does not vanish. -/
theorem vanishes_or_positive (h : 0.0 ≤ x) : Vanishes x ∨ Positive x := by
  rw [le_iff_unpacked, unpack_zero] at h
  cases hx : x.toModel.unpack with
  | notANumber =>
      rw [hx] at h
      exact nomatch h
  | zero sign => exact .inl ⟨sign, hx⟩
  | infinity sign =>
      rw [hx] at h
      cases sign with
      | positive => exact .inr (.infinity hx)
      | negative => exact nomatch h
  | finite sign m e hpos =>
      rw [hx] at h
      cases sign with
      | positive => exact .inr (.finite hpos hx)
      | negative => exact nomatch h

/-- Only a zero becomes zero when a zero is added to it. -/
theorem Vanishes.of_add_right (hy : Vanishes y) (h : Vanishes (x + y)) : Vanishes x := by
  obtain ⟨sign, hadd⟩ := h
  obtain ⟨sign', hy⟩ := hy
  have hkept := unpack_pack_unpack x
  change UnpackedFloat.unpack Format.binary64 (UnpackedFloat.pack Format.binary64
    (UnpackedFloat.add Format.binary64 x.toModel.unpack y.toModel.unpack)) = .zero sign at hadd
  rw [hy] at hadd
  cases hx : x.toModel.unpack with
  | zero sign => exact ⟨sign, hx⟩
  | notANumber | infinity | finite =>
      rw [hx] at hadd hkept
      exact nomatch hkept.symm.trans hadd

/-- The sum of what is positive does not vanish. -/
theorem Positive.not_vanishes_add (hx : Positive x) (hy : Positive y) : ¬ Vanishes (x + y) := by
  rintro ⟨sign, hadd⟩
  change UnpackedFloat.unpack Format.binary64 (UnpackedFloat.pack Format.binary64
    (UnpackedFloat.add Format.binary64 x.toModel.unpack y.toModel.unpack)) = .zero sign at hadd
  have hendless : UnpackedFloat.unpack Format.binary64 (UnpackedFloat.pack Format.binary64
      (.infinity .positive)) ≠ .zero sign := nofun
  cases hx with
  | infinity hx =>
      cases hy with
      | infinity hy | finite hpos hy =>
          rw [hx, hy] at hadd
          exact absurd hadd hendless
  | finite hpos hx =>
      cases hy with
      | infinity hy =>
          rw [hx, hy] at hadd
          exact absurd hadd hendless
      | finite hpos' hy =>
          have hlow := (canonical_unpack hx).low
          have hlow' := (canonical_unpack hy).low
          rw [hx, hy] at hadd
          exact absurd hadd (unpack_pack_add_ne_zero hlow hlow' sign)

/-- Two doubles that are at least zero add up to zero only if they are both zero. -/
theorem Vanishes.of_add (hx : 0.0 ≤ x) (hy : 0.0 ≤ y) (h : Vanishes (x + y)) :
    Vanishes x ∧ Vanishes y := by
  rcases vanishes_or_positive hx with hzero | hpos
  · exact ⟨hzero, hzero.of_add_right (Double.add_comm x y ▸ h)⟩
  · rcases vanishes_or_positive hy with hzero | hpos'
    · exact ⟨hzero.of_add_right h, hzero⟩
    · exact absurd h (hpos.not_vanishes_add hpos')

end FisheyeDock.Double
