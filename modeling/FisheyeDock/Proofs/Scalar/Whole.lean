import Mathlib
import FisheyeDock.Proofs.Scalar.Ordered

/-! # Whole numbers as doubles

    A whole number below `2 ^ 53` is a double as it stands: nothing is rounded where it is converted
    (`unpack_ofNat`), so that doubles of whole numbers are in order as the numbers are
    (`ofNat_le_ofNat`, `zero_le_ofInt`).  Nor is anything rounded where a double is doubled. -/

namespace FisheyeDock.Double

open Float.Model UnpackedFloat

theorem log2_mul_pow {m : Nat} (hm : 0 < m) (places : Nat) :
    (m * 2 ^ places).log2 = m.log2 + places := by
  induction places with
  | zero => rw [Nat.pow_zero, Nat.mul_one, Nat.add_zero]
  | succ places ih =>
      have hpos : m * 2 ^ places ≠ 0 := (Nat.mul_pos hm (Nat.two_pow_pos places)).ne'
      rw [Nat.pow_succ', Nat.mul_left_comm, Nat.log2_two_mul hpos, ih, Nat.add_assoc]

/-! ## Rounding -/

section Rounding

variable {format : Format} {m : Nat} {e : Int} {sign : Sign}

/-- What is shifted out and is zero leaves no trace. -/
theorem shiftRight_mul_pow (m : Nat) (places : Nat) :
    (ExtendedMantissa.mk (m * 2 ^ places) false false) >>> places = ⟨m, false, false⟩ := by
  show places.repeat ExtendedMantissa.shiftRightOne ⟨m * 2 ^ places, false, false⟩ = _
  induction places generalizing m with
  | zero => rw [Nat.pow_zero, Nat.mul_one]; rfl
  | succ places ih =>
      rw [Nat.repeat, Nat.pow_succ', ← Nat.mul_assoc, ih (m * 2)]
      simp [ExtendedMantissa.shiftRightOne]

/-- A number has its own exponent as target, if its mantissa is full there. -/
theorem targetExponent_of_log2 {mantissa : Nat} {exponent : Int}
    (h : (mantissa.log2 : Int) + exponent = format.mantissaBitsWithoutImplicit + e)
    (he : format.minExponent ≤ e) :
    format.targetExponent (totalExponent mantissa exponent) = e := by
  have htotal : totalExponent mantissa exponent - format.mantissaBits = e := by
    rw [totalExponent, Format.mantissaBits]
    omega
  rw [Format.targetExponent, htotal]
  exact max_eq_left he

/-- A full mantissa with zeros behind it is shifted back without loss. -/
theorem shiftToTargetExponent_mul_pow (hpos : 0 < m)
    (hm : m.log2 = format.mantissaBitsWithoutImplicit) (he : format.minExponent ≤ e)
    (places : Nat) :
    shiftToTargetExponent format (m * 2 ^ places) (e - places) .exact =
      (⟨m, false, false⟩, e) := by
  have htarget : format.targetExponent (totalExponent (m * 2 ^ places) (e - places)) = e := by
    refine targetExponent_of_log2 ?_ he
    rw [log2_mul_pow hpos, hm]
    omega
  have hshift : (e - (e - places)).toNat = places := by omega
  rw [shiftToTargetExponent, htarget, shiftToExponent, hshift, Int.sub_add_cancel]
  exact congrArg (·, e) (shiftRight_mul_pow m places)

/-- A mantissa that fits once its trailing zeros are shifted out is not rounded. -/
theorem roundWithAccuracy_mul_pow (hpos : 0 < m)
    (hm : m.log2 = format.mantissaBitsWithoutImplicit) (he : format.minExponent ≤ e)
    (places : Nat) :
    roundWithAccuracy format sign (m * 2 ^ places) (e - places) .exact =
      .finite sign m e hpos := by
  have hagain := shiftToTargetExponent_mul_pow hpos hm he 0
  rw [Nat.pow_zero, Nat.mul_one, Int.natCast_zero, Int.sub_zero] at hagain
  rw [roundWithAccuracy, shiftToTargetExponent_mul_pow hpos hm he]
  have hrounded : (ExtendedMantissa.mk m false false).roundedMantissa = m := rfl
  dsimp only
  rw [hrounded, hagain]
  exact dif_neg hpos.ne'

theorem minExponent_binary64 : Format.binary64.minExponent = -1074 := rfl

/-- A short mantissa is not rounded. -/
theorem round_of_log2_le (hpos : 0 < m) (hm : m.log2 ≤ 52) (he : -1022 ≤ e) :
    UnpackedFloat.round Format.binary64 sign m e =
      .finite sign (m * 2 ^ (52 - m.log2)) (e - (52 - m.log2 : Nat))
        (Nat.mul_pos hpos (Nat.two_pow_pos _)) := by
  have htarget : Format.binary64.targetExponent (totalExponent m e) = e - (52 - m.log2 : Nat) :=
    targetExponent_of_log2 (by show _ = ((52 : Nat) : Int) + _; omega)
      (by rw [minExponent_binary64]; omega)
  have hshift : (e - (e - (52 - m.log2 : Nat))).toNat = 52 - m.log2 := by omega
  have hlog : (m * 2 ^ (52 - m.log2)).log2 = 52 := by
    rw [log2_mul_pow hpos]
    omega
  rw [UnpackedFloat.round, htarget]
  dsimp only [decreaseExponent]
  rw [hshift, Nat.shiftLeft_eq]
  refine Eq.trans ?_ (roundWithAccuracy_mul_pow (Nat.mul_pos hpos (Nat.two_pow_pos _)) hlog
    (by rw [minExponent_binary64]; omega) 0)
  rw [Nat.pow_zero, Nat.mul_one, Int.natCast_zero, Int.sub_zero]

end Rounding

/-! ## Packing -/

section Packing

variable {format : Format} {m : Nat} {e : Int} {sign : Sign}

theorem finite_congr {sign' : Sign} {m' : Nat} {e' : Int} {hpos : 0 < m} {hpos' : 0 < m'}
    (hsign : sign = sign') (hm : m = m') (he : e = e') :
    UnpackedFloat.finite sign m e hpos = .finite sign' m' e' hpos' := by
  subst hsign hm he
  rfl

/-- What is packed of an exponent and a mantissa is unpacked to them, with the bit that is left
    out. -/
theorem unpack_packComponents {exponent : BitVec format.exponentBits}
    {mantissa : BitVec format.mantissaBitsWithoutImplicit} (hzero : exponent ≠ 0#_)
    (hones : exponent ≠ -1#_) (hpos : 0 < (1#1 ++ mantissa).toNat) :
    UnpackedFloat.unpack format (packComponents format sign exponent mantissa) =
      .finite sign (1#1 ++ mantissa).toNat
        (exponent.toNat - (format.exponentBias + format.mantissaBitsWithoutImplicit)) hpos := by
  refine (if_neg ?_).trans ((if_neg ?_).trans (finite_congr ?_ ?_ ?_))
  · rw [unpackExponent_packComponents]
    exact hones
  · rw [unpackExponent_packComponents]
    exact hzero
  · rw [unpackSign_packComponents, Sign.ofBitVec_toBitVec]
  · rw [unpackMantissa_packComponents]
  · rw [unpackExponent_packComponents]

theorem toNat_one_append {width : Nat} (low : BitVec width) :
    (1#1 ++ low).toNat = 2 ^ width + low.toNat := by
  rw [BitVec.toNat_append, ← Nat.shiftLeft_add_eq_or_of_lt low.isLt, Nat.shiftLeft_eq]
  exact congrArg (· + low.toNat) (Nat.one_mul _)

/-- A number with a full mantissa is kept as it is, if its exponent fits. -/
theorem unpack_pack_full (hpos : 0 < m) (hm : m.log2 = format.mantissaBitsWithoutImplicit)
    (hlow : 0 < e + format.exponentBias + format.mantissaBitsWithoutImplicit)
    (hhigh : e + format.exponentBias + format.mantissaBitsWithoutImplicit + 1 <
      (2 ^ format.exponentBits : Nat)) :
    UnpackedFloat.unpack format (UnpackedFloat.pack format (.finite sign m e hpos)) =
      .finite sign m e hpos := by
  obtain ⟨hleast, hmost⟩ := (Nat.log2_eq_iff hpos.ne').mp hm
  rw [Nat.pow_succ'] at hmost
  generalize hbiased :
    (e + format.exponentBias + format.mantissaBitsWithoutImplicit).toNat = biased
  have hpack : UnpackedFloat.pack format (.finite sign m e hpos) =
      packComponents format sign (BitVec.ofNat _ biased) (BitVec.ofNat _ m) := by
    have hfits : ¬ 2 ^ format.exponentBits ≤ biased + 1 := by omega
    have hbits : m.log2 + 1 = format.mantissaBits := by
      rw [hm, Format.mantissaBits, Nat.add_comm]
    rw [← hbiased] at hfits ⊢
    exact (if_neg hfits).trans (if_pos hbits)
  have hmantissa : (1#1 ++ BitVec.ofNat format.mantissaBitsWithoutImplicit m).toNat = m := by
    have hlow : m % 2 ^ format.mantissaBitsWithoutImplicit =
        m - 2 ^ format.mantissaBitsWithoutImplicit := by
      rw [Nat.mod_eq_sub_mod hleast, Nat.mod_eq_of_lt (by omega)]
    rw [toNat_one_append, BitVec.toNat_ofNat, hlow]
    omega
  have hexponent : (BitVec.ofNat format.exponentBits biased).toNat = biased := by
    rw [BitVec.toNat_ofNat, Nat.mod_eq_of_lt (by omega)]
  -- the exponent that is written is neither that of small numbers nor that of infinity
  rw [hpack, unpack_packComponents]
  · refine finite_congr rfl hmantissa ?_
    rw [hexponent]
    omega
  · intro hzero
    have hnat := hexponent.symm.trans (congrArg BitVec.toNat hzero)
    rw [BitVec.toNat_zero] at hnat
    omega
  · intro hones
    have hnat := hexponent.symm.trans (congrArg BitVec.toNat hones)
    rw [BitVec.neg_one_eq_allOnes, BitVec.toNat_allOnes] at hnat
    omega
  · rw [hmantissa]
    exact hpos

/-- Nor is one of the smallest numbers changed. -/
theorem unpack_pack_short (hpos : 0 < m) (hm : m.log2 < format.mantissaBitsWithoutImplicit)
    (he : e + format.exponentBias + format.mantissaBitsWithoutImplicit = 1)
    (hwidth : 2 < 2 ^ format.exponentBits) :
    UnpackedFloat.unpack format (UnpackedFloat.pack format (.finite sign m e hpos)) =
      .finite sign m e hpos := by
  have hpack : UnpackedFloat.pack format (.finite sign m e hpos) =
      packComponents format sign 0#_ (BitVec.ofNat _ m) := by
    refine (if_neg ?_).trans (if_neg ?_)
    · rw [he]
      exact Nat.not_le_of_lt hwidth
    · rw [Format.mantissaBits]
      omega
  have hmantissa : (BitVec.ofNat format.mantissaBitsWithoutImplicit m).toNat = m := by
    rw [BitVec.toNat_ofNat]
    exact Nat.mod_eq_of_lt ((Nat.log2_lt hpos.ne').mp hm)
  have hne : BitVec.ofNat format.mantissaBitsWithoutImplicit m ≠ 0#_ := by
    intro hzero
    rw [hzero, BitVec.toNat_zero] at hmantissa
    omega
  have hones : (0#_ : BitVec format.exponentBits) ≠ -1#_ := by
    intro hones
    have hnat := congrArg BitVec.toNat hones
    rw [BitVec.toNat_zero, BitVec.neg_one_eq_allOnes, BitVec.toNat_allOnes] at hnat
    omega
  rw [hpack, UnpackedFloat.unpack]
  simp only [unpackExponent_packComponents, unpackMantissa_packComponents,
    unpackSign_packComponents, Sign.ofBitVec_toBitVec]
  rw [if_neg hones, if_pos trivial, dif_neg hne]
  refine finite_congr rfl hmantissa ?_
  rw [BitVec.toNat_zero]
  omega

/-- A full mantissa is packed without loss. -/
theorem unpack_pack_finite (hpos : 0 < m) (hm : m.log2 = 52) (hlo : -1074 ≤ e) (hhi : e ≤ 971) :
    (Float.Model.pack (.finite sign m e hpos)).unpack = .finite sign m e hpos := by
  have hbias : (Format.binary64.exponentBias : Int) = 1023 := rfl
  refine @unpack_pack_full Format.binary64 _ _ _ hpos hm ?_ ?_
  · rw [hbias]
    show 0 < e + 1023 + (52 : Nat)
    omega
  · rw [hbias]
    show e + 1023 + (52 : Nat) + 1 < (2 ^ 11 : Nat)
    omega

/-- A number that is unpacked has a full mantissa, or is one of the smallest. -/
theorem canonical_of_unpack {b : BitVec format.numBits} {hpos : 0 < m}
    (h : UnpackedFloat.unpack format b = .finite sign m e hpos) :
    (m.log2 = format.mantissaBitsWithoutImplicit ∧
      0 < e + format.exponentBias + format.mantissaBitsWithoutImplicit ∧
      e + format.exponentBias + format.mantissaBitsWithoutImplicit + 1 <
        (2 ^ format.exponentBits : Nat)) ∨
    (m.log2 < format.mantissaBitsWithoutImplicit ∧
      e + format.exponentBias + format.mantissaBitsWithoutImplicit = 1) := by
  have hmantissa := (unpackMantissa b).isLt
  unfold UnpackedFloat.unpack at h
  dsimp only at h
  split at h
  · split at h <;> exact nomatch h
  · rename_i hones
    split at h
    · rename_i hzero
      split at h
      · exact nomatch h
      · obtain ⟨-, rfl, rfl⟩ := UnpackedFloat.finite.inj h
        refine .inr ⟨(Nat.log2_lt hpos.ne').mpr hmantissa, ?_⟩
        rw [hzero, BitVec.toNat_zero]
        omega
    · rename_i hzero
      obtain ⟨-, rfl, rfl⟩ := UnpackedFloat.finite.inj h
      have hlt := (unpackExponent b).isLt
      have hne : (unpackExponent b).toNat ≠ 2 ^ format.exponentBits - 1 := by
        intro heq
        refine hones (BitVec.eq_of_toNat_eq ?_)
        rw [heq, BitVec.neg_one_eq_allOnes, BitVec.toNat_allOnes]
      have hpos : (unpackExponent b).toNat ≠ 0 := fun heq => hzero (BitVec.eq_of_toNat_eq heq)
      rw [toNat_one_append] at *
      refine .inl ⟨(Nat.log2_eq_iff (by omega)).mpr ⟨by omega, ?_⟩, by omega, by omega⟩
      rw [Nat.pow_succ']
      omega

end Packing

/-! ## Whole numbers -/

section Whole

variable {n : Nat}

theorem log2_le_of_lt (hn : n < 2 ^ 53) : n.log2 ≤ 52 := by
  by_cases hzero : n = 0
  · rw [hzero, Nat.log2_zero]
    exact Nat.zero_le 52
  · exact Nat.le_of_lt_succ ((Nat.log2_lt hzero).mpr hn)

/-- A mantissa is filled up with zeros to its full length. -/
theorem log2_mul_pow_sub (hpos : 0 < n) (hn : n < 2 ^ 53) : (n * 2 ^ (52 - n.log2)).log2 = 52 := by
  rw [log2_mul_pow hpos]
  exact Nat.add_sub_of_le (log2_le_of_lt hn)

/-- A small number as a machine word is rounded to itself. -/
theorem ofUInt64_toUInt64 (hpos : 0 < n) (hn : n < 2 ^ 53) :
    UnpackedFloat.ofUInt64 Format.binary64 n.toUInt64 =
      UnpackedFloat.round Format.binary64 .positive n 0 := by
  have hnat : n.toUInt64.toNat = n := UInt64.toNat_ofNat_of_lt' (by rw [UInt64.size]; omega)
  rw [UnpackedFloat.ofUInt64, hnat, UnpackedFloat.ofNat, UnpackedFloat.ofInt, UnpackedFloat.normalize,
    Int.compare_eq_gt.mpr (by omega)]
  rfl

theorem unpack_toFloat (hpos : 0 < n) (hn : n < 2 ^ 53) :
    n.toUInt64.toFloat.toModel.unpack = .finite .positive (n * 2 ^ (52 - n.log2)) (n.log2 - 52)
      (Nat.mul_pos hpos (Nat.two_pow_pos _)) := by
  have hlog := log2_le_of_lt hn
  have hmodel : n.toUInt64.toFloat.toModel =
    Float.Model.pack (UnpackedFloat.ofUInt64 Format.binary64 n.toUInt64) := rfl
  rw [hmodel, ofUInt64_toUInt64 hpos hn, round_of_log2_le hpos hlog (by decide),
    unpack_pack_finite _ (log2_mul_pow_sub hpos hn) (by omega) (by omega)]
  exact finite_congr rfl rfl (by omega)

theorem unpack_one : (Float.ofBits 0x3FF0000000000000).toModel.unpack =
    .finite .positive (2 ^ 52) (-52) (by decide) := rfl

/-- A double of a number is made by a product with one. -/
theorem ofNat_eq_mul_one (hn : n < 2 ^ 53) :
    Float.ofNat n = n.toUInt64.toFloat * Float.ofBits 0x3FF0000000000000 :=
  dif_pos ⟨hn, by decide⟩

/-- **A WHOLE NUMBER BELOW `2 ^ 53` IS A DOUBLE AS IT STANDS.** -/
theorem unpack_ofNat (hpos : 0 < n) (hn : n < 2 ^ 53) :
    (Float.ofNat n).toModel.unpack = .finite .positive (n * 2 ^ (52 - n.log2)) (n.log2 - 52)
      (Nat.mul_pos hpos (Nat.two_pow_pos _)) := by
  have hmodel : (Float.ofNat n).toModel = Float.Model.pack (UnpackedFloat.mul Format.binary64
      n.toUInt64.toFloat.toModel.unpack (Float.ofBits 0x3FF0000000000000).toModel.unpack) :=
    congrArg Float.toModel (ofNat_eq_mul_one hn)
  have hlog := log2_mul_pow_sub hpos hn
  have hbound := log2_le_of_lt hn
  have hfull : 0 < n * 2 ^ (52 - n.log2) := Nat.mul_pos hpos (Nat.two_pow_pos _)
  have hmul : UnpackedFloat.mul Format.binary64 (.finite .positive _ (n.log2 - 52) hfull)
      (.finite .positive (2 ^ 52) (-52) (by decide)) =
      .finite .positive _ (n.log2 - 52) hfull :=
    roundWithAccuracy_mul_pow hfull hlog (by rw [minExponent_binary64]; omega) 52
  rw [hmodel, unpack_one, unpack_toFloat hpos hn, hmul,
    unpack_pack_finite hfull hlog (by omega) (by omega)]

theorem unpack_ofNat_zero : (Float.ofNat 0).toModel.unpack = .zero .positive := rfl

/-- A number is above another one if it is longer, or as long and above it where both are filled up. -/
theorem le_iff_log2 {a b : Nat} (ha : 0 < a) (hb : 0 < b) :
    a.log2 < b.log2 ∨ (a.log2 = b.log2 ∧ a * 2 ^ (52 - a.log2) ≤ b * 2 ^ (52 - b.log2)) ↔
      a ≤ b := by
  constructor
  · rintro (hlt | ⟨heq, hle⟩)
    · calc a ≤ 2 ^ (a.log2 + 1) := Nat.lt_log2_self.le
        _ ≤ 2 ^ b.log2 := Nat.pow_le_pow_right (by decide) hlt
        _ ≤ b := Nat.log2_self_le hb.ne'
    · rw [heq] at hle
      exact Nat.le_of_mul_le_mul_right hle (Nat.two_pow_pos _)
  · intro hle
    have hlog : a.log2 ≤ b.log2 := (Nat.le_log2 hb.ne').mpr ((Nat.log2_self_le ha.ne').trans hle)
    rcases Nat.lt_or_eq_of_le hlog with hlt | heq
    · exact .inl hlt
    · refine .inr ⟨heq, ?_⟩
      rw [heq]
      exact Nat.mul_le_mul_right _ hle

/-- Doubles of whole numbers are in order as the numbers are. -/
theorem ofNat_le_ofNat {a b : Nat} (ha : a < 2 ^ 53) (hb : b < 2 ^ 53) :
    Float.ofNat a ≤ Float.ofNat b ↔ a ≤ b := by
  rw [le_iff_unpacked]
  rcases Nat.eq_zero_or_pos a with rfl | hapos
  · refine iff_of_true ?_ (Nat.zero_le b)
    rw [unpack_ofNat_zero]
    rcases Nat.eq_zero_or_pos b with rfl | hbpos
    · rfl
    · rw [unpack_ofNat hbpos hb]
      rfl
  · rw [unpack_ofNat hapos ha]
    rcases Nat.eq_zero_or_pos b with rfl | hbpos
    · exact iff_of_false nofun (Nat.not_le_of_lt hapos)
    · rw [unpack_ofNat hbpos hb, ← le_iff_log2 hapos hbpos]
      exact isLE_then.trans (or_congr (by omega) (and_congr_left fun _ => by omega))

theorem unpack_neg_ofNat (hpos : 0 < n) (hn : n < 2 ^ 53) :
    (Float.ofNat n).neg.toModel.unpack = .finite .negative (n * 2 ^ (52 - n.log2)) (n.log2 - 52)
      (Nat.mul_pos hpos (Nat.two_pow_pos _)) := by
  have hmodel : (Float.ofNat n).neg.toModel =
    Float.Model.pack (Float.ofNat n).toModel.unpack.neg := rfl
  have hlog := log2_le_of_lt hn
  rw [hmodel, unpack_ofNat hpos hn]
  exact unpack_pack_finite _ (log2_mul_pow_sub hpos hn) (by omega) (by omega)

theorem unpack_zero : (0.0 : Float).toModel.unpack = .zero .positive := rfl

/-- The sign of a small whole number is that of its double. -/
theorem zero_le_ofInt {a : Int} (ha : a.natAbs < 2 ^ 53) : 0.0 ≤ Float.ofInt a ↔ 0 ≤ a := by
  rw [le_iff_unpacked, unpack_zero]
  cases a with
  | ofNat n =>
      refine iff_of_true ?_ (Int.natCast_nonneg n)
      rcases Nat.eq_zero_or_pos n with rfl | hpos
      · rfl
      · rw [Float.ofInt, unpack_ofNat hpos ha]
        rfl
  | negSucc n =>
      rw [Float.ofInt, unpack_neg_ofNat n.succ_pos ha]
      exact iff_of_false nofun (Int.not_le_of_gt (Int.negSucc_lt_zero n))

/-- A small whole number is in a range if its double is. -/
theorem ofInt_mem_range_iff {a : Int} {highest : Nat} (ha : a.natAbs < 2 ^ 53)
    (hhighest : highest < 2 ^ 53) :
    0.0 ≤ Float.ofInt a ∧ Float.ofInt a ≤ Float.ofNat highest ↔ 0 ≤ a ∧ a ≤ highest := by
  rw [zero_le_ofInt ha]
  refine and_congr_right fun hnonneg => ?_
  lift a to Nat using hnonneg
  exact (ofNat_le_ofNat ha hhighest).trans Int.ofNat_le.symm

end Whole

theorem isNaN_of_le {x y : Float} (h : x ≤ y) : y.isNaN = false := by
  rw [le_iff_unpacked] at h
  show y.toModel.unpack.isNaN = false
  cases hy : y.toModel.unpack with
  | notANumber =>
      rw [hy] at h
      cases hx : x.toModel.unpack <;> exact nomatch hx ▸ h
  | infinity | zero | finite => rfl

/-! ## Doubling -/

/-- Above the smallest exponent a double has a full mantissa. -/
theorem full_of_unpack {b : BitVec Format.binary64.numBits} {sign : Sign} {m : Nat} {e : Int}
    {hpos : 0 < m} (h : UnpackedFloat.unpack Format.binary64 b = .finite sign m e hpos)
    (he : -1074 < e) : m.log2 = 52 ∧ e ≤ 971 := by
  have hbias : (Format.binary64.exponentBias : Int) = 1023 := rfl
  have hbits : (Format.binary64.mantissaBitsWithoutImplicit : Int) = 52 := rfl
  obtain ⟨hfull, -, hfits⟩ | ⟨-, hsmallest⟩ := canonical_of_unpack h
  · rw [hbias, hbits] at hfits
    change e + 1023 + 52 + 1 < (2 ^ 11 : Nat) at hfits
    exact ⟨hfull, by omega⟩
  · rw [hbias, hbits] at hsmallest
    omega

theorem unpack_two : (2.0 : Float).toModel.unpack = .finite .positive (2 ^ 52) (-51) (by decide) :=
  rfl

/-- What is two or more is above zero when it is doubled, also where that is infinite. -/
theorem zero_lt_double {x : Float} (h : 2.0 ≤ x) : ¬ x * 2.0 ≤ 0.0 := by
  rw [le_iff_unpacked, unpack_two] at h
  rw [le_iff_unpacked, unpack_zero]
  have hmul : (x * 2.0).toModel =
      Float.Model.pack (UnpackedFloat.mul Format.binary64 x.toModel.unpack
        (2.0 : Float).toModel.unpack) := rfl
  rw [hmul, unpack_two]
  cases hx : x.toModel.unpack with
  | notANumber | zero => rw [hx] at h; exact nomatch h
  | infinity sign =>
      rw [hx] at h
      cases sign with
      | negative => exact nomatch h
      | positive => decide
  | finite sign m e hpos =>
      rw [hx] at h
      cases sign with
      | negative => exact nomatch h
      | positive =>
          have he : -51 ≤ e := by
            rcases isLE_then.mp h with hlt | ⟨heq, -⟩ <;> omega
          obtain ⟨hm, hhi⟩ := full_of_unpack hx (by omega)
          have hround : UnpackedFloat.mul Format.binary64 (.finite .positive m e hpos)
              (.finite .positive (2 ^ 52) (-51) (by decide)) = .finite .positive m (e + 1) hpos := by
            rw [UnpackedFloat.mul, show e + -51 = e + 1 - (52 : Nat) by omega]
            exact roundWithAccuracy_mul_pow hpos hm (by rw [minExponent_binary64]; omega) 52
          rw [hround]
          -- the exponent is one greater, if there is such an exponent
          by_cases hfits : e + 1 ≤ 971
          · rw [unpack_pack_finite hpos hm (by omega) hfits]
            exact nofun
          · have hpack : UnpackedFloat.pack Format.binary64 (.finite .positive m (e + 1) hpos) =
                packedInfinity Format.binary64 .positive := by
              have hbias : (Format.binary64.exponentBias : Int) = 1023 := rfl
              refine if_pos ?_
              show 2 ^ 11 ≤ (e + 1 + Format.binary64.exponentBias + (52 : Nat)).toNat + 1
              rw [hbias]
              omega
            show ¬ (UnpackedFloat.unpack Format.binary64 (UnpackedFloat.pack Format.binary64 _)).le _
              = true
            rw [hpack]
            decide

end FisheyeDock.Double
