import FisheyeDock.Proofs.Scalar.Rounding
import FisheyeDock.Proofs.Scalar.Signs

/-! # The nearest double

    The double of a sign that is nearest to an exact number (`Nearest`): infinite from half a unit above
    the greatest finite one on, and below that no other finite one is nearer, nor as near unless its
    mantissa is odd and that of the nearest is even.  There is one such double (`Nearest.unique`), and
    what is rounded on 53 digits is packed to it (`RoundsTo.nearest`). -/

namespace FisheyeDock.Double

open Float.Model UnpackedFloat

/-! ## Packing and unpacking -/

section Packing

variable {format : Format} {sign : Sign} {m : ℕ} {e : ℤ}

theorem toBitVec_ofBitVec (b : BitVec 1) : (Sign.ofBitVec b).toBitVec = b := by
  revert b
  decide

/-- A word consists of its sign, its exponent and its mantissa. -/
theorem packComponents_unpack (b : BitVec format.numBits) :
    packComponents format (Sign.ofBitVec (unpackSign b)) (unpackExponent b) (unpackMantissa b) = b := by
  have hbits := format.hm
  have hexponent := format.he
  refine BitVec.eq_of_getLsbD_eq fun i hi => ?_
  rw [packComponents, toBitVec_ofBitVec]
  simp only [BitVec.getLsbD_append, unpackMantissa, unpackExponent, unpackSign, BitVec.getLsbD_cast,
    BitVec.getLsbD_extract]
  rcases Nat.lt_or_ge i format.mantissaBitsWithoutImplicit with hlow | hhigh
  · have hin : i ≤ format.mantissaBitsWithoutImplicit - 1 - 0 := by omega
    rw [if_pos hlow, Nat.zero_add, decide_eq_true hin, Bool.true_and]
  · rw [if_neg (by omega)]
    rcases Nat.lt_or_ge i (format.mantissaBitsWithoutImplicit + format.exponentBits) with h | h
    · have hin : i - format.mantissaBitsWithoutImplicit ≤ format.mantissaBitsWithoutImplicit +
          format.exponentBits - 1 - format.mantissaBitsWithoutImplicit := by omega
      rw [if_pos (by omega), Nat.add_sub_cancel' hhigh, decide_eq_true hin, Bool.true_and]
    · obtain rfl : i = format.mantissaBitsWithoutImplicit + format.exponentBits := by
        unfold Format.numBits at hi
        omega
      rw [if_neg (by omega)]
      simp

/-- What is unpacked is packed to the same word again. -/
theorem pack_unpack {b : BitVec format.numBits} (hwidth : 2 < 2 ^ format.exponentBits)
    (h : (UnpackedFloat.unpack format b).isNaN = false) :
    UnpackedFloat.pack format (UnpackedFloat.unpack format b) = b := by
  have hmantissa := (unpackMantissa b).isLt
  have hexponent := (unpackExponent b).isLt
  refine Eq.trans ?_ (packComponents_unpack b)
  unfold UnpackedFloat.unpack at h ⊢
  dsimp only at h ⊢
  split at h
  · next hones =>
      -- infinity, since it is a number
      split at h
      · next hzero =>
          rw [if_pos hones, if_pos hzero, hones, hzero]
          rfl
      · exact nomatch h
  · next hones =>
      have hne : (unpackExponent b).toNat ≠ 2 ^ format.exponentBits - 1 := by
        intro heq
        refine hones (BitVec.eq_of_toNat_eq ?_)
        rw [heq, BitVec.neg_one_eq_allOnes, BitVec.toNat_allOnes]
      rw [if_neg hones]
      split
      · next hzero =>
          split
          · next hnone =>
              rw [hzero, hnone]
              rfl
          · next hsome =>
              -- a subnormal number, which has fewer digits than fit
              have hpos : (unpackMantissa b).toNat ≠ 0 := fun heq => hsome (BitVec.eq_of_toNat_eq heq)
              have hlog := (Nat.log2_lt hpos).mpr hmantissa
              rw [UnpackedFloat.pack, if_neg, if_neg, hzero, BitVec.ofNat_toNat, BitVec.setWidth_eq]
              · rw [Format.mantissaBits]
                omega
              · rw [hzero, BitVec.toNat_zero]
                omega
      · -- a normal number, whose first digit is not written
        have hlog : (1#1 ++ unpackMantissa b).toNat.log2 = format.mantissaBitsWithoutImplicit := by
          rw [toNat_one_append]
          refine (Nat.log2_eq_iff (by omega)).mpr ⟨by omega, ?_⟩
          rw [Nat.pow_succ']
          omega
        have hbiased : ((unpackExponent b).toNat - (format.exponentBias +
            format.mantissaBitsWithoutImplicit : Int) + format.exponentBias +
            format.mantissaBitsWithoutImplicit).toNat = (unpackExponent b).toNat := by
          omega
        have hlow : BitVec.ofNat format.mantissaBitsWithoutImplicit (1#1 ++ unpackMantissa b).toNat =
            unpackMantissa b := by
          refine BitVec.eq_of_toNat_eq ?_
          rw [toNat_one_append, BitVec.toNat_ofNat, Nat.add_mod_left, Nat.mod_eq_of_lt hmantissa]
        rw [UnpackedFloat.pack, hbiased, hlow, if_neg (by omega), if_pos, BitVec.ofNat_toNat,
          BitVec.setWidth_eq]
        rw [Format.mantissaBits, hlog, Nat.add_comm]

/-- Two numbers that are unpacked to the same are the same. -/
theorem eq_of_unpack {x y : Float} (h : x.toModel.unpack = y.toModel.unpack)
    (hx : x.isNaN = false) : x = y := by
  have hy : y.isNaN = false := (congrArg UnpackedFloat.isNaN h).symm.trans hx
  obtain ⟨⟨⟨wordX⟩, validX⟩⟩ := x
  obtain ⟨⟨⟨wordY⟩, validY⟩⟩ := y
  have hword : wordX = wordY := by
    rw [← @pack_unpack Format.binary64 wordX (by decide) hx,
      ← @pack_unpack Format.binary64 wordY (by decide) hy]
    exact congrArg (UnpackedFloat.pack Format.binary64) h
  subst hword
  rfl

/-- What is canonical is regular: it has few enough places. -/
theorem Canonical.regular (h : Canonical m e) (hpos : 0 < m) : Regular m e := by
  obtain ⟨hlog, hfull, hlow, -⟩ := h
  refine ⟨(Nat.log2_lt hpos.ne').mp (by omega), hlow, hfull.imp_left fun hfull => ?_⟩
  exact (Nat.le_log2 hpos.ne').mp hfull.ge

/-- What is regular is canonical, if its exponent is not too great. -/
theorem Regular.canonical (h : Regular m e) (hhigh : e ≤ 971) : Canonical m e := by
  obtain ⟨hlt, hlow, hfull⟩ := h
  have hlog := log2_le_of_lt hlt
  refine ⟨hlog, hfull.imp_left fun hfull => ?_, hlow, hhigh⟩
  exact le_antisymm hlog ((Nat.le_log2 (by omega)).mpr hfull)

/-- A double is packed without loss. -/
theorem unpack_pack_canonical (hpos : 0 < m) (h : Canonical m e) :
    (Float.Model.pack (.finite sign m e hpos)).unpack = .finite sign m e hpos := by
  obtain ⟨hlog, hfull, hlow, hhigh⟩ := h
  by_cases hm : m.log2 = 52
  · exact unpack_pack_finite hpos hm hlow hhigh
  · have hbias : (Format.binary64.exponentBias : Int) = 1023 := rfl
    have hbits : (Format.binary64.mantissaBitsWithoutImplicit : Int) = 52 := rfl
    refine @unpack_pack_short Format.binary64 _ _ _ hpos ?_ ?_ (by decide)
    · show m.log2 < 52
      omega
    · rw [hbias, hbits]
      omega

/-- A number with too great an exponent is packed to an infinite one. -/
theorem unpack_pack_overflow (hpos : 0 < m) (hhigh : 971 < e) :
    (Float.Model.pack (.finite sign m e hpos)).unpack = .infinity sign := by
  have hbias : (Format.binary64.exponentBias : Int) = 1023 := rfl
  have hbits : (Format.binary64.mantissaBitsWithoutImplicit : Int) = 52 := rfl
  have hpack : UnpackedFloat.pack Format.binary64 (.finite sign m e hpos) =
      packedInfinity Format.binary64 sign := by
    refine if_pos ?_
    rw [hbias, hbits]
    show 2 ^ 11 ≤ _
    omega
  show UnpackedFloat.unpack Format.binary64 (UnpackedFloat.pack Format.binary64 _) = _
  rw [hpack]
  cases sign <;> rfl

end Packing

/-! ## The nearest one -/

section Nearest

variable {sign : Sign} {q : ℚ} {x y : Float} {f : UnpackedFloat}

/-- How far a finite double is from zero. -/
def size (x : Float) : ℚ := magnitude x.toModel.unpack

/-- Half a unit above the greatest finite double. -/
def overflow : ℚ := 2 ^ 1024 - 2 ^ 970

/-- A double is the one of a sign that is nearest to an exact number. -/
structure Nearest (sign : Sign) (q : ℚ) (x : Float) : Prop where
  sign : HasSign sign x.toModel.unpack
  isFinite_iff : x.isFinite = true ↔ q < overflow
  /-- No finite double is nearer. -/
  near : x.isFinite = true → ∀ y : Float, y.isFinite = true → |q - size x| ≤ |q - size y|
  /-- Of two equally near ones it is the even one. -/
  even : x.isFinite = true → ∀ y : Float, y.isFinite = true → |q - size x| = |q - size y| →
    size y = size x ∨ (IsEven x.toModel.unpack ∧ ¬ IsEven y.toModel.unpack)

/-- A finite double is a number that fits. -/
theorem exists_of_isFinite (h : x.isFinite = true) : ∃ (m : ℕ) (e : ℤ), m < 2 ^ 53 ∧ -1074 ≤ e ∧
    e ≤ 971 ∧ size x = m * 2 ^ e ∧ (m % 2 = 1 → ¬ IsEven x.toModel.unpack) := by
  have hfinite : x.toModel.unpack.isFinite = true := h
  unfold size
  cases hx : x.toModel.unpack with
  | notANumber | infinity => rw [hx] at hfinite; exact nomatch hfinite
  | zero => exact ⟨0, 0, by decide, by decide, by decide, by simp [magnitude], nofun⟩
  | finite sign m e hpos =>
      have hcanonical := canonical_unpack hx
      have hregular := hcanonical.regular hpos
      refine ⟨m, e, hregular.lt, hregular.low, hcanonical.high, rfl, fun hodd heven => ?_⟩
      exact absurd (hodd.symm.trans heven) (by decide)

/-- The greatest finite double, the limit and the number that would be next, in half units. -/
theorem overflow_units : ∃ unit : ℚ, 1 ≤ unit ∧ overflow = (2 ^ 54 - 1) * unit ∧
    (2 ^ 53 - 1 : ℕ) * 2 ^ (971 : ℤ) = (2 ^ 54 - 2) * unit ∧
    (2 ^ 52 : ℕ) * 2 ^ (972 : ℤ) = (2 ^ 54 : ℚ) * unit := by
  have h971 : (2 : ℚ) ^ (971 : ℤ) = 2 * 2 ^ (970 : ℤ) := by
    rw [show (971 : ℤ) = 1 + 970 by decide, zpow_add₀ (by decide), zpow_one]
  have h972 : (2 : ℚ) ^ (972 : ℤ) = 4 * 2 ^ (970 : ℤ) := by
    rw [show (972 : ℤ) = 2 + 970 by decide, zpow_add₀ (by decide)]
    norm_num
  have hoverflow : overflow = 2 ^ 54 * 2 ^ (970 : ℤ) - 2 ^ (970 : ℤ) := by
    rw [show (2 : ℚ) ^ (970 : ℤ) = 2 ^ 970 from zpow_natCast 2 970, overflow, ← pow_add]
  have hunit : (1 : ℚ) ≤ 2 ^ (970 : ℤ) := one_le_zpow₀ (by decide) (by decide)
  rw [h971, h972, hoverflow]
  generalize (2 : ℚ) ^ (970 : ℤ) = unit at hunit
  refine ⟨unit, hunit, ?_, ?_, ?_⟩ <;> push_cast <;> ring

/-- Where the nearest number that fits is a double, the exact one is below the limit. -/
theorem RoundsTo.lt_overflow (h : RoundsTo sign q f)
    (hsize : magnitude f ≤ (2 ^ 53 - 1 : ℕ) * 2 ^ (971 : ℤ)) : q < overflow := by
  have hnear := @RoundsTo.near _ _ _ h (2 ^ 52) 972 (by decide) (by decide)
  have heven := @RoundsTo.even _ _ _ h (2 ^ 52) 972 (by decide) (by decide)
  obtain ⟨unit, hunit, hoverflow, hgreatest, hnext⟩ := overflow_units
  rw [hgreatest] at hsize
  rw [hnext] at hnear heven
  rw [hoverflow]
  by_contra hle
  rw [abs_of_pos (by linarith)] at hnear heven
  rcases le_or_gt (2 ^ 54 * unit) q with hfar | hclose
  · rw [abs_of_nonneg (by linarith)] at hnear
    linarith
  · rw [abs_of_neg (by linarith)] at hnear heven
    -- halfway between the greatest double and the next number, and the greatest double is odd
    obtain hsame | ⟨-, hodd⟩ := heven (by linarith)
    · linarith
    · exact absurd hodd (by decide)

/-- Where the nearest number is beyond all doubles, the exact one is not below the limit. -/
theorem RoundsTo.overflow_le (h : RoundsTo sign q f)
    (hsize : (2 ^ 52 : ℕ) * 2 ^ (972 : ℤ) ≤ magnitude f) : overflow ≤ q := by
  have hnear := @RoundsTo.near _ _ _ h (2 ^ 53 - 1) 971 (by decide) (by decide)
  obtain ⟨unit, hunit, hoverflow, hgreatest, hnext⟩ := overflow_units
  rw [hnext] at hsize
  rw [hgreatest] at hnear
  rw [hoverflow]
  by_contra hlt
  rw [abs_of_neg (by linarith)] at hnear
  rcases le_or_gt ((2 ^ 54 - 2) * unit) q with hfar | hclose
  · rw [abs_of_nonneg (by linarith)] at hnear
    linarith
  · rw [abs_of_neg (by linarith)] at hnear
    linarith

/-- A double that fits is not above the greatest one. -/
theorem magnitude_le {m : ℕ} {e : ℤ} {hpos : 0 < m} (hm : m < 2 ^ 53) (he : e ≤ 971) :
    magnitude (.finite sign m e hpos) ≤ (2 ^ 53 - 1 : ℕ) * 2 ^ (971 : ℤ) := by
  have hle : (m : ℚ) ≤ (2 ^ 53 - 1 : ℕ) := by exact_mod_cast Nat.le_sub_one_of_lt hm
  exact mul_le_mul hle (zpow_le_zpow_right₀ (by decide) he) (two_zpow_pos e).le (by positivity)

/-- What does not fit is not below the next power. -/
theorem le_magnitude {m : ℕ} {e : ℤ} {hpos : 0 < m} (hm : 2 ^ 52 ≤ m) (he : 972 ≤ e) :
    (2 ^ 52 : ℕ) * 2 ^ (972 : ℤ) ≤ magnitude (.finite sign m e hpos) := by
  have hle : ((2 ^ 52 : ℕ) : ℚ) ≤ m := by exact_mod_cast hm
  exact mul_le_mul hle (zpow_le_zpow_right₀ (by decide) he) (two_zpow_pos 972).le (by positivity)

/-- A double that is what was rounded is the nearest one. -/
theorem RoundsTo.nearest_of_unpack (h : RoundsTo sign q f) (hunpack : x.toModel.unpack = f)
    (hsign : HasSign sign f) (hlimit : q < overflow) : Nearest sign q x := by
  have hfinite : x.isFinite = true := by
    show x.toModel.unpack.isFinite = true
    rw [hunpack]
    obtain rfl | ⟨m, e, hpos, rfl, -⟩ := h.regular <;> rfl
  have hsize : size x = magnitude f := congrArg magnitude hunpack
  refine ⟨hunpack ▸ hsign, iff_of_true hfinite hlimit, fun _ y hy => ?_, fun _ y hy htie => ?_⟩
  · obtain ⟨m', e', hm', hlow, -, heq, -⟩ := exists_of_isFinite hy
    rw [hsize, heq]
    exact h.near hm' hlow
  · obtain ⟨m', e', hm', hlow, -, heq, hodd⟩ := exists_of_isFinite hy
    rw [hsize, heq] at htie ⊢
    rw [hunpack]
    exact (h.even hm' hlow htie).imp_right (And.imp_right hodd)

/-- **WHAT IS ROUNDED IS PACKED TO THE NEAREST DOUBLE.** -/
theorem RoundsTo.nearest (h : RoundsTo sign q f) :
    Nearest sign q (.ofModel (Float.Model.pack f)) := by
  obtain rfl | ⟨m, e, hpos, rfl, hregular⟩ := h.regular
  · have hunpack : (Float.Model.pack (.zero sign)).unpack = .zero sign := by cases sign <;> rfl
    refine h.nearest_of_unpack hunpack .zero (h.lt_overflow ?_)
    exact mul_nonneg (Nat.cast_nonneg _) (two_zpow_pos 971).le
  · by_cases hhigh : e ≤ 971
    · have hunpack := @unpack_pack_canonical sign _ _ hpos (hregular.canonical hhigh)
      exact h.nearest_of_unpack hunpack (.finite hpos) (h.lt_overflow (magnitude_le hregular.lt hhigh))
    · have hunpack := @unpack_pack_overflow sign _ _ hpos (Int.lt_of_not_ge hhigh)
      have hfull : 2 ^ 52 ≤ m := hregular.full.resolve_right (by omega)
      have hinfinite : (Float.ofModel (Float.Model.pack (.finite sign m e hpos))).isFinite = false :=
        congrArg UnpackedFloat.isFinite hunpack
      have hlimit := h.overflow_le (le_magnitude hfull (by omega))
      refine ⟨?_, ?_, ?_, ?_⟩
      · show HasSign sign (Float.Model.pack _).unpack
        rw [hunpack]
        exact .infinity
      · exact iff_of_false (hinfinite ▸ nofun) (not_lt_of_ge hlimit)
      · exact fun hfinite => nomatch hinfinite.symm.trans hfinite
      · exact fun hfinite => nomatch hinfinite.symm.trans hfinite

/-! ### There is one -/

/-- Two regular numbers of the same value are the same, if one has no greater exponent. -/
theorem Regular.eq_of_le {m m' : ℕ} {e e' : ℤ} (h : Regular m e) (h' : Regular m' e') (hle : e ≤ e')
    (hsame : (m : ℚ) * 2 ^ e = m' * 2 ^ e') : m = m' ∧ e = e' := by
  obtain ⟨places, rfl⟩ : ∃ places : ℕ, e' = e + places := ⟨(e' - e).toNat, by omega⟩
  have hm : m = m' * 2 ^ places := by
    have hcast : (m : ℚ) = (m' * 2 ^ places : ℕ) := by
      refine mul_right_cancel₀ (two_zpow_pos e).ne' (hsame.trans ?_)
      rw [zpow_add₀ (by decide), zpow_natCast]
      push_cast
      ring
    exact_mod_cast hcast
  cases places with
  | zero => exact ⟨by simpa using hm, by simp⟩
  | succ places =>
      -- with the greater exponent the mantissa is full, so that the other one would be too long
      have hfull : 2 ^ 52 ≤ m' := h'.full.resolve_right (by have := h.low; omega)
      have hlong : m' * 2 ≤ m := by
        rw [hm]
        exact Nat.mul_le_mul_left m' (Nat.le_self_pow (Nat.succ_ne_zero places) 2)
      have hlt := h.lt
      omega

theorem Regular.eq_of_magnitude {m m' : ℕ} {e e' : ℤ} (h : Regular m e) (h' : Regular m' e')
    (hsame : (m : ℚ) * 2 ^ e = m' * 2 ^ e') : m = m' ∧ e = e' := by
  rcases le_total e e' with hle | hle
  · exact h.eq_of_le h' hle hsame
  · exact (h'.eq_of_le h hle hsame.symm).imp Eq.symm Eq.symm

/-- A finite double is known by its sign and its size. -/
theorem eq_of_size (hx : HasSign sign x.toModel.unpack) (hy : HasSign sign y.toModel.unpack)
    (hfiniteX : x.isFinite = true) (hfiniteY : y.isFinite = true) (hsame : size x = size y) :
    x = y := by
  have hunpackedX : x.toModel.unpack.isFinite = true := hfiniteX
  have hunpackedY : y.toModel.unpack.isFinite = true := hfiniteY
  refine eq_of_unpack ?_ hx.isNaN
  unfold size at hsame
  generalize hf : x.toModel.unpack = f at *
  generalize hg : y.toModel.unpack = g at *
  cases hx with
  | infinity => exact nomatch hunpackedX
  | zero =>
      cases hy with
      | infinity => exact nomatch hunpackedY
      | zero => rfl
      | finite hpos =>
          exact absurd hsame (mul_pos (by exact_mod_cast hpos) (two_zpow_pos _)).ne
  | finite hpos =>
      cases hy with
      | infinity => exact nomatch hunpackedY
      | zero =>
          exact absurd hsame (mul_pos (by exact_mod_cast hpos) (two_zpow_pos _)).ne'
      | finite hpos' =>
          obtain ⟨hm, he⟩ := ((canonical_unpack hf).regular hpos).eq_of_magnitude
            ((canonical_unpack hg).regular hpos') hsame
          exact finite_congr rfl hm he

/-- **ONE DOUBLE IS NEAREST.** -/
theorem Nearest.unique (hx : Nearest sign q x) (hy : Nearest sign q y) : x = y := by
  by_cases hlimit : q < overflow
  · have hfiniteX := hx.isFinite_iff.mpr hlimit
    have hfiniteY := hy.isFinite_iff.mpr hlimit
    have htie : |q - size x| = |q - size y| :=
      le_antisymm (hx.near hfiniteX y hfiniteY) (hy.near hfiniteY x hfiniteX)
    refine eq_of_size hx.sign hy.sign hfiniteX hfiniteY ?_
    obtain hsame | ⟨-, hodd⟩ := hx.even hfiniteX y hfiniteY htie
    · exact hsame.symm
    · obtain hsame | ⟨heven, -⟩ := hy.even hfiniteY x hfiniteX htie.symm
      · exact hsame
      · exact absurd heven hodd
  · have hinfinite : ∀ {z : Float}, Nearest sign q z → z.toModel.unpack = .infinity sign := by
      intro z hz
      have hunpacked : ¬ z.toModel.unpack.isFinite = true := fun h => hlimit (hz.isFinite_iff.mp h)
      have hsign := hz.sign
      revert hunpacked hsign
      generalize z.toModel.unpack = f
      intro hunpacked hsign
      cases hsign with
      | infinity => rfl
      | zero | finite => exact absurd rfl hunpacked
    exact eq_of_unpack ((hinfinite hx).trans (hinfinite hy).symm) hx.sign.isNaN

/-! ### Other signs, and the ends -/

/-- The opposite of a number is unpacked to its opposite. -/
theorem unpack_neg (hx : x.isNaN = false) : (-x).toModel.unpack = x.toModel.unpack.neg := by
  show (Float.Model.pack x.toModel.unpack.neg).unpack = _
  have hnumber : x.toModel.unpack.isNaN = false := hx
  cases hf : x.toModel.unpack with
  | notANumber => rw [hf] at hnumber; exact nomatch hnumber
  | infinity sign => cases sign <;> rfl
  | zero sign => cases sign <;> rfl
  | finite sign m e hpos => exact unpack_pack_canonical hpos (canonical_unpack hf)

theorem HasSign.neg (h : HasSign .positive f) : HasSign .negative f.neg := by
  cases h with
  | infinity => exact .infinity
  | zero => exact .zero
  | finite hpos => exact .finite hpos

/-- The nearest double of the other sign is the negative one. -/
theorem Nearest.neg (h : Nearest .positive q x) : Nearest .negative q (-x) := by
  have hunpack := unpack_neg h.sign.isNaN
  have hfinite : (-x).isFinite = x.isFinite := by
    show (-x).toModel.unpack.isFinite = x.toModel.unpack.isFinite
    rw [hunpack]
    cases x.toModel.unpack <;> rfl
  have hsize : size (-x) = size x := by
    unfold size
    rw [hunpack]
    cases x.toModel.unpack <;> rfl
  have heven : IsEven (-x).toModel.unpack ↔ IsEven x.toModel.unpack := by
    rw [hunpack]
    cases x.toModel.unpack <;> exact Iff.rfl
  refine ⟨hunpack ▸ h.sign.neg, hfinite ▸ h.isFinite_iff, ?_, ?_⟩
  · rw [hfinite, hsize]
    exact h.near
  · rw [hfinite, hsize, heven]
    exact h.even

/-- Beyond the limit the nearest double is infinite. -/
theorem nearest_infinity (hx : x.toModel.unpack = .infinity sign) (hq : overflow ≤ q) :
    Nearest sign q x := by
  have hinfinite : x.isFinite = false := congrArg UnpackedFloat.isFinite hx
  refine ⟨hx ▸ .infinity, iff_of_false (hinfinite ▸ nofun) (not_lt_of_ge hq), ?_, ?_⟩
  · exact fun hfinite => nomatch hinfinite.symm.trans hfinite
  · exact fun hfinite => nomatch hinfinite.symm.trans hfinite

/-- Below half the smallest number the nearest double is zero. -/
theorem nearest_zero (hx : x.toModel.unpack = .zero sign) (hnonneg : 0 ≤ q)
    (hq : q < 2 ^ (-1075 : ℤ)) : Nearest sign q x := by
  have hfinite : x.isFinite = true := congrArg UnpackedFloat.isFinite hx
  have hsize : size x = 0 := congrArg magnitude hx
  have hdouble : (2 : ℚ) ^ (-1074 : ℤ) = 2 * 2 ^ (-1075 : ℤ) := by
    rw [show (-1074 : ℤ) = 1 + -1075 by decide, zpow_add₀ (by decide), zpow_one]
  have hfar : ∀ y : Float, y.isFinite = true → size y = 0 ∨ q < |q - size y| := by
    intro y hy
    obtain ⟨m, e, -, hlow, -, heq, -⟩ := exists_of_isFinite hy
    rw [heq]
    rcases Nat.eq_zero_or_pos m with rfl | hpos
    · exact .inl (by rw [Nat.cast_zero, zero_mul])
    · have hleast : (2 : ℚ) ^ (-1074 : ℤ) ≤ m * 2 ^ e := by
        calc (2 : ℚ) ^ (-1074 : ℤ) ≤ 2 ^ e := zpow_le_zpow_right₀ (by decide) hlow
          _ ≤ m * 2 ^ e := le_mul_of_one_le_left (two_zpow_pos e).le (by exact_mod_cast hpos)
      refine .inr (lt_of_lt_of_le ?_ (neg_le_abs _))
      linarith
  have hlimit : q < overflow := by
    obtain ⟨unit, hunit, hoverflow, -, -⟩ := overflow_units
    have hone : (2 : ℚ) ^ (-1075 : ℤ) ≤ 1 := zpow_le_one_of_nonpos₀ (by decide) (by decide)
    rw [hoverflow]
    linarith
  refine ⟨hx ▸ .zero, iff_of_true hfinite hlimit, fun _ y hy => ?_, fun _ y hy htie => ?_⟩
  · rw [hsize, sub_zero, abs_of_nonneg hnonneg]
    obtain hnone | hless := hfar y hy
    · rw [hnone, sub_zero, abs_of_nonneg hnonneg]
    · exact hless.le
  · rw [hsize, sub_zero, abs_of_nonneg hnonneg] at htie
    rw [hsize]
    exact .inl ((hfar y hy).resolve_right htie.not_lt)

end Nearest

end FisheyeDock.Double
