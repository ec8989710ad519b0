import FisheyeDock.Proofs.Scalar.Magnitude
import FisheyeDock.Proofs.Scalar.Whole

/-! # What does not overflow

    A double overflows where its exponent becomes too large.  Doubling raises the exponent by one, and
    halving has lowered it by one before, if it was not one of the smallest; so cutting a size down to
    an even number keeps it finite (`isFinite_evenFloor`), and so does any factor up to one that is a
    power of two. -/

namespace FisheyeDock.Double

open Float.Model UnpackedFloat

/-! ## Exponents -/

section Unpacked

variable {f : UnpackedFloat} {sign : Sign} {m : Nat} {e top : Int} {accuracy : Accuracy}

/-- Zero, or a finite number with an exponent up to `top`. -/
inductive ExponentUpTo (top : Int) : UnpackedFloat → Prop where
  | zero {sign : Sign} : ExponentUpTo top (.zero sign)
  | finite {sign : Sign} {m : Nat} {e : Int} {hpos : 0 < m} (le : e ≤ top) :
      ExponentUpTo top (.finite sign m e hpos)

theorem ExponentUpTo.mono {top' : Int} (h : ExponentUpTo top f) (hle : top ≤ top') :
    ExponentUpTo top' f := by
  cases h with
  | zero => exact .zero
  | finite le => exact .finite (le.trans hle)

theorem ExponentUpTo.isFinite (h : ExponentUpTo top f) : f.isFinite = true := by
  cases h <;> rfl

/-- The exponent that a number is rounded to, which keeps fifty-three places unless that is too
    low. -/
theorem targetExponent_binary64 (m : Nat) (e : Int) :
    Format.binary64.targetExponent (totalExponent m e) = max (m.log2 + e - 52) (-1074) := by
  rw [Format.targetExponent, minExponent_binary64, totalExponent]
  show max (m.log2 + 1 + e - (1 + 52 : Nat)) _ = _
  omega

/-- The places that a mantissa is shifted by so that it fits. -/
theorem shiftToTargetExponent_binary64 (m : Nat) (e : Int) (accuracy : Accuracy) :
    ∃ places : Nat, (max (m.log2 + e - 52) (-1074) - e).toNat = places ∧
      (shiftToTargetExponent Format.binary64 m e accuracy).1.mantissa = m / 2 ^ places ∧
      (shiftToTargetExponent Format.binary64 m e accuracy).2 = e + places := by
  refine ⟨_, rfl, ?_, ?_⟩
  · rw [shiftToTargetExponent, targetExponent_binary64, shiftToExponent]
    dsimp only
    rw [Single.mantissa_shiftRight, Single.mantissa_ofMantissaAndAccuracy]
  · rw [shiftToTargetExponent, targetExponent_binary64, shiftToExponent]

/-- Rounding up raises the exponent by one at most. -/
theorem exponentUpTo_roundWithAccuracy (he : e ≤ top) (hm : m.log2 + e - 51 ≤ top)
    (htop : -1074 ≤ top) :
    ExponentUpTo top (roundWithAccuracy Format.binary64 sign m e accuracy) := by
  obtain ⟨places, hplaces, hmantissa, hexponent⟩ := shiftToTargetExponent_binary64 m e accuracy
  rw [roundWithAccuracy]
  generalize shiftToTargetExponent Format.binary64 m e accuracy = first at hmantissa hexponent ⊢
  obtain ⟨em, _⟩ := first
  dsimp only at hmantissa hexponent ⊢
  subst hexponent
  -- what is shifted out is not lost to the exponent, and rounding up adds a digit at most
  have hrounded : (em.roundedMantissa.log2 : Int) + places ≤ m.log2 + 1 ∨
      em.roundedMantissa.log2 = 0 := by
    have hle := Single.roundedMantissa_le em
    by_cases hzero : em.mantissa = 0
    · obtain hnone | hone : em.roundedMantissa = 0 ∨ em.roundedMantissa = 1 := by omega
      · exact .inr (by rw [hnone]; rfl)
      · exact .inr (by rw [hone]; rfl)
    · have hlog := Single.log2_div_pow (hmantissa ▸ hzero)
      rw [← hmantissa] at hlog
      have hself : em.mantissa < 2 ^ (em.mantissa.log2 + 1) := Nat.lt_log2_self
      have hlt : em.roundedMantissa.log2 < em.mantissa.log2 + 2 := by
        by_cases hnone : em.roundedMantissa = 0
        · rw [hnone, Nat.log2_zero]
          omega
        · refine (Nat.log2_lt hnone).mpr (Nat.lt_of_le_of_lt hle ?_)
          rw [Nat.pow_succ']
          omega
      omega
  have hfinal : (shiftToTargetExponent Format.binary64 em.roundedMantissa (e + places)
      .exact).2 ≤ top := by
    rw [shiftToTargetExponent, targetExponent_binary64, shiftToExponent]
    dsimp only
    omega
  split
  · exact .zero
  · exact .finite hfinal

/-- Rounding adds one place at most. -/
theorem exponentUpTo_round (hm : m.log2 + e - 51 ≤ top) (htop : -1074 ≤ top) :
    ExponentUpTo top (UnpackedFloat.round Format.binary64 sign m e) := by
  rw [UnpackedFloat.round, targetExponent_binary64]
  dsimp only [decreaseExponent]
  rw [Nat.shiftLeft_eq]
  refine exponentUpTo_roundWithAccuracy (by omega) ?_ htop
  rcases Nat.eq_zero_or_pos m with rfl | hpos
  · rw [Nat.zero_mul]
    omega
  · rw [log2_mul_pow hpos]
    omega

theorem exponentUpTo_normalize {n : Int} (hn : n.natAbs.log2 + e - 51 ≤ top) (htop : -1074 ≤ top) :
    ExponentUpTo top (UnpackedFloat.normalize Format.binary64 n e sign) := by
  unfold UnpackedFloat.normalize
  rcases Int.lt_trichotomy n 0 with hneg | rfl | hpos
  · rw [Int.compare_eq_lt.mpr hneg]
    refine exponentUpTo_round ?_ htop
    rw [show (-n).toNat = n.natAbs by omega]
    exact hn
  · exact .zero
  · rw [Int.compare_eq_gt.mpr hpos]
    refine exponentUpTo_round ?_ htop
    rw [show n.toNat = n.natAbs by omega]
    exact hn

/-- What is packed with an exponent has at most that exponent. -/
theorem exponentUpTo_unpack_packComponents {exponent : BitVec Format.binary64.exponentBits}
    {mantissa : BitVec Format.binary64.mantissaBitsWithoutImplicit} (h : exponent ≠ -1#_)
    (hle : (exponent.toNat : Int) - 1075 ≤ top) (htop : -1074 ≤ top) :
    ExponentUpTo top (UnpackedFloat.unpack Format.binary64
      (packComponents Format.binary64 sign exponent mantissa)) := by
  have hbias : (Format.binary64.exponentBias : Int) +
    Format.binary64.mantissaBitsWithoutImplicit = 1075 := rfl
  rw [UnpackedFloat.unpack]
  simp only [unpackExponent_packComponents, unpackMantissa_packComponents, if_neg h]
  split
  · next hzero =>
      split
      · exact .zero
      · refine .finite ?_
        rw [hbias, hzero, BitVec.toNat_zero]
        omega
  · refine .finite ?_
    rw [hbias]
    exact hle

/-- Packing loses no number whose exponent is not too large. -/
theorem ExponentUpTo.packed (h : ExponentUpTo top f) (hlow : -1074 ≤ top) (hhigh : top ≤ 971) :
    ExponentUpTo top (UnpackedFloat.unpack Format.binary64
      (UnpackedFloat.pack Format.binary64 f)) := by
  cases h with
  | @zero sign => cases sign <;> exact .zero
  | @finite sign m e hpos le =>
      have hbias : (Format.binary64.exponentBias : Int) = 1023 := rfl
      have hbits : (Format.binary64.mantissaBitsWithoutImplicit : Int) = 52 := rfl
      have hfits : ¬ 2 ^ Format.binary64.exponentBits ≤ (e + Format.binary64.exponentBias +
          Format.binary64.mantissaBitsWithoutImplicit).toNat + 1 := by
        rw [hbias, hbits]
        show ¬ 2 ^ 11 ≤ _
        omega
      rw [UnpackedFloat.pack, if_neg hfits]
      split
      · have hnat : (BitVec.ofNat Format.binary64.exponentBits (e + Format.binary64.exponentBias +
            Format.binary64.mantissaBitsWithoutImplicit).toNat).toNat = (e + 1075).toNat := by
          rw [BitVec.toNat_ofNat, hbias, hbits, Int.add_assoc]
          exact Nat.mod_eq_of_lt (by show _ < 2 ^ 11; omega)
        refine exponentUpTo_unpack_packComponents (fun hones => ?_) ?_ hlow
        · have hall := congrArg BitVec.toNat hones
          rw [hnat] at hall
          change (e + 1075).toNat = 2047 at hall
          omega
        · rw [hnat]
          omega
      · exact exponentUpTo_unpack_packComponents (by decide) (by rw [BitVec.toNat_zero]; omega) hlow

/-! ## Powers of two -/

/-- A mantissa is full, or the exponent is the smallest one. -/
structure Canonical (m : Nat) (e : Int) : Prop where
  log2_le : m.log2 ≤ 52
  full : m.log2 = 52 ∨ e = -1074
  low : -1074 ≤ e
  high : e ≤ 971

/-- What is unpacked is canonical. -/
theorem canonical_unpack {b : BitVec Format.binary64.numBits} {hpos : 0 < m}
    (h : UnpackedFloat.unpack Format.binary64 b = .finite sign m e hpos) : Canonical m e := by
  have hbias : (Format.binary64.exponentBias : Int) = 1023 := rfl
  have hbits : (Format.binary64.mantissaBitsWithoutImplicit : Int) = 52 := rfl
  obtain ⟨hfull, hlow, hhigh⟩ | ⟨hshort, hsmallest⟩ := canonical_of_unpack h
  · rw [hbias, hbits] at hlow hhigh
    change m.log2 = 52 at hfull
    change e + 1023 + 52 + 1 < ((2 ^ 11 : Nat) : Int) at hhigh
    exact ⟨hfull.le, .inl hfull, by omega, by omega⟩
  · rw [hbias, hbits] at hsmallest
    change m.log2 < 52 at hshort
    exact ⟨hshort.le, .inr (by omega), by omega, by omega⟩

/-- To multiply by a power of two is to move the exponent, unless the number is one of the
    smallest. -/
theorem Canonical.mul_power (h : Canonical m e) (hpos : 0 < m) {k : Int} (hle : e + k + 52 ≤ top)
    (htop : -1073 ≤ top) :
    ExponentUpTo top (roundWithAccuracy Format.binary64 sign (m * 2 ^ 52) (e + k) .exact) := by
  obtain ⟨hlog, hfull, hlow, -⟩ := h
  by_cases hexact : m.log2 = 52 ∧ -1074 ≤ e + k + 52
  · have hround := @roundWithAccuracy_mul_pow Format.binary64 m (e + k + 52) sign hpos hexact.1
      (by rw [minExponent_binary64]; exact hexact.2) 52
    rw [show e + k + 52 - (52 : Nat) = e + k by omega] at hround
    rw [hround]
    exact .finite hle
  · refine exponentUpTo_roundWithAccuracy (by omega) ?_ (by omega)
    rw [log2_mul_pow hpos]
    omega

/-- To halve a number is to lower its exponent by one, unless it is one of the smallest. -/
theorem Canonical.div_two (h : Canonical m e) (hpos : 0 < m) {sign' : Sign} (hle : e - 1 ≤ top)
    (htop : -1073 ≤ top) : ExponentUpTo top (UnpackedFloat.div Format.binary64
      (.finite sign m e hpos) (.finite sign' (2 ^ 52) (-51) (by decide))) := by
  obtain ⟨hlog, hfull, hlow, -⟩ := h
  have htarget : Format.binary64.targetExponent (totalExponent m e - totalExponent (2 ^ 52) (-51)) =
      max (m.log2 + e - 54) (-1074) := by
    have htwo : totalExponent (2 ^ 52) (-51) = 2 := by decide
    rw [htwo, Format.targetExponent, minExponent_binary64, totalExponent]
    show max (m.log2 + 1 + e - 2 - (1 + 52 : Nat)) _ = _
    omega
  rw [UnpackedFloat.div, divCore, htarget]
  dsimp only
  rw [Nat.shiftLeft_eq]
  by_cases hexact : m.log2 = 52 ∧ -1072 ≤ e
  · have hshift : (e - -51 - min (e - -51) (max (m.log2 + e - 54) (-1074))).toNat = 53 := by omega
    have hexponent : min (e - -51) (max (m.log2 + e - 54) (-1074)) = e - 1 - (1 : Nat) := by omega
    have hsplit : m * 2 ^ 53 = m * 2 ^ 1 * 2 ^ 52 := by
      rw [Nat.mul_assoc, ← Nat.pow_add]
    rw [hshift, hexponent, hsplit, Nat.mul_div_cancel _ (Nat.two_pow_pos 52), Nat.mul_mod_left,
      accuracyOfFraction, if_pos rfl,
      @roundWithAccuracy_mul_pow Format.binary64 m (e - 1) _ hpos hexact.1
        (by rw [minExponent_binary64]; omega) 1]
    exact .finite hle
  · have hsmall : min (e - -51) (max (m.log2 + e - 54) (-1074)) = -1074 := by omega
    rw [hsmall]
    refine exponentUpTo_roundWithAccuracy (by omega) ?_ (by omega)
    have hquotient : (m * 2 ^ (e - -51 - -1074).toNat / 2 ^ 52).log2 ≤ 52 := by
      refine log2_le_of_lt ((Nat.div_lt_iff_lt_mul (Nat.two_pow_pos 52)).mpr ?_)
      have hself : m < 2 ^ (m.log2 + 1) := Nat.lt_log2_self
      calc m * 2 ^ (e - -51 - -1074).toNat
          ≤ m * 2 ^ 52 := Nat.mul_le_mul_left m (Nat.pow_le_pow_right (by decide) (by omega))
        _ < 2 ^ 53 * 2 ^ 52 := Nat.mul_lt_mul_of_pos_right
            (hself.trans_le (Nat.pow_le_pow_right (by decide) (by omega))) (Nat.two_pow_pos 52)
    omega

end Unpacked

/-! ## On doubles -/

section Doubles

variable {x y : Float} {top : Int}

/-- A double with an exponent up to `top`, or zero. -/
def Bounded (top : Int) (x : Float) : Prop := ExponentUpTo top x.toModel.unpack

theorem Bounded.mono {top' : Int} (h : Bounded top x) (hle : top ≤ top') : Bounded top' x :=
  ExponentUpTo.mono h hle

theorem Bounded.isFinite (h : Bounded top x) : x.isFinite = true := ExponentUpTo.isFinite h

/-- Every finite double is bounded by the greatest of them. -/
theorem bounded_of_isFinite (h : x.isFinite = true) : Bounded 971 x := by
  have hfinite : x.toModel.unpack.isFinite = true := h
  unfold Bounded
  cases hx : x.toModel.unpack with
  | infinity | notANumber => rw [hx] at hfinite; exact nomatch hfinite
  | zero => exact .zero
  | finite => exact .finite (canonical_unpack hx).high

/-- The product of doubles does not depend on the order, since all that is undefined is one
    value. -/
protected theorem mul_comm (x y : Float) : x * y = y * x := by
  have hsign : ∀ a b : Sign, a * b = b * a := by
    intro a b
    cases a <;> cases b <;> rfl
  have hmul : ∀ f g : UnpackedFloat,
      UnpackedFloat.mul Format.binary64 f g = UnpackedFloat.mul Format.binary64 g f := by
    intro f g
    cases f <;> cases g <;> simp [UnpackedFloat.mul, hsign, Nat.mul_comm, Int.add_comm]
  exact congrArg (fun f => Float.ofModel (Float.Model.pack f)) (hmul _ _)

/-- A double times a power of two. -/
theorem Bounded.mul_power (h : Bounded top x) {sign : Sign} {k : Int}
    (hy : y.toModel.unpack = .finite sign (2 ^ 52) k (by decide)) (hlow : -1073 ≤ top + k + 52)
    (hhigh : top + k + 52 ≤ 971) : Bounded (top + k + 52) (x * y) := by
  refine ExponentUpTo.packed ?_ (by omega) hhigh
  unfold Bounded at h
  rw [hy]
  cases hx : x.toModel.unpack with
  | infinity | notANumber => rw [hx] at h; exact nomatch h
  | zero => exact .zero
  | finite sign' m e hpos =>
      rw [hx] at h
      cases h with
      | finite le => exact (canonical_unpack hx).mul_power hpos (by omega) hlow

/-- Half a finite double is well within bounds. -/
theorem bounded_halved (h : x.isFinite = true) : Bounded 970 (x / 2.0) := by
  have hbounded := bounded_of_isFinite h
  refine ExponentUpTo.packed ?_ (by decide) (by decide)
  unfold Bounded at hbounded
  rw [unpack_two]
  cases hx : x.toModel.unpack with
  | infinity | notANumber => rw [hx] at hbounded; exact nomatch hbounded
  | zero => exact .zero
  | finite sign m e hpos =>
      rw [hx] at hbounded
      cases hbounded with
      | finite le => exact (canonical_unpack hx).div_two hpos (by omega) (by decide)

/-! ## Whole doubles -/

/-- A machine word is a double of few places. -/
theorem bounded_toFloat (n : UInt64) : Bounded 12 n.toFloat := by
  refine ExponentUpTo.packed (exponentUpTo_normalize ?_ (by decide)) (by decide) (by decide)
  have hlog : n.toNat.log2 < 64 := by
    by_cases hzero : n.toNat = 0
    · rw [hzero]
      decide
    · exact (Nat.log2_lt hzero).mpr n.toNat_lt
  rw [Int.natAbs_natCast]
  omega

theorem Bounded.neg (h : Bounded top x) (hlow : -1074 ≤ top) (hhigh : top ≤ 971) :
    Bounded top (-x) := by
  refine ExponentUpTo.packed ?_ hlow hhigh
  unfold Bounded at h
  revert h
  generalize x.toModel.unpack = f
  intro h
  cases h with
  | zero => exact .zero
  | finite le => exact .finite le

theorem Bounded.add_one (h : Bounded 12 x) : Bounded 14 (x + 1.0) := by
  refine ExponentUpTo.packed ?_ (by decide) (by decide)
  unfold Bounded at h
  have hone : (1.0 : Float).toModel.unpack = .finite .positive (2 ^ 52) (-52) (by decide) := rfl
  rw [hone]
  cases hx : x.toModel.unpack with
  | infinity | notANumber => rw [hx] at h; exact nomatch h
  | zero => exact .finite (by decide)
  | finite sign m e hpos =>
      rw [hx] at h
      cases h with
      | finite le =>
          have hlog := (canonical_unpack hx).log2_le
          have hsum := @Single.totalExponent_sum 65 m (2 ^ 52) e (-52) _ hpos (by decide)
            (by unfold totalExponent; omega) (by decide)
            ((Int.natAbs_add_le (sign.apply (m <<< (e - min e (-52)).toNat : Nat))
              (Sign.positive.apply ((2 ^ 52) <<< (-52 - min e (-52)).toNat : Nat))).trans
                (by rw [Single.natAbs_apply, Single.natAbs_apply]))
          refine exponentUpTo_normalize ?_ (by decide)
          unfold totalExponent at hsum
          omega

/-- The floor of a double is bounded as it is, since it is a whole number. -/
theorem bounded_floor (h : Bounded top x) (hlow : 14 ≤ top) (hhigh : top ≤ 971) :
    Bounded top (floor x) := by
  have hwhole : Bounded 12 x.abs.toUInt64.toFloat := bounded_toFloat _
  unfold floor
  split
  · dsimp only
    split
    · exact hwhole.mono (by omega)
    · split
      · refine Bounded.neg ?_ (by omega) hhigh
        split
        · exact hwhole.add_one.mono hlow
        · exact hwhole.mono (by omega)
      · exact h
  · exact h

/-- **AN EVEN SIZE IS FINITE** if what it is cut down from is. -/
theorem isFinite_evenFloor (h : x.isFinite = true) : (evenFloor x).isFinite = true := by
  have hfloor := bounded_floor (bounded_halved h) (by decide) (by decide)
  exact (hfloor.mul_power unpack_two (by decide) (by decide)).isFinite

end Doubles

end FisheyeDock.Double
