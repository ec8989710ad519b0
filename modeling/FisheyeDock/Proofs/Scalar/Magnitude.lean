import FisheyeDock.Proofs.Scalar.Whole
import FisheyeDock.Single

/-! # How large single precision numbers are

    A number that is finite has a place for its first digit, and is below the power of two next to it.
    The four operations move that place by what it is in exact arithmetic, and by one place more where
    they round up (`Within.add`, `Within.sub`, `Within.mul`, `Within.div`).  So reckoning with numbers
    that are not too large never overflows, and what does not overflow is never undefined. -/

namespace FisheyeDock.Single

open Float.Model UnpackedFloat

/-! ## Rounding -/

section Rounding

/-- To shift an extended mantissa is to divide it. -/
theorem mantissa_shiftRight (em : ExtendedMantissa) (places : Nat) :
    (em >>> places).mantissa = em.mantissa / 2 ^ places := by
  induction places with
  | zero =>
      rw [Nat.pow_zero, Nat.div_one]
      rfl
  | succ places ih =>
      show (em >>> places).mantissa / 2 = _
      rw [ih, Nat.div_div_eq_div_mul, Nat.pow_succ]

theorem mantissa_ofMantissaAndAccuracy (m : Nat) (accuracy : Accuracy) :
    (ExtendedMantissa.ofMantissaAndAccuracy m accuracy).mantissa = m := by
  cases accuracy with
  | exact => rfl
  | inexact half => cases half <;> rfl

/-- Rounding does not go below the mantissa. -/
theorem le_roundedMantissa (em : ExtendedMantissa) : em.mantissa ≤ em.roundedMantissa := by
  unfold ExtendedMantissa.roundedMantissa
  cases em.accuracy with
  | exact => exact Nat.le_refl _
  | inexact half => cases half <;> simp [Accuracy.roundToNearestEven]

theorem roundedMantissa_le (em : ExtendedMantissa) : em.roundedMantissa ≤ em.mantissa + 1 := by
  unfold ExtendedMantissa.roundedMantissa
  cases em.accuracy with
  | exact => exact Nat.le_succ _
  | inexact half =>
      cases half <;> simp only [Accuracy.roundToNearestEven] <;> omega

/-- A shift to the right takes its places off. -/
theorem log2_div_pow {m places : Nat} (h : m / 2 ^ places ≠ 0) :
    (m / 2 ^ places).log2 + places = m.log2 := by
  have hm : m ≠ 0 := by
    rintro rfl
    exact h (Nat.zero_div _)
  obtain ⟨hlow, hhigh⟩ := (Nat.log2_eq_iff h).mp rfl
  refine ((Nat.log2_eq_iff hm).mpr ⟨?_, ?_⟩).symm
  · rw [Nat.pow_add]
    exact (Nat.le_div_iff_mul_le (Nat.two_pow_pos _)).mp hlow
  · rw [Nat.add_right_comm, Nat.pow_add]
    exact (Nat.div_lt_iff_lt_mul (Nat.two_pow_pos _)).mp hhigh

/-- By how many places a mantissa is shifted so that it fits. -/
def excess (m : Nat) (e : Int) : Nat := (max (totalExponent m e - 24) (-149) - e).toNat

variable {sign : Sign} {m : Nat} {e place : Int} {accuracy : Accuracy}

/-- What is left of a mantissa at its target exponent. -/
theorem mantissa_shiftToTargetExponent :
    (shiftToTargetExponent Format.binary32 m e accuracy).1.mantissa = m / 2 ^ excess m e :=
  (mantissa_shiftRight _ _).trans (by rw [mantissa_ofMantissaAndAccuracy]; rfl)

theorem exponent_shiftToTargetExponent :
    (shiftToTargetExponent Format.binary32 m e accuracy).2 = e + excess m e := rfl

/-- The first digit of a finite number stands at a place up to `place`, if it is not zero. -/
inductive UpTo (place : Int) : UnpackedFloat → Prop
  | zero {sign : Sign} : UpTo place (.zero sign)
  | finite {sign : Sign} {m : Nat} {e : Int} {hpos : 0 < m} (le : totalExponent m e ≤ place) :
      UpTo place (.finite sign m e hpos)

/-- A mantissa has as many digits as a number holds, or its exponent is the smallest one. -/
def Fits (m : Nat) (e : Int) : Prop := e = max (totalExponent m e - 24) (-149)

/-- The first digit of a finite number stands at a place from `place` on. -/
inductive From (place : Int) : UnpackedFloat → Prop
  | finite {sign : Sign} {m : Nat} {e : Int} {hpos : 0 < m} (fits : Fits m e)
      (le : place ≤ totalExponent m e) : From place (.finite sign m e hpos)

/-- What is shifted keeps the place of its first digit, and where it is rounded up it gains one. -/
theorem totalExponent_rounded {em : ExtendedMantissa} (hem : em.mantissa = m / 2 ^ excess m e)
    (h : totalExponent m e + 1 ≤ place) (hplace : -148 ≤ place) (hne : em.roundedMantissa ≠ 0) :
    totalExponent em.roundedMantissa (e + excess m e) ≤ place := by
  have hle := roundedMantissa_le em
  by_cases hzero : em.mantissa = 0
  · have hlog : em.roundedMantissa.log2 < 1 := (Nat.log2_lt hne).mpr (by omega)
    unfold excess
    unfold totalExponent at h ⊢
    omega
  · have hlog := log2_div_pow (hem ▸ hzero)
    rw [← hem] at hlog
    have hdouble : em.roundedMantissa.log2 < em.mantissa.log2 + 2 := by
      refine (Nat.log2_lt hne).mpr (Nat.lt_of_le_of_lt hle ?_)
      have hself : em.mantissa < 2 ^ (em.mantissa.log2 + 1) := Nat.lt_log2_self
      rw [Nat.pow_succ']
      omega
    unfold totalExponent at h ⊢
    omega

/-- Rounding moves the first digit by one place at most. -/
theorem upTo_roundWithAccuracy (h : totalExponent m e + 1 ≤ place) (hplace : -148 ≤ place) :
    UpTo place (roundWithAccuracy Format.binary32 sign m e accuracy) := by
  unfold roundWithAccuracy
  have hmantissa : (shiftToTargetExponent Format.binary32 m e accuracy).1.mantissa = _ :=
    mantissa_shiftToTargetExponent
  have hexponent : (shiftToTargetExponent Format.binary32 m e accuracy).2 = _ :=
    exponent_shiftToTargetExponent
  generalize shiftToTargetExponent Format.binary32 m e accuracy = first at hmantissa hexponent ⊢
  obtain ⟨em, _⟩ := first
  obtain rfl := hexponent
  dsimp only at hmantissa ⊢
  split
  · exact .zero
  · next hne =>
      rw [mantissa_shiftToTargetExponent] at hne
      have hrounded : em.roundedMantissa ≠ 0 := fun hzero => hne (by rw [hzero, Nat.zero_div])
      have hplace := totalExponent_rounded hmantissa h hplace hrounded
      have hlog := log2_div_pow hne
      refine .finite ?_
      rw [mantissa_shiftToTargetExponent, exponent_shiftToTargetExponent]
      unfold totalExponent at hplace ⊢
      omega

/-- A mantissa that is not too coarse keeps the place of its first digit when it is shifted. -/
theorem totalExponent_shifted (hm : m ≠ 0) (hfine : e ≤ max (totalExponent m e - 24) (-149))
    (hplace : -148 ≤ totalExponent m e) :
    e + excess m e = max (totalExponent m e - 24) (-149) ∧ m / 2 ^ excess m e ≠ 0 ∧
      totalExponent (m / 2 ^ excess m e) (e + excess m e) = totalExponent m e := by
  have hexcess : e + excess m e = max (totalExponent m e - 24) (-149) := by
    unfold excess
    omega
  have hne : m / 2 ^ excess m e ≠ 0 := by
    refine (Nat.div_pos ((Nat.le_log2 hm).mp ?_) (Nat.two_pow_pos _)).ne'
    unfold totalExponent at hexcess hplace
    omega
  have hlog := log2_div_pow hne
  refine ⟨hexcess, hne, ?_⟩
  unfold totalExponent
  omega

/-- A number that is not too coarse and not below the smallest one is not rounded to zero: its first
    digit stays, or moves up by one place. -/
theorem exists_roundWithAccuracy (sign : Sign) (accuracy : Accuracy) (hm : m ≠ 0)
    (hfine : e ≤ max (totalExponent m e - 24) (-149)) (hplace : -148 ≤ totalExponent m e) :
    ∃ m' e' hpos, roundWithAccuracy Format.binary32 sign m e accuracy = .finite sign m' e' hpos ∧
      Fits m' e' ∧ totalExponent m e ≤ totalExponent m' e' ∧
      totalExponent m' e' ≤ totalExponent m e + 1 := by
  obtain ⟨hshifted, hne, hsame⟩ := totalExponent_shifted hm hfine hplace
  have hmantissa : (shiftToTargetExponent Format.binary32 m e accuracy).1.mantissa = _ :=
    mantissa_shiftToTargetExponent
  have hexponent : (shiftToTargetExponent Format.binary32 m e accuracy).2 = _ :=
    exponent_shiftToTargetExponent
  rw [roundWithAccuracy]
  generalize shiftToTargetExponent Format.binary32 m e accuracy = first at hmantissa hexponent ⊢
  obtain ⟨em, e₁⟩ := first
  dsimp only at hmantissa hexponent ⊢
  rw [← hmantissa] at hne
  rw [← hexponent, ← hmantissa] at hsame
  rw [hshifted] at hexponent
  -- rounding up may give the mantissa one digit more
  have hlow := le_roundedMantissa em
  have hhigh := roundedMantissa_le em
  have hrounded : em.roundedMantissa ≠ 0 := by omega
  have hself : em.mantissa < 2 ^ (em.mantissa.log2 + 1) := Nat.lt_log2_self
  have hleast : em.mantissa.log2 ≤ em.roundedMantissa.log2 :=
    (Nat.le_log2 hrounded).mpr ((Nat.log2_self_le hne).trans hlow)
  have hmost : em.roundedMantissa.log2 < em.mantissa.log2 + 2 := by
    refine (Nat.log2_lt hrounded).mpr (Nat.lt_of_le_of_lt hhigh ?_)
    rw [Nat.pow_succ']
    omega
  have hplaces : totalExponent m e ≤ totalExponent em.roundedMantissa e₁ ∧
      totalExponent em.roundedMantissa e₁ ≤ totalExponent m e + 1 := by
    unfold totalExponent at hsame ⊢
    omega
  have hfine' : e₁ ≤ max (totalExponent em.roundedMantissa e₁ - 24) (-149) := by omega
  obtain ⟨hshifted', hne', hsame'⟩ := totalExponent_shifted hrounded hfine' (by omega)
  have hfinal : (shiftToTargetExponent Format.binary32 em.roundedMantissa e₁ .exact).1.mantissa =
      em.roundedMantissa / 2 ^ excess em.roundedMantissa e₁ := mantissa_shiftToTargetExponent
  rw [← exponent_shiftToTargetExponent, ← hfinal] at hsame'
  rw [← exponent_shiftToTargetExponent] at hshifted'
  rw [← hfinal] at hne'
  refine ⟨_, _, Nat.pos_of_ne_zero hne', dif_neg hne', ?_, ?_, ?_⟩
  · rw [Fits, hsame']
    exact hshifted'
  · rw [hsame']
    exact hplaces.1
  · rw [hsame']
    exact hplaces.2

/-- Rounding goes one place up at most. -/
theorem upTo_round (h : totalExponent m e + 1 ≤ place) (hplace : -148 ≤ place) :
    UpTo place (UnpackedFloat.round Format.binary32 sign m e) := by
  unfold UnpackedFloat.round decreaseExponent
  refine upTo_roundWithAccuracy (le_trans ?_ h) hplace
  rw [Nat.shiftLeft_eq]
  unfold totalExponent
  rcases Nat.eq_zero_or_pos m with rfl | hpos
  · rw [Nat.zero_mul]
    omega
  · rw [Double.log2_mul_pow hpos]
    omega

/-- A number that is not too small is rounded to one, and not to zero. -/
theorem exists_round (hm : m ≠ 0) (hplace : -148 ≤ totalExponent m e) :
    ∃ m' e' hpos, UnpackedFloat.round Format.binary32 sign m e = .finite sign m' e' hpos ∧
      Fits m' e' ∧ totalExponent m e ≤ totalExponent m' e' := by
  have hsame : ∀ places : Nat, totalExponent (m <<< places) (e - places) = totalExponent m e := by
    intro places
    rw [Nat.shiftLeft_eq, totalExponent, Double.log2_mul_pow (Nat.pos_of_ne_zero hm), totalExponent]
    omega
  have hne : ∀ places : Nat, m <<< places ≠ 0 := by
    intro places
    rw [Nat.shiftLeft_eq]
    exact Nat.mul_ne_zero hm (Nat.two_pow_pos places).ne'
  unfold UnpackedFloat.round decreaseExponent
  obtain ⟨m', e', hpos, heq, hfits, hle, -⟩ := exists_roundWithAccuracy sign .exact
    (hne (e - max (totalExponent m e - 24) (-149)).toNat) (by rw [hsame]; omega)
    (by rw [hsame]; exact hplace)
  exact ⟨m', e', hpos, heq, hfits, (hsame _).symm.le.trans hle⟩

/-- Normalizing a sum rounds it. -/
theorem upTo_normalize {n : Int} (h : totalExponent n.natAbs e + 1 ≤ place) (hplace : -148 ≤ place) :
    UpTo place (UnpackedFloat.normalize Format.binary32 n e sign) := by
  unfold UnpackedFloat.normalize
  rcases Int.lt_trichotomy n 0 with hneg | rfl | hpos
  · rw [Int.compare_eq_lt.mpr hneg]
    refine upTo_round ?_ hplace
    rw [show (-n).toNat = n.natAbs by omega]
    exact h
  · exact .zero
  · rw [Int.compare_eq_gt.mpr hpos]
    refine upTo_round ?_ hplace
    rw [show n.toNat = n.natAbs by omega]
    exact h

end Rounding

/-! ## Packing -/

section Packing

variable {sign : Sign} {m : Nat} {e place : Int} {hpos : 0 < m} {f : UnpackedFloat}

theorem UpTo.mono {place' : Int} (h : UpTo place f) (hle : place ≤ place') : UpTo place' f := by
  cases h with
  | zero => exact .zero
  | finite le => exact .finite (le_trans le hle)

/-- A number without an exponent is one of the smallest. -/
theorem upTo_unpack_small (hplace : -126 ≤ place)
    (mantissa : BitVec Format.binary32.mantissaBitsWithoutImplicit) :
    UpTo place (UnpackedFloat.unpack Format.binary32
      (packComponents Format.binary32 sign 0#_ mantissa)) := by
  rw [UnpackedFloat.unpack]
  simp only [unpackExponent_packComponents, unpackMantissa_packComponents]
  rw [if_neg (by decide), if_pos trivial]
  split
  · exact .zero
  · next hne =>
      refine .finite ?_
      have hnat : mantissa.toNat ≠ 0 := fun h => hne (BitVec.eq_of_toNat_eq h)
      have hlog : mantissa.toNat.log2 < 23 := (Nat.log2_lt hnat).mpr mantissa.isLt
      have hbias : (Format.binary32.exponentBias : Int) +
        Format.binary32.mantissaBitsWithoutImplicit = 150 := rfl
      rw [totalExponent, hbias, BitVec.toNat_zero]
      omega

/-- A number that fits is kept as it is, if it is not too large. -/
theorem unpack_pack_fits (hfits : Fits m e) (hhigh : totalExponent m e ≤ 128) :
    UnpackedFloat.unpack Format.binary32 (UnpackedFloat.pack Format.binary32
      (.finite sign m e hpos)) = .finite sign m e hpos := by
  have hbias : (Format.binary32.exponentBias : Int) = 127 := rfl
  have hbits : (Format.binary32.mantissaBitsWithoutImplicit : Int) = 23 := rfl
  unfold Fits totalExponent at hfits
  unfold totalExponent at hhigh
  by_cases hfull : m.log2 = 23
  · rw [Double.unpack_pack_full hpos hfull]
    · rw [hbias, hbits]
      omega
    · rw [hbias, hbits]
      show _ < ((2 ^ 8 : Nat) : Int)
      omega
  · refine Double.unpack_pack_short hpos ?_ ?_ (by decide)
    · show m.log2 < 23
      omega
    · rw [hbias, hbits]
      omega

/-- What is not below a place is not so after it is packed, if it fits. -/
theorem From.packed (h : From place f) {place' : Int} (hf : UpTo place' f) (hhigh : place' ≤ 128) :
    From place (UnpackedFloat.unpack Format.binary32 (UnpackedFloat.pack Format.binary32 f)) := by
  cases h with
  | @finite sign m e hpos fits le =>
      cases hf with
      | finite le' =>
          rw [unpack_pack_fits fits (by omega)]
          exact .finite fits le

/-- Numbers that are not too large are kept as they are, or become one of the smallest. -/
theorem UpTo.packed (h : UpTo place f) (hlow : -126 ≤ place) (hhigh : place ≤ 105) :
    UpTo place (UnpackedFloat.unpack Format.binary32 (UnpackedFloat.pack Format.binary32 f)) := by
  cases h with
  | @zero sign => cases sign <;> exact .zero
  | @finite sign m e hpos le =>
      have hbias : (Format.binary32.exponentBias : Int) = 127 := rfl
      have hbits : (Format.binary32.mantissaBitsWithoutImplicit : Int) = 23 := rfl
      have hexponent : e ≤ 104 := by
        unfold totalExponent at le
        omega
      have hfits : ¬ 2 ^ Format.binary32.exponentBits ≤ (e + Format.binary32.exponentBias +
          Format.binary32.mantissaBitsWithoutImplicit).toNat + 1 := by
        rw [hbias, hbits]
        show ¬ 2 ^ 8 ≤ _
        omega
      -- a mantissa with all its digits is kept, unless the exponent is too small to be written
      by_cases hfull : m.log2 + 1 = Format.binary32.mantissaBits
      · by_cases hsmall : e ≤ -150
        · have hpack : UnpackedFloat.pack Format.binary32 (.finite sign m e hpos) =
              packComponents Format.binary32 sign 0#_ (BitVec.ofNat _ m) := by
            refine (if_neg hfits).trans ((if_pos hfull).trans ?_)
            rw [hbias, hbits, show (e + 127 + 23).toNat = 0 by omega]
          rw [hpack]
          exact upTo_unpack_small hlow _
        · have hlog : m.log2 = Format.binary32.mantissaBitsWithoutImplicit := by
            rw [Format.mantissaBits] at hfull
            omega
          rw [Double.unpack_pack_full hpos hlog]
          · exact .finite le
          · rw [hbias, hbits]
            omega
          · rw [hbias, hbits]
            show _ < ((2 ^ 8 : Nat) : Int)
            omega
      · have hpack : UnpackedFloat.pack Format.binary32 (.finite sign m e hpos) =
            packComponents Format.binary32 sign 0#_ (BitVec.ofNat _ m) :=
          (if_neg hfits).trans (if_neg hfull)
        rw [hpack]
        exact upTo_unpack_small hlow _

end Packing

/-! ## Operations on unpacked numbers -/

section Unpacked

variable {f g : UnpackedFloat} {place place' : Int}

theorem natAbs_apply (sign : Sign) (n : Nat) : (sign.apply n).natAbs = n := by
  cases sign with
  | negative => exact Int.natAbs_neg n
  | positive => rfl

/-- Numbers brought to one exponent have mantissas whose sum has one digit more at most. -/
theorem totalExponent_sum {m m' : Nat} {e e' : Int} {n : Int} (hpos : 0 < m) (hpos' : 0 < m')
    (h : totalExponent m e ≤ place) (h' : totalExponent m' e' ≤ place)
    (hn : n.natAbs ≤ m <<< (e - min e e').toNat + m' <<< (e' - min e e').toNat) :
    totalExponent n.natAbs (min e e') ≤ place + 1 := by
  rw [Nat.shiftLeft_eq, Nat.shiftLeft_eq] at hn
  have hlog := Double.log2_mul_pow hpos (e - min e e').toNat
  have hlog' := Double.log2_mul_pow hpos' (e' - min e e').toNat
  have hlt : m * 2 ^ (e - min e e').toNat < 2 ^ _ := Nat.lt_log2_self
  have hlt' : m' * 2 ^ (e' - min e e').toNat < 2 ^ _ := Nat.lt_log2_self
  unfold totalExponent at h h' ⊢
  obtain ⟨width, hwidth⟩ : ∃ width : Nat, (width : Int) = place - min e e' :=
    ⟨(place - min e e').toNat, by omega⟩
  have hfirst : m * 2 ^ (e - min e e').toNat < 2 ^ width :=
    lt_of_lt_of_le hlt (Nat.pow_le_pow_right (by decide) (by omega))
  have hsecond : m' * 2 ^ (e' - min e e').toNat < 2 ^ width :=
    lt_of_lt_of_le hlt' (Nat.pow_le_pow_right (by decide) (by omega))
  by_cases hzero : n.natAbs = 0
  · rw [hzero, Nat.log2_zero]
    omega
  · have hsum : n.natAbs.log2 < width + 1 := by
      refine (Nat.log2_lt hzero).mpr ?_
      rw [Nat.pow_succ']
      omega
    omega

/-- A sum is two places up at most: one for the carry, and one for the rounding. -/
theorem UpTo.add (hf : UpTo place f) (hg : UpTo place g) (hplace : -150 ≤ place) :
    UpTo (place + 2) (UnpackedFloat.add Format.binary32 f g) := by
  cases hf with
  | @zero sign =>
      cases hg with
      | @zero sign' => cases sign <;> cases sign' <;> exact .zero
      | finite le => exact .finite (by omega)
  | @finite sign m e hpos le =>
      cases hg with
      | zero => exact .finite (by omega)
      | @finite sign' m' e' hpos' le' =>
          refine upTo_normalize ?_ (by omega)
          have hsum := totalExponent_sum hpos hpos' le le' <| (Int.natAbs_add_le
            (sign.apply (m <<< (e - min e e').toNat : Nat))
            (sign'.apply (m' <<< (e' - min e e').toNat : Nat))).trans
              (by rw [natAbs_apply, natAbs_apply])
          omega

theorem UpTo.sub (hf : UpTo place f) (hg : UpTo place g) (hplace : -150 ≤ place) :
    UpTo (place + 2) (UnpackedFloat.sub Format.binary32 f g) := by
  cases hf with
  | @zero sign =>
      cases hg with
      | @zero sign' => cases sign <;> cases sign' <;> exact .zero
      | finite le => exact .finite (by omega)
  | @finite sign m e hpos le =>
      cases hg with
      | zero => exact .finite (by omega)
      | @finite sign' m' e' hpos' le' =>
          refine upTo_normalize ?_ (by omega)
          have hsum := totalExponent_sum hpos hpos' le le' <| (Int.natAbs_sub_le
            (sign.apply (m <<< (e - min e e').toNat : Nat))
            (sign'.apply (m' <<< (e' - min e e').toNat : Nat))).trans
              (by rw [natAbs_apply, natAbs_apply])
          omega

/-- The logarithm of a product is at most one more than those of its factors together. -/
theorem log2_mul_le {m m' : Nat} (hpos : 0 < m) (hpos' : 0 < m') :
    (m * m').log2 ≤ m.log2 + m'.log2 + 1 := by
  have hlt : m * m' < 2 ^ (m.log2 + 1) * 2 ^ (m'.log2 + 1) :=
    Nat.mul_lt_mul'' Nat.lt_log2_self Nat.lt_log2_self
  rw [← Nat.pow_add] at hlt
  have hlog := (Nat.log2_lt (Nat.mul_pos hpos hpos').ne').mpr hlt
  omega

/-- The logarithm of a product is no less than those of its factors together. -/
theorem le_log2_mul {m m' : Nat} (hpos : 0 < m) (hpos' : 0 < m') :
    m.log2 + m'.log2 ≤ (m * m').log2 := by
  refine (Nat.le_log2 (Nat.mul_pos hpos hpos').ne').mpr ?_
  rw [Nat.pow_add]
  exact Nat.mul_le_mul (Nat.log2_self_le hpos.ne') (Nat.log2_self_le hpos'.ne')

/-- So a product of floats is bounded by the places of its factors. -/
theorem UpTo.mul (hf : UpTo place f) (hg : UpTo place' g) (hplace : -149 ≤ place + place') :
    UpTo (place + place' + 1) (UnpackedFloat.mul Format.binary32 f g) := by
  cases hf with
  | zero => cases hg <;> exact .zero
  | @finite sign m e hpos le =>
      cases hg with
      | zero => exact .zero
      | @finite sign' m' e' hpos' le' =>
          refine upTo_roundWithAccuracy ?_ (by omega)
          have hlog := log2_mul_le hpos hpos'
          unfold totalExponent at le le' ⊢
          omega

/-- The logarithm of a quotient is at most the difference of the two. -/
theorem log2_div_add_le {m m' : Nat} (hpos' : 0 < m') (hne : m / m' ≠ 0) :
    (m / m').log2 + m'.log2 ≤ m.log2 := by
  have hm : m ≠ 0 := by
    rintro rfl
    exact hne (Nat.zero_div _)
  calc (m / m').log2 + m'.log2
      ≤ (m / m' * m').log2 := le_log2_mul (Nat.pos_of_ne_zero hne) hpos'
    _ ≤ m.log2 := by
      refine (Nat.le_log2 hm).mpr (le_trans ?_ (Nat.div_mul_le_self m m'))
      exact Nat.log2_self_le (Nat.mul_pos (Nat.pos_of_ne_zero hne) hpos').ne'

/-- The logarithm of a quotient is at most one less than the difference of the two. -/
theorem log2_le_log2_div_add {m m' : Nat} (hpos : 0 < m) (hpos' : 0 < m') :
    m.log2 ≤ (m / m').log2 + m'.log2 + 1 := by
  have hlt : m < 2 ^ ((m / m').log2 + 1) * 2 ^ (m'.log2 + 1) :=
    calc m < (m / m' + 1) * m' := (Nat.div_lt_iff_lt_mul hpos').mp (Nat.lt_succ_self _)
      _ ≤ 2 ^ ((m / m').log2 + 1) * 2 ^ (m'.log2 + 1) :=
        Nat.mul_le_mul Nat.lt_log2_self Nat.lt_log2_self.le
  rw [← Nat.pow_add] at hlt
  have hlog := (Nat.log2_lt hpos.ne').mpr hlt
  omega

/-- The quotient is taken so far that no digit that counts is lost. -/
theorem totalExponent_quotient {m m' : Nat} (e e' : Int) (hpos : 0 < m) (hpos' : 0 < m') :
    let quotient := divCore Format.binary32 m e m' e'
    (quotient.1 ≠ 0 → totalExponent quotient.1 quotient.2.1 ≤
      totalExponent m e - totalExponent m' e' + 1) ∧
    totalExponent m e - totalExponent m' e' ≤ totalExponent quotient.1 quotient.2.1 ∧
    quotient.2.1 ≤ max (totalExponent m e - totalExponent m' e' - 24) (-149) := by
  dsimp only [divCore]
  have hle : min (e - e') (Format.binary32.targetExponent (totalExponent m e - totalExponent m' e')) ≤
    e - e' := min_le_left _ _
  refine ⟨fun hne => ?_, ?_, min_le_right _ _⟩
  all_goals
    generalize min (e - e')
      (Format.binary32.targetExponent (totalExponent m e - totalExponent m' e')) = target at *
    have hlog := Double.log2_mul_pow hpos (e - e' - target).toNat
    rw [Nat.shiftLeft_eq] at *
  · have hquotient := log2_div_add_le hpos' hne
    unfold totalExponent
    omega
  · have hquotient := log2_le_log2_div_add
      (Nat.mul_pos hpos (Nat.two_pow_pos (e - e' - target).toNat)) hpos'
    unfold totalExponent
    omega

/-- So a quotient of floats is bounded by how far its divisor is from zero. -/
theorem UpTo.div (hf : UpTo place f) (hg : From place' g) (hplace : -149 ≤ place - place') :
    UpTo (place - place' + 2) (UnpackedFloat.div Format.binary32 f g) := by
  cases hg with
  | @finite sign' m' e' hpos' _ le' =>
      cases hf with
      | zero => exact .zero
      | @finite sign m e hpos le =>
          obtain ⟨hhigh, -, hexponent⟩ := totalExponent_quotient e e' hpos hpos'
          rw [UnpackedFloat.div]
          generalize divCore Format.binary32 m e m' e' = quotient at hhigh hexponent ⊢
          obtain ⟨q, exponent, accuracy⟩ := quotient
          dsimp only at hhigh hexponent ⊢
          refine upTo_roundWithAccuracy ?_ (by omega)
          by_cases hzero : q = 0
          · rw [hzero, totalExponent, Nat.log2_zero]
            omega
          · have hplace := hhigh hzero
            omega

/-- A product is not below what its factors are not below, less one place. -/
theorem From.mul (hf : From place f) (hg : From place' g) (hf' : UpTo 24 f) (hg' : UpTo 24 g)
    (hplace : -147 ≤ place + place') :
    From (place + place' - 1) (UnpackedFloat.mul Format.binary32 f g) := by
  cases hf with
  | @finite sign m e hpos fits le =>
      cases hg with
      | @finite sign' m' e' hpos' fits' le' =>
          cases hf' with
          | finite most =>
              cases hg' with
              | finite most' =>
                  have hlog := le_log2_mul hpos hpos'
                  have hlow : place + place' - 1 ≤ totalExponent (m * m') (e + e') := by
                    unfold totalExponent at le le' ⊢
                    omega
                  have hfine : e + e' ≤ max (totalExponent (m * m') (e + e') - 24) (-149) := by
                    unfold Fits at fits fits'
                    unfold totalExponent at *
                    omega
                  obtain ⟨m'', e'', hpos'', heq, hfits, hle, -⟩ := exists_roundWithAccuracy
                    (sign * sign') .exact (Nat.mul_pos hpos hpos').ne' hfine (by omega)
                  rw [UnpackedFloat.mul, heq]
                  exact .finite hfits (hlow.trans hle)

theorem From.div {least : Int} (hf : From place f) (hg : From least g) (hg' : UpTo place' g)
    (hplace : -147 ≤ place - place') :
    From (place - place') (UnpackedFloat.div Format.binary32 f g) := by
  cases hf with
  | @finite sign m e hpos fits le =>
      cases hg with
      | @finite sign' m' e' hpos' =>
          cases hg' with
          | finite most' =>
              obtain ⟨-, hlow, hexponent⟩ := totalExponent_quotient e e' hpos hpos'
              rw [UnpackedFloat.div]
              generalize divCore Format.binary32 m e m' e' = quotient at hlow hexponent ⊢
              obtain ⟨q, exponent, accuracy⟩ := quotient
              dsimp only at hlow hexponent ⊢
              have hq : q ≠ 0 := by
                rintro rfl
                unfold totalExponent at hlow hexponent le most'
                rw [Nat.log2_zero] at hlow
                omega
              have hfine : exponent ≤ max (totalExponent q exponent - 24) (-149) := by omega
              obtain ⟨m'', e'', hpos'', heq, hfits, hle, -⟩ :=
                exists_roundWithAccuracy (sign / sign') accuracy hq hfine (by omega)
              rw [heq]
              exact .finite hfits (by omega)

/-- A difference that is not zero has its first digit where it is in exact arithmetic, at least. -/
theorem from_sub {sign sign' : Sign} {m m' : Nat} {e e' : Int} {hpos : 0 < m} {hpos' : 0 < m'}
    {n : Int} (hn : sign.apply (m <<< (e - min e e').toNat : Nat) -
      sign'.apply (m' <<< (e' - min e e').toNat : Nat) = n) (hne : n ≠ 0)
    (hlow : place ≤ totalExponent n.natAbs (min e e')) (hplace : -148 ≤ place) :
    From place (UnpackedFloat.sub Format.binary32 (.finite sign m e hpos)
      (.finite sign' m' e' hpos')) := by
  have hnormalize : ∃ sign m'' e'' hpos,
      UnpackedFloat.normalize Format.binary32 n (min e e') .positive = .finite sign m'' e'' hpos ∧
      Fits m'' e'' ∧ totalExponent n.natAbs (min e e') ≤ totalExponent m'' e'' := by
    unfold UnpackedFloat.normalize
    rcases Int.lt_or_gt_of_ne hne with hneg | hpos
    · rw [Int.compare_eq_lt.mpr hneg]
      rw [show n.natAbs = (-n).toNat by omega] at hlow ⊢
      exact ⟨_, exists_round (by omega) (hplace.trans hlow)⟩
    · rw [Int.compare_eq_gt.mpr hpos]
      rw [show n.natAbs = n.toNat by omega] at hlow ⊢
      exact ⟨_, exists_round (by omega) (hplace.trans hlow)⟩
  obtain ⟨sign'', m'', e'', hpos'', heq, hfits, hle⟩ := hnormalize
  have hsub : UnpackedFloat.sub Format.binary32 (.finite sign m e hpos)
      (.finite sign' m' e' hpos') = UnpackedFloat.normalize Format.binary32 n (min e e') .positive := by
    rw [← hn]
    rfl
  rw [hsub, heq]
  exact .finite hfits (hlow.trans hle)

end Unpacked

/-! ## Operations -/

/-- A finite number below a power of two. -/
def Within (place : Int) (x : Float32) : Prop := UpTo place x.toModel.unpack

/-- A finite number that is not zero, and not below half a power of two. -/
def Beyond (place : Int) (x : Float32) : Prop := From place x.toModel.unpack

section Operations

variable {x y : Float32} {place place' : Int}

theorem Within.mono (h : Within place x) (hle : place ≤ place') : Within place' x := UpTo.mono h hle

/-- What is finite is a number. -/
theorem Within.isNaN (h : Within place x) : x.isNaN = false := by
  show x.toModel.unpack.isNaN = false
  unfold Within at h
  generalize x.toModel.unpack = f at h ⊢
  cases h <;> rfl

/-- Two floats within a place have their sum within two more. -/
theorem Within.add (hx : Within place x) (hy : Within place y) (hlow : -128 ≤ place)
    (hhigh : place ≤ 103) : Within (place + 2) (x + y) :=
  (UpTo.add hx hy (by omega)).packed (by omega) (by omega)

theorem Within.sub (hx : Within place x) (hy : Within place y) (hlow : -128 ≤ place)
    (hhigh : place ≤ 103) : Within (place + 2) (x - y) :=
  (UpTo.sub hx hy (by omega)).packed (by omega) (by omega)

/-- The product is within the places together. -/
theorem Within.mul (hx : Within place x) (hy : Within place' y) (hlow : -127 ≤ place + place')
    (hhigh : place + place' ≤ 104) : Within (place + place' + 1) (x * y) :=
  (UpTo.mul hx hy (by omega)).packed (by omega) (by omega)

/-- The quotient of what is within by what is beyond is within the difference. -/
theorem Within.div (hx : Within place x) (hy : Beyond place' y) (hlow : -128 ≤ place - place')
    (hhigh : place - place' ≤ 103) : Within (place - place' + 2) (x / y) :=
  (UpTo.div hx hy (by omega)).packed (by omega) (by omega)

/-- The product of what is beyond is beyond. -/
theorem Beyond.mul (hx : Beyond place x) (hy : Beyond place' y) (hx' : Within 24 x)
    (hy' : Within 24 y) (hplace : -147 ≤ place + place') : Beyond (place + place' - 1) (x * y) :=
  (From.mul hx hy hx' hy' hplace).packed (UpTo.mul hx' hy' (by decide)) (by decide)

theorem Beyond.div {least : Int} (hx : Beyond place x) (hx' : Within 24 x) (hy : Beyond least y)
    (hy' : Within place' y) (hplace : -147 ≤ place - place') (hleast : -101 ≤ least)
    (hmost : least ≤ 24) : Beyond (place - place') (x / y) :=
  (From.div hx hy hy' hplace).packed (UpTo.div hx' hy (by omega)) (by omega)

end Operations

end FisheyeDock.Single
