import FisheyeDock.Decimal.Basic
import FisheyeDock.Proofs.Scalar.Nearest

/-! # Decimal numbers as doubles

    A decimal number is taken to the nearest double in one step (`Decimal.nearest_toFloat`).  Short
    numbers are the product or the quotient of two doubles that are exact; the others are rounded from
    the exact product or quotient, unless they are so large or so small that no power of ten has to be
    computed. -/

namespace FisheyeDock

open Float.Model UnpackedFloat Double

namespace Decimal

/-- The sign of a decimal number. -/
def sign (d : Decimal) : UnpackedFloat.Sign := if d.negative then .negative else .positive

/-- How far a decimal number is from zero. -/
def magnitude (d : Decimal) : ℚ := d.digits * 10 ^ d.exponent

variable {d : Decimal} {m : ℕ} {e : ℤ} {q : ℚ}

/-! ## Short numbers -/

/-- A double that is exactly a positive number, with a full mantissa. -/
def Exact (x : Float) (q : ℚ) : Prop :=
  ∃ m e hpos, x.toModel.unpack = .finite .positive m e hpos ∧ 52 ≤ m.log2 ∧ (m : ℚ) * 2 ^ e = q

/-- A number of 53 digits with a power of two fills the mantissa. -/
theorem exact_of_unpack {x : Float} {n : ℕ} (hpos : 0 < n) (hn : n < 2 ^ 53)
    (hx : x.toModel.unpack = .finite .positive (n * 2 ^ (52 - n.log2)) (e - (52 - n.log2 : ℕ))
      (Nat.mul_pos hpos (Nat.two_pow_pos _))) : Exact x (n * 2 ^ e) := by
  refine ⟨_, _, _, hx, (log2_mul_pow_sub hpos hn).ge, ?_⟩
  rw [Nat.cast_mul, Nat.cast_pow, Nat.cast_ofNat, mul_assoc, ← zpow_natCast, ← zpow_add₀ (by decide),
    add_sub_cancel]

/-- The powers of ten in the table are exact: the power of five, shifted until its mantissa is full,
    and the power of two in the exponent. -/
theorem unpack_powerOfTen (e : Fin 23) :
    Float.exactlyRepresentablePowersOfTen[e].toModel.unpack =
      .finite .positive (5 ^ (e : ℕ) * 2 ^ (52 - (5 ^ (e : ℕ)).log2))
        ((e : ℕ) - (52 - (5 ^ (e : ℕ)).log2 : ℕ))
        (Nat.mul_pos (Nat.pow_pos (by decide)) (Nat.two_pow_pos _)) := by
  fin_cases e <;> rfl

theorem exact_powerOfTen (e : Fin 23) :
    Exact Float.exactlyRepresentablePowersOfTen[e] (10 ^ (e : ℕ)) := by
  have hshort : 5 ^ (e : ℕ) < 2 ^ 53 :=
    (Nat.pow_le_pow_right (by decide) (Nat.le_of_lt_succ e.isLt)).trans_lt (by decide)
  have hpower : (10 : ℚ) ^ (e : ℕ) = (5 ^ (e : ℕ) : ℕ) * 2 ^ ((e : ℕ) : ℤ) := by
    rw [zpow_natCast, Nat.cast_pow, ← mul_pow]
    norm_num
  rw [hpower]
  exact exact_of_unpack (Nat.pow_pos (by decide)) hshort (unpack_powerOfTen e)

/-- What fits a mantissa is a double. -/
theorem exact_toFloat (hpos : 0 < m) (hm : m < 2 ^ 53) : Exact m.toUInt64.toFloat m := by
  have hlog := log2_le_of_lt hm
  have hunpack := unpack_toFloat hpos hm
  have hexponent : (m.log2 : ℤ) - 52 = 0 - (52 - m.log2 : ℕ) := by omega
  have hexact := exact_of_unpack hpos hm (hunpack.trans (finite_congr rfl rfl hexponent))
  rw [zpow_zero, mul_one] at hexact
  exact hexact

/-- One operation on exact doubles rounds once. -/
theorem Exact.nearest_mul {x y : Float} {p : ℚ} (hx : Exact x q) (hy : Exact y p) :
    Nearest .positive (q * p) (x * y) := by
  obtain ⟨m, e, hpos, hunpack, hfull, rfl⟩ := hx
  obtain ⟨m', e', hpos', hunpack', -, rfl⟩ := hy
  have hdigits : 52 ≤ (m * m').log2 :=
    hfull.trans ((Nat.le_add_right _ _).trans (Single.le_log2_mul hpos hpos'))
  have hmul : x * y = .ofModel (Float.Model.pack (UnpackedFloat.mul Format.binary64
    x.toModel.unpack y.toModel.unpack)) := rfl
  rw [hmul, hunpack, hunpack']
  exact (@roundsTo_mul .positive m e .positive m' e' hpos hpos' hdigits).nearest

theorem Exact.nearest_div {x y : Float} {p : ℚ} (hx : Exact x q) (hy : Exact y p) :
    Nearest .positive (q / p) (x / y) := by
  obtain ⟨m, e, hpos, hunpack, -, rfl⟩ := hx
  obtain ⟨m', e', hpos', hunpack', -, rfl⟩ := hy
  have hdiv : x / y = .ofModel (Float.Model.pack (UnpackedFloat.div Format.binary64
    x.toModel.unpack y.toModel.unpack)) := rfl
  rw [hdiv, hunpack, hunpack']
  exact (@roundsTo_div .positive m e .positive m' e' hpos hpos').nearest

/-! ## Long numbers -/

/-- A number is rounded from the exact product or quotient, if its exponent is not out of all bounds. -/
theorem nearest_ofScientific_model (hpos : 0 < m) (hhigh : e ≤ 2048) (hlow : -2048 - m.log2 ≤ e) :
    Nearest .positive (m * 10 ^ e) (.ofModel (Float.Model.ofScientific m e)) := by
  refine RoundsTo.nearest ?_
  unfold UnpackedFloat.ofScientific
  rw [dif_neg hpos.ne', if_neg, if_neg]
  · split
    · next hnonneg =>
        have hdigits : 52 ≤ (m <<< Format.binary64.mantissaBits * 10 ^ e.toNat).log2 := by
          rw [Nat.shiftLeft_eq, Nat.mul_right_comm, log2_mul_pow (by positivity)]
          exact (by decide : 52 ≤ Format.binary64.mantissaBits).trans (Nat.le_add_left _ _)
        have hround := @roundsTo_mul .positive _ (-Format.binary64.mantissaBits) .positive _ 0
          (by rw [Nat.shiftLeft_eq]; positivity) (Nat.pow_pos (by decide)) hdigits
        have hexact : ((m <<< Format.binary64.mantissaBits : ℕ) : ℚ) *
            2 ^ (-Format.binary64.mantissaBits : ℤ) * ((10 ^ e.toNat : ℕ) * 2 ^ (0 : ℤ)) =
            m * 10 ^ e := by
          rw [Nat.shiftLeft_eq, zpow_neg, zpow_natCast, zpow_zero, mul_one, Nat.cast_mul, Nat.cast_pow,
            Nat.cast_ofNat, mul_inv_cancel_right₀ (by positivity), Nat.cast_pow, ← zpow_natCast,
            Int.toNat_of_nonneg hnonneg]
          rfl
        exact hexact ▸ hround
    · next hneg =>
        have hround := @roundsTo_div .positive m 0 .positive (10 ^ (-e).toNat) 0 hpos
          (Nat.pow_pos (by decide))
        have hexact : (m : ℚ) * 2 ^ (0 : ℤ) / ((10 ^ (-e).toNat : ℕ) * 2 ^ (0 : ℤ)) = m * 10 ^ e := by
          rw [zpow_zero, mul_one, mul_one, Nat.cast_pow, ← zpow_natCast,
            Int.toNat_of_nonneg (by omega), zpow_neg, div_inv_eq_mul]
          rfl
        exact hexact ▸ hround
  · show ¬ e < -((2 ^ 11 : Int) + m.log2)
    omega
  · show ¬ e > 2 ^ 11
    omega

/-- A literal is the nearest double of its digits times the power of ten, unless the exponent is far
    off. -/
theorem nearest_ofScientific (hpos : 0 < m) (hhigh : e ≤ 2048) (hlow : -2048 - m.log2 ≤ e) :
    Nearest .positive (m * 10 ^ e) (Float.ofScientific m (decide (e < 0)) e.natAbs) := by
  unfold Float.ofScientific
  split
  · next h =>
      have hx := exact_toFloat hpos h.1
      have hy := exact_powerOfTen ⟨e.natAbs, Nat.lt_succ_of_le h.2⟩
      dsimp only
      split
      · next hneg =>
          have hvalue : (m : ℚ) * 10 ^ e = m / 10 ^ e.natAbs := by
            rw [← zpow_natCast, Int.ofNat_natAbs_of_nonpos (of_decide_eq_true hneg).le, zpow_neg,
              div_inv_eq_mul]
          rw [hvalue]
          exact hx.nearest_div hy
      · next hnonneg =>
          have hvalue : (m : ℚ) * 10 ^ e = m * 10 ^ e.natAbs := by
            rw [← zpow_natCast, Int.natAbs_of_nonneg (by simpa using hnonneg)]
          rw [hvalue]
          exact hx.nearest_mul hy
  · have hexponent : (if decide (e < 0) then Int.negOfNat e.natAbs else Int.ofNat e.natAbs) = e := by
      split
      · next hneg =>
          rw [Int.negOfNat_eq]
          exact neg_eq_iff_eq_neg.mpr (Int.ofNat_natAbs_of_nonpos (of_decide_eq_true hneg).le)
      · next hnonneg =>
          have hle : 0 ≤ e := by simpa using hnonneg
          exact Int.natAbs_of_nonneg hle
    dsimp only
    rw [hexponent]
    exact nearest_ofScientific_model hpos hhigh hlow

/-! ## All numbers -/

/-- A positive number is below the power of ten of its leading place, and not below a tenth of it. -/
theorem magnitude_bounds (h : d.digits ≠ 0) :
    (10 : ℚ) ^ (d.leadingPlace - 1) ≤ d.magnitude ∧ d.magnitude < 10 ^ d.leadingPlace := by
  obtain ⟨places, hplaces⟩ : ∃ places, (Nat.toDigits 10 d.digits).length = places + 1 :=
    ⟨_, (Nat.succ_pred_eq_of_pos Nat.length_toDigits_pos).symm⟩
  have hleading : d.leadingPlace = places + 1 + d.exponent := by
    rw [leadingPlace, hplaces]
    push_cast
    ring
  have hlt : d.digits < 10 ^ (places + 1) :=
    (Nat.length_toDigits_le_iff (by decide) places.succ_pos).mp hplaces.le
  have hle : 10 ^ places ≤ d.digits := by
    rcases Nat.eq_zero_or_pos places with rfl | hpos
    · exact Nat.pos_of_ne_zero h
    · by_contra hless
      have hshort := (Nat.length_toDigits_le_iff (by decide) hpos).mpr (Nat.lt_of_not_le hless)
      omega
  have hpower : (0 : ℚ) < 10 ^ d.exponent := zpow_pos (by decide) _
  unfold magnitude
  rw [hleading]
  constructor
  · rw [show (places : ℤ) + 1 + d.exponent - 1 = places + d.exponent by ring, zpow_add₀ (by decide),
      zpow_natCast]
    exact mul_le_mul_of_nonneg_right (by exact_mod_cast hle) hpower.le
  · rw [zpow_add₀ (by decide), ← Nat.cast_add_one, zpow_natCast]
    exact mul_lt_mul_of_pos_right (by exact_mod_cast hlt) hpower

/-- The powers of ten between which numbers are computed lie beyond the doubles. -/
theorem overflow_le_power : overflow ≤ 10 ^ (310 : ℤ) := by
  have hpowers : 2 ^ 1024 ≤ 10 ^ 310 := by decide +kernel
  have hcast : (2 : ℚ) ^ 1024 ≤ 10 ^ 310 := by exact_mod_cast hpowers
  exact (sub_le_self _ (by positivity)).trans hcast

/-- A power of ten below all doubles is less than half of the least. -/
theorem power_le_smallest : (10 : ℚ) ^ (-330 : ℤ) ≤ 2 ^ (-1075 : ℤ) := by
  have hpowers : 2 ^ 1075 ≤ 10 ^ 330 := by decide +kernel
  have hcast : (2 : ℚ) ^ 1075 ≤ 10 ^ 330 := by exact_mod_cast hpowers
  exact inv_anti₀ (by positivity) hcast

/-- The number of digits is not greater than that of binary digits. -/
theorem length_toDigits_le (m : ℕ) : (Nat.toDigits 10 m).length ≤ m.log2 + 1 := by
  refine (Nat.length_toDigits_le_iff (by decide) (Nat.succ_pos _)).mpr ?_
  exact Nat.lt_log2_self.trans_le (Nat.pow_le_pow_left (by decide) _)

/-- Digits without a sign: none are zero, too great a place is infinite, too small a one is zero,
    and all else is rounded. -/
theorem nearest_unsigned (d : Decimal) : Nearest .positive d.magnitude
    (if d.digits = 0 then 0.0
      else if 310 < d.leadingPlace then 1.0 / 0.0
      else if d.leadingPlace < -330 then 0.0
      else Float.ofScientific d.digits (decide (d.exponent < 0)) d.exponent.natAbs) := by
  split
  · next hzero =>
      have hmagnitude : d.magnitude = 0 := by rw [magnitude, hzero, Nat.cast_zero, zero_mul]
      rw [hmagnitude]
      exact nearest_zero unpack_zero le_rfl (two_zpow_pos _)
  · next hne =>
      obtain ⟨hlow, hhigh⟩ := magnitude_bounds hne
      split
      · next hlarge =>
          have hinfinite : (1.0 / 0.0 : Float).toModel.unpack = .infinity .positive := rfl
          refine nearest_infinity hinfinite (overflow_le_power.trans (le_trans ?_ hlow))
          exact zpow_le_zpow_right₀ (by decide) (by omega)
      · next hbounded =>
          split
          · next hsmall =>
              have hnonneg : 0 ≤ d.magnitude := le_trans (zpow_nonneg (by decide) _) hlow
              refine nearest_zero unpack_zero hnonneg (hhigh.trans_le (le_trans ?_ power_le_smallest))
              exact zpow_le_zpow_right₀ (by decide) (by omega)
          · next hlarge =>
              have hlength := length_toDigits_le d.digits
              unfold leadingPlace at hbounded hlarge
              exact nearest_ofScientific (Nat.pos_of_ne_zero hne) (by omega) (by omega)

/-- **A DECIMAL NUMBER BECOMES THE NEAREST DOUBLE.** -/
theorem nearest_toFloat (d : Decimal) : Nearest d.sign d.magnitude d.toFloat := by
  have hunsigned := nearest_unsigned d
  unfold toFloat sign
  dsimp only
  split
  · exact hunsigned.neg
  · exact hunsigned

end Decimal

end FisheyeDock
