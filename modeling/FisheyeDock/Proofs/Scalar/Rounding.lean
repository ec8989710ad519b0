import FisheyeDock.Proofs.Scalar.Exponents

/-! # What is rounded is nearest

    A mantissa with its two residual bits stands for an exact number (`Represents`), however far it is
    shifted.  Rounding takes the whole number nearest to it, the even one of two equally near
    (`Represents.roundsEven`), at an exponent where all the digits that fit are kept.  So of all
    numbers with 53 digits and an exponent from -1074 on, the result is the nearest to the exact one
    (`roundsTo_roundWithAccuracy`), for products and quotients alike. -/

namespace FisheyeDock.Double

open Float.Model UnpackedFloat

/-! ## Residual bits -/

section Residue

variable {em : ExtendedMantissa} {m k : ℕ} {r : ℚ}

/-- The number that a mantissa with its residual bits stands for. -/
inductive Represents : ExtendedMantissa → ℚ → Prop
  | exact {m : ℕ} {r : ℚ} (eq : r = m) : Represents ⟨m, false, false⟩ r
  | low {m : ℕ} {r : ℚ} (above : m < r) (below : r < m + 1 / 2) : Represents ⟨m, false, true⟩ r
  | half {m : ℕ} {r : ℚ} (eq : r = m + 1 / 2) : Represents ⟨m, true, false⟩ r
  | high {m : ℕ} {r : ℚ} (above : m + 1 / 2 < r) (below : r < m + 1) : Represents ⟨m, true, true⟩ r

/-- What is represented is not below the mantissa. -/
theorem Represents.le (h : Represents em r) : em.mantissa ≤ r := by
  cases h <;> dsimp only <;> linarith

theorem Represents.lt (h : Represents em r) : r < em.mantissa + 1 := by
  cases h <;> dsimp only <;> linarith

/-- The residual bits of the halved mantissa tell what is lost. -/
theorem Represents.shiftRightOne (h : Represents em r) : Represents em.shiftRightOne (r / 2) := by
  obtain ⟨half, hhalf⟩ : ∃ half, em.mantissa = 2 * half ∨ em.mantissa = 2 * half + 1 :=
    ⟨em.mantissa / 2, by omega⟩
  obtain ⟨m, roundBit, stickyBit⟩ := em
  obtain rfl | rfl : m = 2 * half ∨ m = 2 * half + 1 := hhalf
  · have hshift : (ExtendedMantissa.mk (2 * half) roundBit stickyBit).shiftRightOne =
        ⟨half, false, roundBit || stickyBit⟩ := by
      simp [ExtendedMantissa.shiftRightOne]
    rw [hshift]
    cases h with
    | exact eq => exact .exact (by push_cast at eq; linarith)
    | low above below => exact .low (by push_cast at above; linarith) (by push_cast at below; linarith)
    | half eq => exact .low (by push_cast at eq; linarith) (by push_cast at eq; linarith)
    | high above below => exact .low (by push_cast at above; linarith) (by push_cast at below; linarith)
  · have hshift : (ExtendedMantissa.mk (2 * half + 1) roundBit stickyBit).shiftRightOne =
        ⟨half, true, roundBit || stickyBit⟩ := by
      have hdiv : (2 * half + 1) / 2 = half := by omega
      simp [ExtendedMantissa.shiftRightOne, hdiv, Nat.add_mod]
    rw [hshift]
    cases h with
    | exact eq => exact .half (by push_cast at eq; linarith)
    | low above below => exact .high (by push_cast at above; linarith) (by push_cast at below; linarith)
    | half eq => exact .high (by push_cast at eq; linarith) (by push_cast at eq; linarith)
    | high above below => exact .high (by push_cast at above; linarith) (by push_cast at below; linarith)

/-- A shift to the right divides what is represented, with what has been lost in mind. -/
theorem Represents.shiftRight (h : Represents em r) (places : ℕ) :
    Represents (em >>> places) (r / 2 ^ places) := by
  induction places with
  | zero =>
      rw [pow_zero, div_one]
      exact h
  | succ places ih =>
      rw [pow_succ, ← div_div]
      exact ih.shiftRightOne

/-- The whole number nearest to a number, the even one of two equally near. -/
structure RoundsEven (r : ℚ) (m : ℕ) : Prop where
  near : ∀ k : ℕ, |r - m| ≤ |r - k|
  even : ∀ k : ℕ, |r - m| = |r - k| → k = m ∨ (m % 2 = 0 ∧ k % 2 = 1)

/-- A whole number half a unit away at most is nearest, if it is even where it is so far away. -/
theorem roundsEven_of_le (hle : |r - m| ≤ 1 / 2) (heven : |r - m| = 1 / 2 → m % 2 = 0) :
    RoundsEven r m := by
  have hgap : ∀ k : ℕ, k ≠ m → 1 ≤ |(k : ℚ) - m| := by
    intro k hne
    have hint : 1 ≤ |(k : ℤ) - m| := Int.one_le_abs (by omega)
    exact_mod_cast hint
  have htriangle : ∀ k : ℕ, |(k : ℚ) - m| ≤ |r - k| + |r - m| := by
    intro k
    rw [abs_sub_comm r k, ← sub_add_sub_cancel (k : ℚ) r m]
    exact abs_add_le _ _
  refine ⟨fun k => ?_, fun k htie => ?_⟩
  · by_cases hk : k = m
    · rw [hk]
    · linarith [hgap k hk, htriangle k]
  · by_cases hk : k = m
    · exact .inl hk
    · have hhalf : |r - m| = 1 / 2 := by linarith [hgap k hk, htriangle k]
      have hone : |(k : ℚ) - m| = 1 := le_antisymm (by linarith [htriangle k]) (hgap k hk)
      have hnext : |(k : ℤ) - m| = 1 := by exact_mod_cast hone
      have hm := heven hhalf
      refine .inr ⟨hm, ?_⟩
      rcases abs_eq (by decide : (0 : ℤ) ≤ 1) |>.mp hnext with h | h <;> omega

/-- **THE ROUNDED MANTISSA IS NEAREST TO WHAT THE RESIDUAL BITS STAND FOR.** -/
theorem Represents.roundsEven (h : Represents em r) : RoundsEven r em.roundedMantissa := by
  cases h with
  | @exact m r eq =>
      refine roundsEven_of_le (m := m) ?_ fun h => ?_
      · rw [eq, sub_self, abs_zero]
        norm_num
      · rw [eq, sub_self, abs_zero] at h
        norm_num at h
  | @low m r above below =>
      have habs : |r - m| = r - m := abs_of_pos (by linarith)
      exact roundsEven_of_le (m := m) (by linarith) fun h => by linarith
  | @half m r eq =>
      have hrounded : (ExtendedMantissa.mk m true false).roundedMantissa = m + m % 2 := rfl
      rw [hrounded]
      obtain heven | hodd := Nat.mod_two_eq_zero_or_one m
      · rw [heven, Nat.add_zero]
        have habs : |r - m| = 1 / 2 := by rw [eq, add_sub_cancel_left]; norm_num
        exact roundsEven_of_le habs.le fun _ => heven
      · rw [hodd]
        have habs : |r - (m + 1 : ℕ)| = 1 / 2 := by
          rw [eq, abs_of_neg] <;> push_cast <;> linarith
        exact roundsEven_of_le habs.le fun _ => by omega
  | @high m r above below =>
      have habs : |r - (m + 1 : ℕ)| = m + 1 - r := by
        rw [abs_of_neg] <;> push_cast <;> linarith
      exact roundsEven_of_le (m := m + 1) (by linarith) fun h => by linarith

/-- Rounding does not go below a whole number. -/
theorem RoundsEven.le_of_le (h : RoundsEven r m) (hk : (k : ℚ) ≤ r) : k ≤ m := by
  by_contra hlt
  have hcast : (m : ℚ) + 1 ≤ k := by exact_mod_cast Nat.lt_of_not_le hlt
  have hnear := h.near k
  rw [abs_of_pos (by linarith), abs_of_nonneg (by linarith)] at hnear
  linarith

/-- An exact mantissa represents itself. -/
theorem represents_exact (m : ℕ) :
    Represents (ExtendedMantissa.ofMantissaAndAccuracy m .exact) m := .exact rfl

/-- The rest of a division tells where the quotient lies. -/
theorem represents_quotient (m : ℕ) {m' : ℕ} (hpos : 0 < m') :
    Represents (ExtendedMantissa.ofMantissaAndAccuracy (m / m') (accuracyOfFraction (m % m') m'))
      (m / m') := by
  have hdenominator : (0 : ℚ) < m' := by exact_mod_cast hpos
  have hsplit : (m : ℚ) / m' = (m / m' : ℕ) + (m % m' : ℕ) / m' := by
    have hnat : (m' * (m / m' : ℕ) + (m % m' : ℕ) : ℚ) = m := by exact_mod_cast Nat.div_add_mod m m'
    rw [eq_comm, ← hnat, add_div, mul_div_cancel_left₀ _ hdenominator.ne']
  have hlt : ((m % m' : ℕ) : ℚ) / m' < 1 := by
    rw [div_lt_one hdenominator]
    exact_mod_cast Nat.mod_lt m hpos
  rw [hsplit]
  generalize m % m' = rest at hlt ⊢
  by_cases hzero : rest = 0
  · rw [accuracyOfFraction, if_pos hzero]
    exact .exact (by rw [hzero, Nat.cast_zero, zero_div, add_zero])
  · have hrest : (0 : ℚ) < rest / m' :=
      div_pos (by exact_mod_cast Nat.pos_of_ne_zero hzero) hdenominator
    rw [accuracyOfFraction, if_neg hzero]
    -- the rest is less than half of the divisor, or half of it, or more
    rcases Nat.lt_trichotomy (2 * rest) m' with hless | hhalf | hmore
    · have hcast : (rest : ℚ) / m' < 1 / 2 := by
        rw [div_lt_iff₀ hdenominator]
        have hcast : (2 * rest : ℚ) < m' := by exact_mod_cast hless
        linarith
      rw [Nat.compare_eq_lt.mpr hless]
      exact .low (by linarith) (by linarith)
    · have hcast : (rest : ℚ) / m' = 1 / 2 := by
        rw [div_eq_iff hdenominator.ne']
        have hcast : (2 * rest : ℚ) = m' := by exact_mod_cast hhalf
        linarith
      rw [Nat.compare_eq_eq.mpr hhalf]
      exact .half (by rw [hcast])
    · have hcast : 1 / 2 < (rest : ℚ) / m' := by
        rw [lt_div_iff₀ hdenominator]
        have hcast : (m' : ℚ) < 2 * rest := by exact_mod_cast hmore
        linarith
      rw [Nat.compare_eq_gt.mpr hmore]
      exact .high (by linarith) (by linarith)

end Residue

/-! ## Nearest of all numbers that fit -/

section Unpacked

variable {sign : Sign} {f : UnpackedFloat} {m : ℕ} {e : ℤ} {q : ℚ} {accuracy : Accuracy}

/-- How far a finite number is from zero. -/
def magnitude : UnpackedFloat → ℚ
  | .finite _ m e _ => m * 2 ^ e
  | _ => 0

/-- The last digit of the mantissa is zero. -/
def IsEven : UnpackedFloat → Prop
  | .finite _ m _ _ => m % 2 = 0
  | _ => True

/-- The mantissa has all the digits that fit, or the exponent is the smallest one. -/
structure Regular (m : ℕ) (e : ℤ) : Prop where
  lt : m < 2 ^ 53
  low : -1074 ≤ e
  full : 2 ^ 52 ≤ m ∨ e = -1074

/-- A number is nearest to an exact one among those with 53 digits and an exponent from -1074 on, and the
    even one of two equally near. -/
structure RoundsTo (sign : Sign) (q : ℚ) (f : UnpackedFloat) : Prop where
  regular : f = .zero sign ∨ ∃ m e hpos, f = .finite sign m e hpos ∧ Regular m e
  near : ∀ {m' : ℕ} {e' : ℤ}, m' < 2 ^ 53 → -1074 ≤ e' → |q - magnitude f| ≤ |q - m' * 2 ^ e'|
  even : ∀ {m' : ℕ} {e' : ℤ}, m' < 2 ^ 53 → -1074 ≤ e' →
    |q - magnitude f| = |q - m' * 2 ^ e'| → m' * 2 ^ e' = magnitude f ∨ (IsEven f ∧ m' % 2 = 1)

/-! ### On the grid of an exponent -/

theorem two_zpow_pos (e : ℤ) : (0 : ℚ) < 2 ^ e := zpow_pos (by decide) e

/-- A distance on the grid of an exponent is one among whole numbers. -/
theorem abs_sub_mul_zpow (q : ℚ) (k : ℕ) (e : ℤ) :
    |q - k * 2 ^ e| = |q / 2 ^ e - k| * 2 ^ e := by
  have hscaled : q - k * 2 ^ e = (q / 2 ^ e - k) * 2 ^ e := by
    rw [sub_mul, div_mul_cancel₀ q (two_zpow_pos e).ne']
  rw [hscaled, abs_mul, abs_of_pos (two_zpow_pos e)]

/-- A number with a greater exponent is on the grid of a smaller one. -/
theorem exists_places {E e' : ℤ} (hle : E ≤ e') (m' : ℕ) : ∃ places : ℕ,
    (m' : ℚ) * 2 ^ e' = (m' * 2 ^ places : ℕ) * 2 ^ E := by
  refine ⟨(e' - E).toNat, ?_⟩
  rw [Nat.cast_mul, Nat.cast_pow, Nat.cast_ofNat, mul_assoc, ← zpow_natCast,
    ← zpow_add₀ (by decide), Int.toNat_of_nonneg (by omega), sub_add_cancel]

/-- With 53 digits, a number with a smaller exponent is below all with 53 digits and a greater one. -/
theorem mul_zpow_lt_of_lt {E e' : ℤ} {m' : ℕ} (hm' : m' < 2 ^ 53) (hlt : e' < E) :
    (m' : ℚ) * 2 ^ e' < (2 ^ 52 : ℕ) * 2 ^ E := by
  calc (m' : ℚ) * 2 ^ e' < (2 ^ 53 : ℕ) * 2 ^ e' :=
        mul_lt_mul_of_pos_right (by exact_mod_cast hm') (two_zpow_pos e')
    _ = (2 ^ 52 : ℕ) * 2 ^ (e' + 1) := by
        rw [zpow_add_one₀ (by decide)]
        push_cast
        ring
    _ ≤ (2 ^ 52 : ℕ) * 2 ^ E :=
        mul_le_mul_of_nonneg_left (zpow_le_zpow_right₀ (by decide) (by omega)) (by positivity)

/-- What is nearest on the grid of an exponent is nearest of all numbers that fit: those of a greater
    exponent are on the grid, and those of a smaller one are below it. -/
theorem roundsTo_of_grid {M : ℕ} {E : ℤ} (hround : RoundsEven (q / 2 ^ E) M)
    (hlow : E = -1074 ∨ 2 ^ 52 ≤ q / 2 ^ E) (hmagnitude : magnitude f = M * 2 ^ E)
    (heven : M % 2 = 0 → IsEven f)
    (hregular : f = .zero sign ∨ ∃ m e hpos, f = .finite sign m e hpos ∧ Regular m e) :
    RoundsTo sign q f := by
  -- the first number of the grid with all digits lies between `q` and those with smaller exponents
  have hbelow : ∀ {m' : ℕ} {e' : ℤ}, m' < 2 ^ 53 → -1074 ≤ e' → e' < E →
      |q - magnitude f| < |q - m' * 2 ^ e'| := by
    intro m' e' hm' he' hlt
    have hfirst : (2 ^ 52 : ℕ) * 2 ^ E ≤ q := by
      push_cast
      exact (le_div_iff₀ (two_zpow_pos E)).mp (hlow.resolve_left (by omega))
    have hless : (m' : ℚ) * 2 ^ e' < (2 ^ 52 : ℕ) * 2 ^ E := mul_zpow_lt_of_lt hm' hlt
    calc |q - magnitude f| ≤ |q - (2 ^ 52 : ℕ) * 2 ^ E| := by
          rw [hmagnitude, abs_sub_mul_zpow, abs_sub_mul_zpow]
          exact mul_le_mul_of_nonneg_right (hround.near _) (two_zpow_pos E).le
      _ = q - (2 ^ 52 : ℕ) * 2 ^ E := abs_of_nonneg (by linarith)
      _ < q - m' * 2 ^ e' := by linarith
      _ ≤ |q - m' * 2 ^ e'| := le_abs_self _
  refine ⟨hregular, fun {m' e'} hm' he' => ?_, fun {m' e'} hm' he' htie => ?_⟩
  · rcases le_or_gt E e' with hle | hlt
    · obtain ⟨places, heq⟩ := exists_places hle m'
      rw [heq, hmagnitude, abs_sub_mul_zpow, abs_sub_mul_zpow]
      exact mul_le_mul_of_nonneg_right (hround.near _) (two_zpow_pos E).le
    · exact (hbelow hm' he' hlt).le
  · rcases le_or_gt E e' with hle | hlt
    · obtain ⟨places, heq⟩ := exists_places hle m'
      rw [heq, hmagnitude, abs_sub_mul_zpow, abs_sub_mul_zpow] at htie
      obtain hsame | ⟨hM, hodd⟩ := hround.even _ (mul_right_cancel₀ (two_zpow_pos E).ne' htie)
      · rw [heq, hsame, hmagnitude]
        exact .inl rfl
      · refine .inr ⟨heven hM, ?_⟩
        rw [Nat.mul_mod] at hodd
        exact Nat.mod_two_ne_zero.mp fun h => by simp [h] at hodd
    · exact absurd htie (hbelow hm' he' hlt).ne

/-! ### Rounding -/

/-- A mantissa of 53 digits is kept. -/
theorem shiftToTargetExponent_of_lt (hm : m < 2 ^ 53) (he : -1074 ≤ e) :
    (shiftToTargetExponent Format.binary64 m e .exact).1.mantissa = m ∧
      (shiftToTargetExponent Format.binary64 m e .exact).2 = e := by
  obtain ⟨places, hplaces, hmantissa, hexponent⟩ := shiftToTargetExponent_binary64 m e .exact
  have hlog := log2_le_of_lt hm
  obtain rfl : places = 0 := by omega
  rw [hmantissa, hexponent, Nat.pow_zero, Nat.div_one]
  exact ⟨rfl, by omega⟩

/-- A mantissa with one digit more, as rounding up can make it, is halved. -/
theorem shiftToTargetExponent_carry (he : -1074 ≤ e) :
    (shiftToTargetExponent Format.binary64 (2 ^ 53) e .exact).1.mantissa = 2 ^ 52 ∧
      (shiftToTargetExponent Format.binary64 (2 ^ 53) e .exact).2 = e + 1 := by
  obtain ⟨places, hplaces, hmantissa, hexponent⟩ := shiftToTargetExponent_binary64 (2 ^ 53) e .exact
  have hlog : (2 ^ 53 : ℕ).log2 = 53 := by decide
  obtain rfl : places = 1 := by omega
  exact ⟨hmantissa, hexponent⟩

/-- **ROUNDING GIVES THE NEAREST NUMBER**, if the mantissa has all the digits that fit or the exponent is
    small enough, so that no digit is lost before. -/
theorem roundsTo_roundWithAccuracy
    (hrepresents : Represents (ExtendedMantissa.ofMantissaAndAccuracy m accuracy) (q / 2 ^ e))
    (hfine : e ≤ max (m.log2 + e - 52) (-1074)) :
    RoundsTo sign q (roundWithAccuracy Format.binary64 sign m e accuracy) := by
  have hfirst : shiftToTargetExponent Format.binary64 m e accuracy =
      (ExtendedMantissa.ofMantissaAndAccuracy m accuracy >>>
        (max (m.log2 + e - 52) (-1074) - e).toNat, max (m.log2 + e - 52) (-1074)) := by
    rw [shiftToTargetExponent, targetExponent_binary64, shiftToExponent]
    refine congrArg (Prod.mk _) ?_
    omega
  obtain ⟨E, hE⟩ : ∃ E, E = max (m.log2 + e - 52) (-1074) := ⟨_, rfl⟩
  rw [← hE] at hfirst hfine
  have hsplit : q / 2 ^ e / 2 ^ (E - e).toNat = q / 2 ^ E := by
    rw [div_div, ← zpow_natCast, ← zpow_add₀ (by decide), Int.toNat_of_nonneg (by omega),
      add_sub_cancel]
  have hshifted := hrepresents.shiftRight (E - e).toNat
  rw [hsplit] at hshifted
  have hmantissa : (ExtendedMantissa.ofMantissaAndAccuracy m accuracy >>> (E - e).toNat).mantissa =
      m / 2 ^ (E - e).toNat := by
    rw [Single.mantissa_shiftRight, Single.mantissa_ofMantissaAndAccuracy]
  generalize ExtendedMantissa.ofMantissaAndAccuracy m accuracy >>> (E - e).toNat = em at *
  have hround := hshifted.roundsEven
  have hself : m < 2 ^ (m.log2 + 1) := Nat.lt_log2_self
  -- the first digit is in its place, unless the exponent is the smallest one
  have hlow : E = -1074 ∨ 2 ^ 52 ≤ q / 2 ^ E := by
    by_cases hsmallest : E = -1074
    · exact .inl hsmallest
    · have hm : m ≠ 0 := by
        rintro rfl
        rw [Nat.log2_zero] at hE
        omega
      have hdigits : 2 ^ 52 ≤ em.mantissa := by
        rw [hmantissa, Nat.le_div_iff_mul_le (Nat.two_pow_pos _), ← Nat.pow_add]
        refine le_trans (Nat.pow_le_pow_right (by decide) ?_) (Nat.log2_self_le hm)
        omega
      exact .inr (le_trans (by exact_mod_cast hdigits) hshifted.le)
  have hhigh : em.roundedMantissa ≤ 2 ^ 53 := by
    have hdigits : em.mantissa + 1 ≤ 2 ^ 53 := by
      rw [hmantissa, Nat.succ_le_iff, Nat.div_lt_iff_lt_mul (Nat.two_pow_pos _), ← Nat.pow_add]
      exact hself.trans_le (Nat.pow_le_pow_right (by decide) (by omega))
    exact (Single.roundedMantissa_le em).trans hdigits
  have hfull : E = -1074 ∨ 2 ^ 52 ≤ em.roundedMantissa :=
    hlow.imp_right fun h => hround.le_of_le (by exact_mod_cast h)
  rw [roundWithAccuracy, hfirst]
  dsimp only
  rcases Nat.lt_or_eq_of_le hhigh with hlt | hcarry
  · obtain ⟨hkept, hexponent⟩ := shiftToTargetExponent_of_lt hlt (e := E) (by omega)
    simp only [hkept, hexponent]
    split
    · next hzero =>
        refine roundsTo_of_grid hround hlow ?_ (fun _ => trivial) (.inl rfl)
        rw [hzero, Nat.cast_zero, zero_mul]
        rfl
    · next hne =>
        exact roundsTo_of_grid hround hlow rfl id
          (.inr ⟨_, _, Nat.pos_of_ne_zero hne, rfl, hlt, by omega, hfull.symm⟩)
  · obtain ⟨hhalved, hexponent⟩ := shiftToTargetExponent_carry (e := E) (by omega)
    simp only [hcarry, hhalved, hexponent]
    refine roundsTo_of_grid (hcarry ▸ hround) hlow ?_ (fun _ => rfl)
      (.inr ⟨_, _, by decide, rfl, by decide, by omega, .inl le_rfl⟩)
    show ((2 ^ 52 : ℕ) : ℚ) * 2 ^ (E + 1) = (2 ^ 53 : ℕ) * 2 ^ E
    rw [zpow_add_one₀ (by decide)]
    push_cast
    ring

/-! ### Products and quotients -/

variable {sign' : Sign} {m' : ℕ} {e' : ℤ}

/-- A product of full mantissas is rounded once. -/
theorem roundsTo_mul (hpos : 0 < m) (hpos' : 0 < m') (hfine : 52 ≤ (m * m').log2) :
    RoundsTo (sign * sign') (m * 2 ^ e * (m' * 2 ^ e'))
      (UnpackedFloat.mul Format.binary64 (.finite sign m e hpos) (.finite sign' m' e' hpos')) := by
  refine roundsTo_roundWithAccuracy ?_ (le_max_of_le_left (by omega))
  have hexact : m * 2 ^ e * (m' * 2 ^ e') / 2 ^ (e + e') = ((m * m' : ℕ) : ℚ) := by
    rw [div_eq_iff (two_zpow_pos _).ne', zpow_add₀ (by decide)]
    push_cast
    ring
  rw [hexact]
  exact represents_exact _

theorem roundsTo_div (hpos : 0 < m) (hpos' : 0 < m') :
    RoundsTo (sign / sign') (m * 2 ^ e / (m' * 2 ^ e'))
      (UnpackedFloat.div Format.binary64 (.finite sign m e hpos) (.finite sign' m' e' hpos')) := by
  rw [UnpackedFloat.div, divCore]
  dsimp only
  have htarget : Format.binary64.targetExponent (totalExponent m e - totalExponent m' e') =
      max (m.log2 + e - (m'.log2 + e') - 53) (-1074) := by
    rw [Format.targetExponent, minExponent_binary64, totalExponent, totalExponent]
    show max (m.log2 + 1 + e - (m'.log2 + 1 + e') - (1 + 52 : ℕ)) _ = _
    omega
  rw [htarget, Nat.shiftLeft_eq]
  obtain ⟨target, hmin⟩ :
    ∃ target, target = min (e - e') (max (m.log2 + e - (m'.log2 + e') - 53) (-1074)) := ⟨_, rfl⟩
  rw [← hmin]
  have hshift : (2 : ℚ) ^ (e - e' - target).toNat * 2 ^ target = 2 ^ (e - e') := by
    rw [← zpow_natCast, ← zpow_add₀ (by decide), Int.toNat_of_nonneg (by omega), sub_add_cancel]
  refine roundsTo_roundWithAccuracy ?_ ?_
  · have hquotient : m * 2 ^ e / (m' * 2 ^ e') / 2 ^ target =
        ((m * 2 ^ (e - e' - target).toNat : ℕ) : ℚ) / m' := by
      have hne : (m' : ℚ) ≠ 0 := by exact_mod_cast hpos'.ne'
      rw [div_div, div_eq_div_iff (by positivity) hne]
      push_cast
      calc (m : ℚ) * 2 ^ e * m' = m * (2 ^ (e - e') * 2 ^ e') * m' := by
            rw [← zpow_add₀ (by decide), sub_add_cancel]
        _ = m * 2 ^ (e - e' - target).toNat * (m' * 2 ^ e' * 2 ^ target) := by
            rw [← hshift]
            ring
    rw [hquotient]
    exact represents_quotient _ hpos'
  · have hdigits := Single.log2_le_log2_div_add
      (Nat.mul_pos hpos (Nat.two_pow_pos (e - e' - target).toNat)) hpos'
    rw [log2_mul_pow hpos] at hdigits
    omega

end Unpacked

end FisheyeDock.Double
