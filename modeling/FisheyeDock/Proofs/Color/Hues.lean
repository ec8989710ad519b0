import FisheyeDock.Color.Model
import FisheyeDock.Proofs.Scalar.Undefined

/-! # Color models and what is undefined

    The models that begin with a hue go on with two numbers from zero to one.  From these all channels
    come out as numbers, whatever the hue is, because nothing on the way becomes too large and nothing
    is divided by zero; where one of the two is undefined, no channel is a number
    (`sound_ofLightness`, `sound_ofWhiteness`, `sound_ofValue`). -/

namespace FisheyeDock.Color

open Float.Model UnpackedFloat Single

/-- Every channel is a number, and below a power of two. -/
structure Channels.Bounded (place : Int) (c : Channels) : Prop where
  red : Within place c.red
  green : Within place c.green
  blue : Within place c.blue

/-- No channel is a number. -/
structure Channels.Unknown (c : Channels) : Prop where
  red : c.red.isNaN = true
  green : c.green.isNaN = true
  blue : c.blue.isNaN = true

/-- A model that makes numbers exactly out of numbers, whatever the hue is. -/
structure Sound (toChannels : Float32 → Float32 → Float32 → Channels) : Prop where
  bounded : ∀ {x y : Float32}, InUnit x → InUnit y → ∀ hue, ∃ place,
    (toChannels hue x y).Bounded place
  unknown : ∀ {x y : Float32}, x.isNaN = true ∨ y.isNaN = true → ∀ hue,
    (toChannels hue x y).Unknown

variable {low high hue saturation lightness white black value : Float32} {place : Int}

theorem within_one : Within 1 1.0 := inUnit_one.within

theorem within_half : Within 1 0.5 := by
  show UpTo 1 (.finite .positive (2 ^ 23) (-24) (by decide))
  exact .finite (by decide)

theorem within_two : Within 2 2.0 := by
  show UpTo 2 (.finite .positive (2 ^ 23) (-22) (by decide))
  exact .finite (by decide)

theorem within_four : Within 3 4.0 := by
  show UpTo 3 (.finite .positive (2 ^ 23) (-21) (by decide))
  exact .finite (by decide)

theorem beyond_two : Beyond 2 2.0 := by
  show From 2 (.finite .positive (2 ^ 23) (-22) (by decide))
  exact .finite rfl (by decide)

/-! ## Hue, saturation and lightness -/

/-- A channel between two numbers is a number at every hue: a hue that is undefined is below nothing. -/
theorem hueChannel_within (hlow : Within place low) (hhigh : Within place high) (hleast : -90 ≤ place)
    (hmost : place ≤ 92) (hue : Float32) : Within (place + 11) (hueChannel low high hue) := by
  have hspan : Within (place + 2) (high - low) := hhigh.sub hlow (by omega) (by omega)
  have hwrap := wrap_six_within hue
  unfold hueChannel
  dsimp only
  generalize wrap 6.0 hue = h at hwrap ⊢
  split
  · next hlt =>
      have hh : Within 4 h := hwrap.resolve_left (by rw [(isNaN_of_lt hlt).1]; exact nofun)
      have hpart : Within (place + 2 + 4 + 1) ((high - low) * h) :=
        hspan.mul hh (by omega) (by omega)
      exact ((hlow.mono (by omega)).add hpart (by omega) (by omega)).mono (by omega)
  · split
    · exact hhigh.mono (by omega)
    · split
      · next hlt =>
          have hh : Within 4 h := hwrap.resolve_left (by rw [(isNaN_of_lt hlt).1]; exact nofun)
          have hrest : Within (4 + 2) (4.0 - h) :=
            (within_four.mono (by decide)).sub hh (by decide) (by decide)
          have hpart : Within (place + 2 + (4 + 2) + 1) ((high - low) * (4.0 - h)) :=
            hspan.mul hrest (by omega) (by omega)
          exact ((hlow.mono (by omega)).add hpart (by omega) (by omega)).mono (by omega)
      · exact hlow.mono (by omega)

/-- Between two values that are no numbers, no channel is one, whatever the hue. -/
theorem hueChannel_of_isNaN (hlow : low.isNaN = true) (hhigh : high.isNaN = true) (hue : Float32) :
    (hueChannel low high hue).isNaN = true := by
  unfold hueChannel
  dsimp only
  split
  · exact isNaN_add (.inl hlow)
  · split
    · exact hhigh
    · split
      · exact isNaN_add (.inl hlow)
      · exact hlow

/-- Channels by lightness stay within bounds: a saturation within a place, scaled by the distance of
    the lightness from one half, and spread over the hues. -/
theorem ofLightness_bounded (hsaturation : Within place saturation) (hlightness : Within 6 lightness)
    (hleast : 6 ≤ place) (hmost : place ≤ 81) (hue : Float32) :
    (ofLightness hue saturation lightness).Bounded (place + 22) := by
  unfold ofLightness
  split
  · have hgray : Within (place + 22) lightness := hlightness.mono (by omega)
    exact ⟨hgray, hgray, hgray⟩
  · dsimp only
    generalize hhigh_eq : (if lightness < 0.5 then lightness * (1.0 + saturation)
      else lightness + saturation - lightness * saturation) = high
    have hhigh : Within (place + 9) high := by
      rw [← hhigh_eq]
      split
      · have hsum : Within (place + 2) (1.0 + saturation) :=
          (within_one.mono (by omega)).add hsaturation (by omega) (by omega)
        exact (hlightness.mul hsum (by omega) (by omega)).mono (by omega)
      · have hsum : Within (place + 2) (lightness + saturation) :=
          (hlightness.mono hleast).add hsaturation (by omega) (by omega)
        have hproduct : Within (6 + place + 1) (lightness * saturation) :=
          hlightness.mul hsaturation (by omega) (by omega)
        exact ((hsum.mono (by omega)).sub hproduct (by omega) (by omega)).mono (by omega)
    have hlow : Within (place + 11) (2.0 * lightness - high) := by
      have hdouble : Within (2 + 6 + 1) (2.0 * lightness) :=
        within_two.mul hlightness (by decide) (by decide)
      exact ((hdouble.mono (by omega)).sub hhigh (by omega) (by omega)).mono (by omega)
    have hchannel (hue : Float32) :
        Within (place + 22) (hueChannel (2.0 * lightness - high) high hue) :=
      (hueChannel_within hlow (hhigh.mono (by omega)) (by omega) (by omega) hue).mono (by omega)
    exact ⟨hchannel _, hchannel _, hchannel _⟩

/-- Where saturation or lightness is not a number, no channel is one. -/
theorem ofLightness_unknown (h : saturation.isNaN = true ∨ lightness.isNaN = true) (hue : Float32) :
    (ofLightness hue saturation lightness).Unknown := by
  unfold ofLightness
  split
  · next hzero =>
      have hlightness : lightness.isNaN = true := by
        refine h.resolve_left fun hsaturation => ?_
        rw [beq_of_isNaN (.inl hsaturation)] at hzero
        exact nomatch hzero
      exact ⟨hlightness, hlightness, hlightness⟩
  · dsimp only
    generalize hhigh_eq : (if lightness < 0.5 then lightness * (1.0 + saturation)
      else lightness + saturation - lightness * saturation) = high
    have hhigh : high.isNaN = true := by
      rw [← hhigh_eq]
      split
      · exact isNaN_mul (h.symm.imp_right fun hsaturation => isNaN_add (.inr hsaturation))
      · exact isNaN_sub (.inl (isNaN_add h.symm))
    have hlow : (2.0 * lightness - high).isNaN = true := isNaN_sub (.inr hhigh)
    have hchannel := hueChannel_of_isNaN hlow hhigh
    exact ⟨hchannel _, hchannel _, hchannel _⟩

/-- **CHANNELS BY LIGHTNESS ARE SOUND.** -/
theorem sound_ofLightness : Sound ofLightness where
  bounded hsaturation hlightness hue := ⟨_, ofLightness_bounded (hsaturation.within.mono (by decide))
    (hlightness.within.mono (by decide)) (le_refl 6) (by decide) hue⟩
  unknown := ofLightness_unknown

/-! ## Hue, whiteness and blackness -/

/-- A number from a power of two on has its first digit there at least. -/
theorem beyond_of_le {x y : Float32} {e : Int}
    (hx : x.toModel.unpack = .finite .positive (2 ^ 23) e (by decide)) (h : x ≤ y)
    (hy : Within place y) : Beyond (e + 1) y ∧
      ∃ m' e' hpos, y.toModel.unpack = .finite .positive m' e' hpos ∧ e ≤ e' := by
  have hle := le_iff_unpacked.mp h
  rw [hx] at hle
  unfold Within at hy
  cases hunpack : y.toModel.unpack with
  | notANumber | infinity =>
      rw [hunpack] at hy
      exact nomatch hy
  | zero =>
      rw [hunpack] at hle
      exact nomatch hle
  | finite sign m' e' hpos =>
      rw [hunpack] at hle
      cases sign with
      | negative => exact nomatch hle
      | positive =>
          have he : e ≤ e' := by
            rcases Double.isLE_then.mp hle with hlt | ⟨heq, -⟩ <;> omega
          refine ⟨?_, m', e', hpos, rfl, he⟩
          rw [Beyond, hunpack]
          refine .finite (fits_of_unpack hunpack).1 ?_
          unfold totalExponent
          omega

theorem unpack_one : (1.0 : Float32).toModel.unpack =
    .finite .positive (2 ^ 23) (-23) (by decide) := rfl

theorem unpack_two : (2.0 : Float32).toModel.unpack =
    .finite .positive (2 ^ 23) (-22) (by decide) := rfl

theorem unpack_half : (0.5 : Float32).toModel.unpack =
    .finite .positive (2 ^ 23) (-24) (by decide) := rfl

/-- White and black in units leave channels within bounds, also where their sum is scaled to one. -/
theorem ofWhiteness_bounded (hwhite : InUnit white) (hblack : InUnit black) (hue : Float32) :
    (ofWhiteness hue white black).Bounded 36 := by
  have hsum : Within (1 + 2) (white + black) :=
    hwhite.within.add hblack.within (by decide) (by decide)
  unfold ofWhiteness
  split
  · next hone =>
      have hgray : Within (1 - (-23 + 1) + 2) (white / (white + black)) :=
        hwhite.within.div (beyond_of_le unpack_one hone hsum).1 (by decide) (by decide)
      exact ⟨hgray.mono (by decide), hgray.mono (by decide), hgray.mono (by decide)⟩
  · have hpure : (ofLightness hue 1.0 0.5).Bounded (6 + 22) :=
      ofLightness_bounded (within_one.mono (by decide)) (within_half.mono (by decide)) (by decide)
        (by decide) hue
    have hrest : Within (1 + 2 + 2) (1.0 - white - black) :=
      (within_one.sub hwhite.within (by decide) (by decide)).sub (hblack.within.mono (by decide))
        (by decide) (by decide)
    have hmixed : ∀ {c : Float32}, Within (6 + 22) c →
        Within 36 (c * (1.0 - white - black) + white) := by
      intro c hc
      have hproduct : Within (6 + 22 + (1 + 2 + 2) + 1) (c * (1.0 - white - black)) :=
        hc.mul hrest (by decide) (by decide)
      exact hproduct.add (hwhite.within.mono (by decide)) (by decide) (by decide)
    exact ⟨hmixed hpure.red, hmixed hpure.green, hmixed hpure.blue⟩

/-- Where white or black is not a number, no channel is one. -/
theorem ofWhiteness_unknown (h : white.isNaN = true ∨ black.isNaN = true) (hue : Float32) :
    (ofWhiteness hue white black).Unknown := by
  have hmixed (c : Float32) : (c * (1.0 - white - black) + white).isNaN = true := by
    refine isNaN_add (.inl (isNaN_mul (.inr (isNaN_sub ?_))))
    exact h.imp_left fun hwhite => isNaN_sub (.inr hwhite)
  unfold ofWhiteness
  rw [if_neg (not_le_of_isNaN (.inr (isNaN_add h)))]
  exact ⟨hmixed _, hmixed _, hmixed _⟩

/-- **CHANNELS BY WHITENESS ARE SOUND.** -/
theorem sound_ofWhiteness : Sound ofWhiteness where
  bounded hwhite hblack hue := ⟨_, ofWhiteness_bounded hwhite hblack hue⟩
  unknown := ofWhiteness_unknown

/-! ## Hue, saturation and value -/

/-- A difference of two floats that are not equal is not too small: it is at least one unit of the
    smaller exponent. -/
theorem beyond_sub {x y : Float32} {sign sign' : Sign} {m m' : Nat} {e e' : Int} {hpos : 0 < m}
    {hpos' : 0 < m'} {n : Int} (hx : x.toModel.unpack = .finite sign m e hpos)
    (hy : y.toModel.unpack = .finite sign' m' e' hpos')
    (hn : sign.apply (m <<< (e - min e e').toNat : Nat) -
      sign'.apply (m' <<< (e' - min e e').toNat : Nat) = n) (hne : n ≠ 0)
    (hlow : place ≤ totalExponent n.natAbs (min e e')) (hplace : -148 ≤ place)
    (hx' : Within 24 x) (hy' : Within 24 y) : Beyond place (x - y) := by
  have hfrom : From place
      (UnpackedFloat.sub Format.binary32 x.toModel.unpack y.toModel.unpack) := by
    rw [hx, hy]
    exact from_sub hn hne hlow hplace
  exact hfrom.packed (UpTo.sub hx' hy' (by decide)) (by decide)

/-- Two without a number from zero to one is not below one. -/
theorem beyond_two_sub (h : InUnit saturation) : Beyond 1 (2.0 - saturation) := by
  obtain ⟨sign, hzero⟩ | ⟨m, e, hpos, hunpack, hfits, hle⟩ := h.unpacked
  · have hfrom : From 1
        (UnpackedFloat.sub Format.binary32 (2.0 : Float32).toModel.unpack
          saturation.toModel.unpack) := by
      rw [hzero, unpack_two]
      exact .finite rfl (by decide)
    exact hfrom.packed (UpTo.sub within_two (h.within.mono (by decide)) (by decide)) (by decide)
  · obtain ⟨d, rfl⟩ : ∃ d : Nat, e = -d := ⟨(-e).toNat, by omega⟩
    have hm : m ≤ 2 ^ d := by
      rcases hle with hlt | ⟨heq, rfl⟩
      · have hlog : m < 2 ^ 24 := by
          refine (Nat.log2_lt hpos.ne').mp ?_
          unfold Fits totalExponent at hfits
          omega
        exact hlog.le.trans (Nat.pow_le_pow_right (by decide) (by omega))
      · exact Nat.pow_le_pow_right (by decide) (by omega)
    have hmin : min (-22) (-(d : Int)) = -d := by omega
    have hshift : (-22 - min (-22) (-(d : Int))).toNat = d - 22 := by omega
    have hnone : (-(d : Int) - min (-22) (-(d : Int))).toNat = 0 := by omega
    have hdouble : 2 ^ 23 * 2 ^ (d - 22) = 2 * 2 ^ d := by
      rw [← Nat.pow_add, ← Nat.pow_succ']
      congr 1
      omega
    have hpow := Nat.two_pow_pos d
    have habs : (((2 * 2 ^ d : Nat) : Int) - m).natAbs = 2 * 2 ^ d - m := by omega
    refine beyond_sub (n := ((2 * 2 ^ d : Nat) : Int) - m) unpack_two hunpack ?_ (by omega) ?_
      (by decide) (within_two.mono (by decide)) (h.within.mono (by decide))
    · rw [hshift, hnone, Nat.shiftLeft_eq, hdouble]
      rfl
    · have hlog : d ≤ (2 * 2 ^ d - m).log2 := (Nat.le_log2 (by omega)).mpr (by omega)
      rw [habs, hmin]
      unfold totalExponent
      omega

/-- Nothing is rounded where a number with a full mantissa is doubled. -/
theorem unpack_double {x : Float32} {sign : Sign} {m : Nat} {e : Int} {hpos : 0 < m}
    (hx : x.toModel.unpack = .finite sign m e hpos) (hfull : m.log2 = 23) (hleast : -149 ≤ e)
    (hmost : e ≤ 100) : (x * 2.0).toModel.unpack = .finite sign m (e + 1) hpos := by
  have hsign : sign * .positive = sign := by cases sign <;> rfl
  have hround : UnpackedFloat.mul Format.binary32 (.finite sign m e hpos)
      (.finite .positive (2 ^ 23) (-22) (by decide)) = .finite sign m (e + 1) hpos := by
    rw [UnpackedFloat.mul, hsign, show e + -22 = e + 1 - (23 : Nat) by omega]
    exact Double.roundWithAccuracy_mul_pow hpos hfull (show -149 ≤ e + 1 by omega) 23
  have hmul : (x * 2.0).toModel.unpack = UnpackedFloat.unpack Format.binary32
      (UnpackedFloat.pack Format.binary32 (UnpackedFloat.mul Format.binary32 x.toModel.unpack
        (2.0 : Float32).toModel.unpack)) := rfl
  rw [hmul, hx, unpack_two, hround]
  refine unpack_pack_fits ?_ ?_
  · unfold Fits totalExponent
    omega
  · unfold totalExponent
    omega

/-- What is not zero is beyond the least exponent of all. -/
theorem beyond_of_ne_zero {x : Float32} (hx : Within place x) (hne : ¬ (x == 0.0) = true) :
    Beyond (-148) x := by
  unfold Within at hx
  cases hunpack : x.toModel.unpack with
  | notANumber | infinity =>
      rw [hunpack] at hx
      exact nomatch hx
  | zero sign =>
      refine absurd ?_ hne
      show (x.toModel.unpack.compare (.zero .positive) == some .eq) = true
      rw [hunpack]
      rfl
  | finite sign m e hpos =>
      obtain ⟨hfits, -⟩ := fits_of_unpack hunpack
      rw [Beyond, hunpack]
      refine .finite hfits ?_
      unfold Fits at hfits
      unfold totalExponent at hfits ⊢
      omega

/-- From a half on, a doubled number and two are whole multiples of one step, so that they are a step
    apart if they differ. -/
theorem beyond_gap {m : Nat} {e : Int} {hpos : 0 < m}
    (hunpack : lightness.toModel.unpack = .finite .positive m e hpos) (he : -24 ≤ e)
    (hlightness : Within 6 lightness) (hne : ¬ (lightness == 1.0) = true) :
    Beyond (-22) (2.0 - lightness * 2.0) := by
  obtain ⟨hfits, -⟩ := fits_of_unpack hunpack
  have hplace : totalExponent m e ≤ 6 := by
    rw [Within, hunpack] at hlightness
    cases hlightness with
    | finite le => exact le
  have hfull : m.log2 = 23 := by
    unfold Fits totalExponent at hfits
    omega
  unfold totalExponent at hplace
  have hdouble := unpack_double hunpack hfull (by omega) (by omega)
  have hwithin : Within (6 + 2 + 1) (lightness * 2.0) :=
    hlightness.mul within_two (by decide) (by decide)
  refine beyond_sub unpack_two hdouble rfl ?_ ?_ (by decide) (within_two.mono (by decide))
    (hwithin.mono (by decide))
  · intro hzero
    have hsame : 2 ^ 23 * 2 ^ (-22 - min (-22) (e + 1)).toNat =
        m * 2 ^ (e + 1 - min (-22) (e + 1)).toNat := by
      rw [← Nat.shiftLeft_eq, ← Nat.shiftLeft_eq]
      exact Int.ofNat_inj.mp (Int.sub_eq_zero.mp hzero)
    have hlog := congrArg Nat.log2 hsame
    rw [Double.log2_mul_pow (by decide), Double.log2_mul_pow hpos, hfull, Nat.log2_two_pow] at hlog
    obtain rfl : e = -23 := by omega
    have hm : m = 2 ^ 23 := by simpa using hsame.symm
    refine hne ?_
    show (lightness.toModel.unpack.compare (1.0 : Float32).toModel.unpack == some .eq) = true
    rw [hunpack, unpack_one]
    subst hm
    rfl
  · unfold totalExponent
    omega

section Value

variable (hsaturation : InUnit saturation) (hvalue : InUnit value)

include hsaturation hvalue

/-- Twice the lightness, from a saturation and a value in units. -/
theorem value_within : Within 6 ((2.0 - saturation) * value) := by
  have hrest : Within (2 + 2) (2.0 - saturation) :=
    within_two.sub (hsaturation.within.mono (by decide)) (by decide) (by decide)
  exact hrest.mul hvalue.within (by decide) (by decide)

theorem lightness_within : Within 6 ((2.0 - saturation) * value / 2.0) :=
  (value_within hsaturation hvalue).div beyond_two (by decide) (by decide)

/-- The share of color in what is dark: where the value is too small for its first digit to be known,
    so is the numerator. -/
theorem dark_within (hne : ¬ ((2.0 - saturation) * value / 2.0 == 0.0) = true) :
    Within 81 (saturation * value / ((2.0 - saturation) * value / 2.0 * 2.0)) := by
  have hlightness := lightness_within hsaturation hvalue
  have hsmall : Within (-72) value ∨ Beyond (-71) value := by
    obtain ⟨sign, hzero⟩ | ⟨m, e, hpos, hunpack, hfits, -⟩ := hvalue.unpacked
    · rw [Within, hzero]
      exact .inl .zero
    · rw [Within, Beyond, hunpack]
      rcases le_or_gt (totalExponent m e) (-72) with hle | hlt
      · exact .inl (.finite hle)
      · exact .inr (.finite hfits (by omega))
  rcases hsmall with hsmall | hlarge
  · have hproduct : Within (1 + -72 + 1) (saturation * value) :=
      hsaturation.within.mul hsmall (by decide) (by decide)
    have hdouble : Beyond (-148 + 2 - 1) ((2.0 - saturation) * value / 2.0 * 2.0) :=
      (beyond_of_ne_zero hlightness hne).mul beyond_two (hlightness.mono (by decide))
        (within_two.mono (by decide)) (by decide)
    exact (hproduct.div hdouble (by decide) (by decide)).mono (by decide)
  · have hproduct : Within (1 + 1 + 1) (saturation * value) :=
      hsaturation.within.mul hvalue.within (by decide) (by decide)
    have hrest : Within (2 + 2) (2.0 - saturation) :=
      within_two.sub (hsaturation.within.mono (by decide)) (by decide) (by decide)
    have hlit : Beyond (1 + -71 - 1) ((2.0 - saturation) * value) :=
      (beyond_two_sub hsaturation).mul hlarge (hrest.mono (by decide))
        (hvalue.within.mono (by decide)) (by decide)
    have hhalf : Beyond (1 + -71 - 1 - 2) ((2.0 - saturation) * value / 2.0) :=
      hlit.div ((value_within hsaturation hvalue).mono (by decide)) beyond_two within_two (by decide)
        (by decide) (by decide)
    have hdouble : Beyond (1 + -71 - 1 - 2 + 2 - 1) ((2.0 - saturation) * value / 2.0 * 2.0) :=
      hhalf.mul beyond_two (hlightness.mono (by decide)) (within_two.mono (by decide)) (by decide)
    exact (hproduct.div hdouble (by decide) (by decide)).mono (by decide)

/-- The share of color in what is bright. -/
theorem bright_within (hdark : ¬ (2.0 - saturation) * value / 2.0 < 0.5)
    (hne : ¬ ((2.0 - saturation) * value / 2.0 == 1.0) = true) :
    Within 81 (saturation * value / (2.0 - (2.0 - saturation) * value / 2.0 * 2.0)) := by
  have hlightness := lightness_within hsaturation hvalue
  have hproduct : Within (1 + 1 + 1) (saturation * value) :=
    hsaturation.within.mul hvalue.within (by decide) (by decide)
  generalize (2.0 - saturation) * value / 2.0 = lightness at *
  have hhalf : 0.5 ≤ lightness := le_of_not_lt hlightness.isNaN within_half.isNaN hdark
  obtain ⟨-, m, e, hpos, hunpack, he⟩ := beyond_of_le unpack_half hhalf hlightness
  have hgap : Beyond (-22) (2.0 - lightness * 2.0) :=
    beyond_gap hunpack he hlightness hne
  exact (hproduct.div hgap (by decide) (by decide)).mono (by decide)

/-- Channels by value stay within bounds: they are those of a lightness, whose saturation is a
    quotient that the lightness keeps away from zero. -/
theorem ofValue_bounded (hue : Float32) : (ofValue hue saturation value).Bounded (81 + 22) := by
  have hlightness := lightness_within hsaturation hvalue
  unfold ofValue
  refine ofLightness_bounded ?_ hlightness (by decide) (by decide) hue
  split
  · exact hsaturation.within.mono (by decide)
  · next hzero =>
      split
      · exact inUnit_zero.within.mono (by decide)
      · next hone =>
          split
          · exact dark_within hsaturation hvalue hzero
          · next hdark => exact bright_within hsaturation hvalue hdark hone

end Value

/-- Where saturation or value is not a number, no channel is one. -/
theorem ofValue_unknown (h : saturation.isNaN = true ∨ value.isNaN = true) (hue : Float32) :
    (ofValue hue saturation value).Unknown := by
  have hlightness : ((2.0 - saturation) * value / 2.0).isNaN = true :=
    isNaN_div (.inl (isNaN_mul (h.imp_left fun hsaturation => isNaN_sub (.inr hsaturation))))
  exact ofLightness_unknown (.inr hlightness) hue

/-- **CHANNELS BY VALUE ARE SOUND.** -/
theorem sound_ofValue : Sound ofValue where
  bounded hsaturation hvalue hue := ⟨_, ofValue_bounded hsaturation hvalue hue⟩
  unknown := ofValue_unknown

/-! ## Opponent axes -/

/-- The power that light is encoded by keeps what is not a number. -/
theorem encodeLight_of_isNaN {light : Float32} (h : light.isNaN = true) :
    (encodeLight light).isNaN = true := by
  unfold encodeLight
  rw [if_neg (not_le_of_isNaN (.inr h))]
  exact isNaN_mul (.inr h)

/-- Where an opponent is not a number, it spoils every cone and with them every channel. -/
theorem ofOpponents_unknown {a b : Float32} (h : a.isNaN = true ∨ b.isNaN = true)
    (lightness : Float32) : (ofOpponents lightness a b).Unknown := by
  -- one share of light that is no number is enough, since all channels have a part of each
  have hcone : (lightness - 0.0894841775 * a - 1.2914855480 * b).isNaN = true := by
    refine isNaN_sub (h.imp (fun ha => ?_) fun hb => isNaN_mul (.inr hb))
    exact isNaN_sub (.inr (isNaN_mul (.inr ha)))
  unfold ofOpponents
  dsimp only
  generalize lightness - 0.0894841775 * a - 1.2914855480 * b = cone at hcone ⊢
  have hlight : (cone * cone * cone).isNaN = true := isNaN_mul (.inr hcone)
  exact ⟨encodeLight_of_isNaN (isNaN_add (.inr (isNaN_mul (.inr hlight)))),
    encodeLight_of_isNaN (isNaN_sub (.inr (isNaN_mul (.inr hlight)))),
    encodeLight_of_isNaN (isNaN_add (.inr (isNaN_mul (.inr hlight))))⟩

end FisheyeDock.Color
