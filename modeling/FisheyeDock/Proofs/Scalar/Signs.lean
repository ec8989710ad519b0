import Mathlib
import FisheyeDock.Plane

/-! # Signs

    Rounding and packing leave the sign of a number alone, and make nothing undefined of it that was
    not (`isNaN_unpack_pack`).  A square carries no sign, and so does what is reckoned from squares by
    sums and roots.  A distance from a finite point is therefore undefined only where a coordinate of
    the other point is (`isNaN_distance`), and is never below zero (`unsigned_distance`). -/

namespace FisheyeDock.Double

open Float.Model UnpackedFloat

/-! ## On unpacked values -/

section Unpacked

variable {format : Format} {sign : Sign} {f g : UnpackedFloat} {m : Nat} {e : Int}

/-- A number with a sign. -/
inductive HasSign (sign : Sign) : UnpackedFloat → Prop where
  | infinity : HasSign sign (.infinity sign)
  | zero : HasSign sign (.zero sign)
  | finite {m : Nat} {e : Int} (hpos : 0 < m) : HasSign sign (.finite sign m e hpos)

/-- What has a sign is a number. -/
theorem HasSign.isNaN (h : HasSign sign f) : f.isNaN = false := by
  cases h <;> rfl

/-- Every number has a sign. -/
theorem hasSign_of_isNaN_eq_false (h : f.isNaN = false) : ∃ sign, HasSign sign f := by
  cases f with
  | notANumber => exact nomatch h
  | infinity sign => exact ⟨sign, .infinity⟩
  | zero sign => exact ⟨sign, .zero⟩
  | finite sign m e hpos => exact ⟨sign, .finite hpos⟩

theorem hasSign_unpack_packComponents {exponent : BitVec format.exponentBits}
    {mantissa : BitVec format.mantissaBitsWithoutImplicit} (h : exponent ≠ -1#_ ∨ mantissa = 0#_) :
    HasSign sign (UnpackedFloat.unpack format (packComponents format sign exponent mantissa)) := by
  rw [UnpackedFloat.unpack]
  simp only [unpackExponent_packComponents, unpackMantissa_packComponents, unpackSign_packComponents,
    Sign.ofBitVec_toBitVec]
  split
  · next hones =>
      rw [if_pos (h.resolve_left (not_not_intro hones))]
      exact .infinity
  · split
    · split
      · exact .zero
      · exact .finite _
    · exact .finite _

/-- Packing keeps the sign of a number, however large it is. -/
theorem HasSign.packed (h : HasSign sign f) :
    HasSign sign (UnpackedFloat.unpack format (UnpackedFloat.pack format f)) := by
  have hinfinity : HasSign sign (UnpackedFloat.unpack format (packedInfinity format sign)) :=
    hasSign_unpack_packComponents (.inr rfl)
  cases h with
  | infinity => exact hinfinity
  | zero => exact hasSign_unpack_packComponents (.inr rfl)
  | finite hpos =>
      rw [UnpackedFloat.pack]
      split
      · exact hinfinity
      · next hhigh =>
          split
          · refine hasSign_unpack_packComponents (.inl fun hones => hhigh ?_)
            have hnat := congrArg BitVec.toNat hones
            rw [BitVec.toNat_ofNat, Nat.mod_eq_of_lt (by omega), BitVec.neg_one_eq_allOnes,
              BitVec.toNat_allOnes] at hnat
            rw [hnat]
            omega
          · refine hasSign_unpack_packComponents (.inl fun hones => ?_)
            have hnat := congrArg BitVec.toNat hones
            rw [BitVec.toNat_zero, BitVec.neg_one_eq_allOnes, BitVec.toNat_allOnes] at hnat
            have hbits := Nat.pow_lt_pow_right (by decide : 1 < 2) format.he
            omega

/-- Packing makes no number undefined. -/
theorem isNaN_unpack_pack (f : UnpackedFloat) :
    (UnpackedFloat.unpack format (UnpackedFloat.pack format f)).isNaN = f.isNaN := by
  cases hnan : f.isNaN with
  | true =>
      rw [isNaN_iff.mp hnan]
      exact congrArg UnpackedFloat.isNaN unpack_packedNaN
  | false =>
      obtain ⟨sign, hsign⟩ := hasSign_of_isNaN_eq_false hnan
      exact hsign.packed.isNaN

/-- An operation that hands on what is undefined on either side. -/
theorem isNaN_operation {operation : UnpackedFloat → UnpackedFloat → UnpackedFloat}
    (hleft : ∀ g, operation .notANumber g = .notANumber)
    (hright : ∀ f, operation f .notANumber = .notANumber) (h : f.isNaN = true ∨ g.isNaN = true) :
    (UnpackedFloat.unpack format (UnpackedFloat.pack format (operation f g))).isNaN = true := by
  rw [isNaN_unpack_pack]
  rcases h with h | h
  · rw [isNaN_iff.mp h, hleft]
    rfl
  · rw [isNaN_iff.mp h, hright]
    rfl

/-- Rounding keeps the sign. -/
theorem hasSign_roundWithAccuracy {accuracy : Accuracy} :
    HasSign sign (roundWithAccuracy format sign m e accuracy) := by
  unfold roundWithAccuracy
  dsimp only
  split
  · exact .zero
  · exact .finite _

/-- What is normalized with a sign has it. -/
theorem hasSign_normalize {n : Int} (hnonneg : 0 ≤ n) :
    HasSign .positive (normalize format n e .positive) := by
  unfold UnpackedFloat.normalize
  rcases Int.lt_or_eq_of_le hnonneg with hlt | rfl
  · rw [Int.compare_eq_gt.mpr hlt]
    exact hasSign_roundWithAccuracy
  · exact .zero

theorem isNaN_normalize {n : Int} {zeroSign : Sign} :
    (normalize format n e zeroSign).isNaN = false := by
  unfold UnpackedFloat.normalize
  split
  · exact hasSign_roundWithAccuracy.isNaN
  · rfl
  · exact hasSign_roundWithAccuracy.isNaN

/-- A square is not negative. -/
theorem HasSign.mul_self (h : HasSign sign f) : HasSign .positive (UnpackedFloat.mul format f f) := by
  cases h with
  | infinity => cases sign <;> exact .infinity
  | zero => cases sign <;> exact .zero
  | finite hpos => cases sign <;> exact hasSign_roundWithAccuracy

theorem HasSign.add (hf : HasSign .positive f) (hg : HasSign .positive g) :
    HasSign .positive (UnpackedFloat.add format f g) := by
  cases hf with
  | infinity => cases hg <;> exact .infinity
  | zero =>
      cases hg with
      | infinity => exact .infinity
      | zero => exact .zero
      | finite hpos => exact .finite hpos
  | finite hpos =>
      cases hg with
      | infinity => exact .infinity
      | zero => exact .finite hpos
      | finite =>
          exact hasSign_normalize (Int.add_nonneg (Int.natCast_nonneg _) (Int.natCast_nonneg _))

theorem HasSign.sqrt (h : HasSign .positive f) : HasSign .positive (UnpackedFloat.sqrt format f) := by
  cases h with
  | infinity => exact .infinity
  | zero => exact .zero
  | finite => exact hasSign_roundWithAccuracy

/-- To take something finite off a number leaves a number. -/
theorem isNaN_sub_of_isFinite (hg : g.isFinite = true) :
    (UnpackedFloat.sub format f g).isNaN = f.isNaN := by
  cases g with
  | infinity | notANumber => exact nomatch hg
  | zero sign =>
      cases f with
      | zero sign' => cases sign <;> cases sign' <;> rfl
      | notANumber | infinity | finite => rfl
  | finite =>
      cases f with
      | notANumber | infinity | zero => rfl
      | finite => exact isNaN_normalize

end Unpacked

/-! ## On doubles -/

section Doubles

variable {x y : Float}

/-- A double that is a number and carries no sign. -/
def Unsigned (x : Float) : Prop := HasSign .positive x.toModel.unpack

theorem Unsigned.isNaN (h : Unsigned x) : x.isNaN = false := HasSign.isNaN h

theorem isNaN_sub (hy : y.isFinite = true) : (x - y).isNaN = x.isNaN :=
  (isNaN_unpack_pack _).trans (isNaN_sub_of_isFinite hy)

theorem unsigned_mul_self (h : x.isNaN = false) : Unsigned (x * x) := by
  obtain ⟨sign, hsign⟩ := hasSign_of_isNaN_eq_false (f := x.toModel.unpack) h
  exact HasSign.packed (HasSign.mul_self hsign)

/-- A sum without a sign. -/
theorem Unsigned.add (hx : Unsigned x) (hy : Unsigned y) : Unsigned (x + y) :=
  HasSign.packed (HasSign.add hx hy)

/-- A root without a sign. -/
theorem Unsigned.sqrt (h : Unsigned x) : Unsigned x.sqrt := HasSign.packed (HasSign.sqrt h)

/-- An unsigned number is finite, or it is the infinity that all numbers are below. -/
theorem Unsigned.eq_infinity (h : Unsigned x) (hx : x.isFinite = false) :
    x.toModel.unpack = .infinity .positive := by
  have hunpacked : x.toModel.unpack.isFinite = false := hx
  unfold Unsigned at h
  generalize x.toModel.unpack = f at h hunpacked
  cases h with
  | infinity => rfl
  | zero | finite => exact nomatch hunpacked

theorem isFinite_of_isNaN (h : x.isNaN = true) : x.isFinite = false := by
  show x.toModel.unpack.isFinite = false
  rw [isNaN_iff.mp (show x.toModel.unpack.isNaN = true from h)]
  rfl

/-! ## Operations on what is undefined -/

theorem isNaN_add (h : x.isNaN = true ∨ y.isNaN = true) : (x + y).isNaN = true :=
  isNaN_operation (fun _ => rfl) (fun f => by cases f <;> rfl) h

theorem isNaN_mul (h : x.isNaN = true ∨ y.isNaN = true) : (x * y).isNaN = true :=
  isNaN_operation (fun _ => rfl) (fun f => by cases f <;> rfl) h

theorem isNaN_sqrt (h : x.isNaN = true) : x.sqrt.isNaN = true := by
  refine (isNaN_unpack_pack _).trans ?_
  rw [isNaN_iff.mp (show x.toModel.unpack.isNaN = true from h)]
  rfl

end Doubles

/-! ## Distances -/

section Distances

variable {p q : Point Float}

/-- From a finite point, the distance of a point with coordinates is a number, and not below zero. -/
theorem unsigned_distance (hq : q.isFinite = true) (hx : p.x.isNaN = false)
    (hy : p.y.isNaN = false) : Unsigned (p.distance q) := by
  obtain ⟨hqx, hqy⟩ := Bool.and_eq_true_iff.mp hq
  have hdx : (p.x - q.x).isNaN = false := (isNaN_sub hqx).trans hx
  have hdy : (p.y - q.y).isNaN = false := (isNaN_sub hqy).trans hy
  exact ((unsigned_mul_self hdx).add (unsigned_mul_self hdy)).sqrt

/-- Without one of its coordinates, a point is at no distance. -/
theorem isNaN_distance (hq : q.isFinite = true) (h : p.x.isNaN = true ∨ p.y.isNaN = true) :
    (p.distance q).isNaN = true := by
  obtain ⟨hqx, hqy⟩ := Bool.and_eq_true_iff.mp hq
  refine isNaN_sqrt (isNaN_add ?_)
  rcases h with hx | hy
  · exact .inl (isNaN_mul (.inl ((isNaN_sub hqx).trans hx)))
  · exact .inr (isNaN_mul (.inl ((isNaN_sub hqy).trans hy)))

end Distances

end FisheyeDock.Double
