import FisheyeDock.Proofs.Scalar.Ordered
import FisheyeDock.Proofs.Scalar.Undefined

/-! # Comparisons

    A search compares whatever it meets, infinite and undefined values included.  What it relies on is
    little: only numbers are below one another, of two numbers one is not above the other, and what is
    below stays below anything larger.  That is what a `ComparableScalar` offers, and it holds of
    doubles and of exact arithmetic alike. -/

namespace FisheyeDock

/-- Scalars that can be compared as far as they are numbers, infinities among them. -/
class ComparableScalar (α : Type) [Scalar α] : Prop where
  isUndefined_of_lt : ∀ {a b : α}, a < b →
    Scalar.isUndefined a = false ∧ Scalar.isUndefined b = false
  le_of_lt : ∀ {a b : α}, a < b → a ≤ b
  le_of_not_lt : ∀ {a b : α}, Scalar.isUndefined a = false → Scalar.isUndefined b = false →
    ¬ a < b → b ≤ a
  not_lt_of_le : ∀ {a b : α}, a ≤ b → ¬ b < a
  lt_of_lt_of_le : ∀ {a b c : α}, a < b → b ≤ c → a < c

instance : ComparableScalar ℝ where
  isUndefined_of_lt _ := ⟨rfl, rfl⟩
  le_of_lt := le_of_lt
  le_of_not_lt _ _ := le_of_not_gt
  not_lt_of_le := not_lt_of_ge
  lt_of_lt_of_le := lt_of_lt_of_le

namespace ComparableScalar

variable {α : Type} [Scalar α] [ComparableScalar α] {a b c : α}

/-- What is not undefined is not above itself. -/
theorem le_refl (h : Scalar.isUndefined a = false) : a ≤ a := by
  by_cases hlt : a < a
  · exact le_of_lt hlt
  · exact le_of_not_lt h h hlt

/-- What is within a bound and not below a value lies above all that is below the value. -/
theorem lt_of_lt_of_not_lt (hab : a < b) (hc : Scalar.isUndefined c = false) (hcb : ¬ c < b) :
    a < c :=
  lt_of_lt_of_le hab (le_of_not_lt hc (isUndefined_of_lt hab).2 hcb)

end ComparableScalar

namespace Double

open Float.Model

/-! ## On unpacked values -/

section Unpacked

variable {a b : UnpackedFloat}

/-- On which side of everything finite a number lies. -/
def side : UnpackedFloat → ℤ
  | .infinity .positive => 1
  | .infinity .negative => -1
  | _ => 0

/-- A number by its place in the order. -/
def height (f : UnpackedFloat) : ℤ ×ₗ ℤ ×ₗ ℤ ×ₗ ℤ := toLex (side f, rank f)

/-- Numbers are by their sides first, and by their ranks on one side. -/
theorem height_le_iff :
    height a ≤ height b ↔ side a < side b ∨ (side a = side b ∧ rank a ≤ rank b) :=
  Prod.Lex.toLex_le_toLex

/-- Floats are compared by height, where they are numbers. -/
theorem le_iff_height_le (ha : a.isNaN = false) (hb : b.isNaN = false) :
    a.le b = true ↔ height a ≤ height b := by
  rw [height_le_iff]
  cases a with
  | notANumber => exact nomatch ha
  | infinity sign =>
      cases b with
      | notANumber => exact nomatch hb
      | infinity sign' => cases sign <;> cases sign' <;> simp [side, rank] <;> rfl
      | zero | finite =>
          cases sign with
          | positive => exact iff_of_false nofun (by simp [side])
          | negative => exact iff_of_true rfl (.inl (by simp [side]))
  | zero | finite =>
      cases b with
      | notANumber => exact nomatch hb
      | infinity sign =>
          cases sign with
          | positive => exact iff_of_true rfl (.inl (by simp [side]))
          | negative => exact iff_of_false nofun (by simp [side])
      | zero | finite => exact (le_iff_rank_le rfl rfl).trans (by simp [side])

/-- Of two numbers, one is below the other just if the other is not at most the one. -/
theorem lt_iff_height_lt (ha : a.isNaN = false) (hb : b.isNaN = false) :
    a.lt b = true ↔ height a < height b := by
  rw [← not_le, ← le_iff_height_le hb ha, UnpackedFloat.lt, UnpackedFloat.le,
    Single.compare_swap a b]
  obtain ⟨order, horder⟩ := Single.exists_compare ha hb
  rw [horder]
  cases order <;> decide

/-- Only numbers compare. -/
theorem isNaN_of_compare {order : Ordering} (h : a.compare b = some order) :
    a.isNaN = false ∧ b.isNaN = false := by
  refine ⟨Bool.eq_false_iff.mpr fun ha => ?_, Bool.eq_false_iff.mpr fun hb => ?_⟩
  · rw [Single.compare_of_isNaN (.inl ha)] at h
    exact nomatch h
  · rw [Single.compare_of_isNaN (.inr hb)] at h
    exact nomatch h

end Unpacked

/-! ## On doubles -/

section Doubles

variable {x y : Float}

theorem lt_iff_unpacked : x < y ↔ x.toModel.unpack.lt y.toModel.unpack = true :=
  ⟨fun h => of_decide_eq_true h, fun h => decide_eq_true h⟩

/-- The place of a double in the order. -/
def place (x : Float) : ℤ ×ₗ ℤ ×ₗ ℤ ×ₗ ℤ := height x.toModel.unpack

/-- Doubles are compared by place, where they are numbers. -/
theorem le_iff_place_le (hx : x.isNaN = false) (hy : y.isNaN = false) :
    x ≤ y ↔ place x ≤ place y :=
  le_iff_unpacked.trans (le_iff_height_le hx hy)

theorem lt_iff_place_lt (hx : x.isNaN = false) (hy : y.isNaN = false) :
    x < y ↔ place x < place y :=
  lt_iff_unpacked.trans (lt_iff_height_lt hx hy)

theorem numbers_of_lt (h : x < y) : x.isNaN = false ∧ y.isNaN = false :=
  isNaN_of_compare (eq_of_beq (lt_iff_unpacked.mp h))

theorem numbers_of_le (h : x ≤ y) : x.isNaN = false ∧ y.isNaN = false := by
  have hle := le_iff_unpacked.mp h
  rw [UnpackedFloat.le] at hle
  cases hcompare : x.toModel.unpack.compare y.toModel.unpack with
  | none =>
      rw [hcompare] at hle
      exact absurd hle Bool.false_ne_true
  | some order => exact isNaN_of_compare hcompare

/-- No number is above infinity. -/
theorem le_of_infinity (hx : x.isNaN = false) (hy : y.toModel.unpack = .infinity .positive) :
    x ≤ y := by
  rw [le_iff_unpacked, hy]
  change x.toModel.unpack.isNaN = false at hx
  cases hunpack : x.toModel.unpack with
  | notANumber => exact nomatch hunpack ▸ hx
  | infinity sign => cases sign <;> rfl
  | zero | finite => rfl

end Doubles

instance : ComparableScalar Float where
  isUndefined_of_lt := numbers_of_lt
  le_of_lt h := by
    obtain ⟨ha, hb⟩ := numbers_of_lt h
    rw [lt_iff_place_lt ha hb] at h
    exact (le_iff_place_le ha hb).mpr h.le
  le_of_not_lt ha hb h := by
    rw [lt_iff_place_lt ha hb] at h
    exact (le_iff_place_le hb ha).mpr (not_lt.mp h)
  not_lt_of_le hle hlt := by
    obtain ⟨ha, hb⟩ := numbers_of_le hle
    rw [le_iff_place_le ha hb] at hle
    exact absurd ((lt_iff_place_lt hb ha).mp hlt) (not_lt.mpr hle)
  lt_of_lt_of_le hlt hle := by
    obtain ⟨ha, hb⟩ := numbers_of_lt hlt
    have hc := (numbers_of_le hle).2
    rw [lt_iff_place_lt ha hb] at hlt
    rw [le_iff_place_le hb hc] at hle
    exact (lt_iff_place_lt ha hc).mpr (hlt.trans_le hle)

end Double

end FisheyeDock
