import Mathlib.Data.Prod.Lex
import FisheyeDock.Proofs.Scalar.Double
import FisheyeDock.Proofs.Scalar.Real

/-! # The order of what is finite

    Sorting needs an order.  Scalars have one as far as they are finite: any two can be compared, and
    comparisons can be chained.  That is all that is asked of an `OrderedScalar`, and it holds of
    doubles, although they are not in order as a whole. -/

namespace FisheyeDock

/-- Scalars whose finite values are in order. -/
class OrderedScalar (α : Type) [Scalar α] : Prop where
  le_total : ∀ {a b : α}, Scalar.isFinite a = true → Scalar.isFinite b = true → a ≤ b ∨ b ≤ a
  le_trans : ∀ {a b c : α}, Scalar.isFinite a = true → Scalar.isFinite b = true →
    Scalar.isFinite c = true → a ≤ b → b ≤ c → a ≤ c

instance : OrderedScalar ℝ where
  le_total _ _ := le_total _ _
  le_trans _ _ _ := le_trans

namespace Double

open Float.Model

/-! ## On unpacked values -/

section Unpacked

variable {a b : UnpackedFloat} {m n : Nat} {e f : Int}

/-- Numbers are compared by exponent first, then by mantissa. -/
theorem isLE_then :
    ((compare e f).then (compare m n)).isLE = true ↔ e < f ∨ (e = f ∧ m ≤ n) := by
  rcases Int.lt_trichotomy e f with hlt | rfl | hgt
  · rw [Int.compare_eq_lt.mpr hlt]
    simp [Ordering.then, hlt]
  · simp [Ordering.then, Nat.isLE_compare]
  · rw [Int.compare_eq_gt.mpr hgt]
    simp [Ordering.then]
    omega

/-- On the other side of zero they are in the other order. -/
theorem isLE_swap_then :
    ((compare e f).then (compare m n)).swap.isLE = true ↔ f < e ∨ (e = f ∧ n ≤ m) := by
  rw [Ordering.swap_then, Int.compare_swap, Nat.compare_swap, isLE_then,
    eq_comm]

/-- A finite value by its sign, its exponent and its mantissa, in the order in which they count. -/
def rank : UnpackedFloat → ℤ ×ₗ ℤ ×ₗ ℤ
  | .finite .positive mantissa exponent _ => toLex (1, toLex (exponent, (mantissa : ℤ)))
  | .finite .negative mantissa exponent _ => toLex (-1, toLex (-exponent, -(mantissa : ℤ)))
  | _ => toLex (0, toLex (0, 0))

theorem toLex_le_iff {m n e f : ℤ} (s t : ℤ) :
    toLex (s, toLex (e, m)) ≤ toLex (t, toLex (f, n)) ↔
      s < t ∨ (s = t ∧ (e < f ∨ (e = f ∧ m ≤ n))) := by
  rw [Prod.Lex.toLex_le_toLex, Prod.Lex.toLex_le_toLex]

/-- So finite floats of one sign are compared by rank. -/
theorem le_iff_rank_le (ha : a.isFinite = true) (hb : b.isFinite = true) :
    a.le b = true ↔ rank a ≤ rank b := by
  cases a with
  | infinity | notANumber => exact absurd ha Bool.false_ne_true
  | zero =>
      cases b with
      | infinity | notANumber => exact absurd hb Bool.false_ne_true
      | zero => exact iff_of_true rfl (le_refl _)
      | finite sign =>
          cases sign with
          | positive => exact iff_of_true rfl ((toLex_le_iff 0 1).mpr (.inl (by decide)))
          | negative => exact iff_of_false nofun fun h => absurd ((toLex_le_iff 0 (-1)).mp h) (by simp)
  | finite sign m e =>
      cases b with
      | infinity | notANumber => exact absurd hb Bool.false_ne_true
      | zero =>
          cases sign with
          | positive => exact iff_of_false nofun fun h => absurd ((toLex_le_iff 1 0).mp h) (by simp)
          | negative => exact iff_of_true rfl ((toLex_le_iff (-1) 0).mpr (.inl (by decide)))
      | finite sign' n f =>
          cases sign with
          | positive =>
              cases sign' with
              | positive =>
                  refine isLE_then.trans (.trans ?_ (toLex_le_iff 1 1).symm)
                  simp
              | negative =>
                  exact iff_of_false nofun fun h => absurd ((toLex_le_iff 1 (-1)).mp h) (by simp)
          | negative =>
              cases sign' with
              | positive => exact iff_of_true rfl ((toLex_le_iff (-1) 1).mpr (.inl (by decide)))
              -- below zero, the larger exponent and mantissa come first
              | negative =>
                  refine isLE_swap_then.trans (.trans ?_ (toLex_le_iff (-1) (-1)).symm)
                  simp

end Unpacked

/-! ## On doubles -/

theorem le_iff_unpacked {x y : Float} :
    x ≤ y ↔ x.toModel.unpack.le y.toModel.unpack = true :=
  ⟨fun h => of_decide_eq_true h, fun h => decide_eq_true h⟩

instance : OrderedScalar Float where
  le_total ha hb := by
    rw [le_iff_unpacked, le_iff_unpacked, le_iff_rank_le ha hb, le_iff_rank_le hb ha]
    exact le_total _ _
  le_trans ha hb hc hab hbc := by
    rw [le_iff_unpacked, le_iff_rank_le ha hb] at hab
    rw [le_iff_unpacked, le_iff_rank_le hb hc] at hbc
    rw [le_iff_unpacked, le_iff_rank_le ha hc]
    exact le_trans hab hbc

end Double

end FisheyeDock
