import Mathlib.Tactic
import Woodland.Proofs.Geometry.ExactFrames
import Woodland.Proofs.Numbers.SingleLaws
import Woodland.Tree.Turtle

/-!
What exact arithmetic and arithmetic rounded to single precision have in common: products with a factor that is not
negative and differences keep the order of their operands, whether they overflow or not.
-/

namespace Woodland

namespace Scalar

class Ordered (α : Type) [Scalar α] : Prop where
  le_refl {x : α} : isFinite x → x ≤ x
  le_of_lt {x y : α} : x < y → x ≤ y
  lt_of_lt_of_le {x y z : α} : x < y → y ≤ z → x < z
  le_of_not_lt {x y : α} : isFinite x → isFinite y → ¬x < y → y ≤ x
  finite_of_between {x y z : α} : isFinite x → isFinite z → x ≤ y → y ≤ z → isFinite y
  finite_ofNat {n : ℕ} : n < 2 ^ 32 → isFinite (ofNat n : α)
  ofNat_le_ofNat {m n : ℕ} : m ≤ n → n < 2 ^ 32 → (ofNat m : α) ≤ ofNat n
  mul_le_mul_left {c x y : α} : isFinite c → 0 ≤ c → isFinite x → isFinite y → x ≤ y → c * x ≤ c * y
  mul_le_mul_right {c x y : α} : isFinite c → 0 ≤ c → isFinite x → isFinite y → x ≤ y → x * c ≤ y * c
  sub_le_sub_left {a x y : α} : isFinite a → x ≤ y → a - y ≤ a - x
  one_sub_zero_mul {x : α} : isFinite x → 1 - ofNat 0 * x = 1
  mul_one {x : α} : isFinite x → x * 1 = x
  finite_zero : isFinite (0 : α)
  finite_one : isFinite (1 : α)
  finite_taperFloor : isFinite (Pose.taperFloor : α)
  taperFloor_lt_one : (Pose.taperFloor : α) < 1

end Scalar

instance : Scalar.Ordered ℝ where
  le_refl _ := le_rfl
  le_of_lt := le_of_lt
  lt_of_lt_of_le := lt_of_lt_of_le
  le_of_not_lt _ _ := le_of_not_gt
  finite_of_between _ _ _ _ := rfl
  finite_ofNat _ := rfl
  ofNat_le_ofNat h _ := Nat.cast_le.mpr h
  mul_le_mul_left _ hc _ _ h := mul_le_mul_of_nonneg_left h hc
  mul_le_mul_right _ hc _ _ h := mul_le_mul_of_nonneg_right h hc
  sub_le_sub_left _ h := sub_le_sub_left h _
  one_sub_zero_mul {x} _ := by
    change 1 - ((0 : ℕ) : ℝ) * x = 1
    simp
  mul_one _ := mul_one _
  finite_zero := rfl
  finite_one := rfl
  finite_taperFloor := rfl
  taperFloor_lt_one := by
    change (0.3 : ℝ) < 1
    norm_num

instance : Scalar.Ordered Float32 where
  le_refl h := (Single.le_iff_exact h h).mpr le_rfl
  le_of_lt h := by
    obtain ⟨hx, hy⟩ := Single.numbers_of_lt h
    exact (Single.le_iff_of_numbers hx hy).mpr ((Single.lt_iff_of_numbers hx hy).mp h).le
  lt_of_lt_of_le h h' := by
    obtain ⟨hx, hy⟩ := Single.numbers_of_lt h
    obtain ⟨-, hz⟩ := Single.numbers_of_le h'
    rw [Single.lt_iff_of_numbers hx hy] at h
    exact (Single.lt_iff_of_numbers hx hz).mpr (h.trans_le ((Single.le_iff_of_numbers hy hz).mp h'))
  le_of_not_lt hx hy := Single.le_of_not_lt (Single.isNaN_of_isFinite hx) (Single.isNaN_of_isFinite hy)
  finite_of_between := Single.isFinite_of_bounds
  finite_ofNat h := by
    obtain ⟨u, hu, hx⟩ := Single.exists_roundsTo_ofNat _
    exact Single.isFinite_of_roundsTo hu (by positivity) (by exact_mod_cast h.le) hx
  ofNat_le_ofNat {m n} h _ := by
    obtain ⟨u, hu, hx⟩ := Single.exists_roundsTo_ofNat m
    obtain ⟨v, hv, hy⟩ := Single.exists_roundsTo_ofNat n
    exact hu.le hv (by exact_mod_cast h) hx hy
  mul_le_mul_left := Single.mul_le_mul_left
  mul_le_mul_right := Single.mul_le_mul_right
  sub_le_sub_left := Single.sub_le_sub_left
  one_sub_zero_mul := Single.one_sub_zero_mul
  mul_one := Single.mul_one_of_finite
  finite_zero := rfl
  finite_one := rfl
  finite_taperFloor := rfl
  taperFloor_lt_one := by decide

end Woodland
