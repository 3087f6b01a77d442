import Mathlib.Tactic
import Woodland.Decimal.Shortest

/-!
Quotients of natural numbers as rational numbers: moving a point by powers of two and of ten, and the nearest whole
number.
-/

namespace Woodland

section Shifts

variable (b n d k : ℕ)

lemma div_mul_pow : (n : ℚ) / (d * b ^ k : ℕ) = n / d / (b : ℚ) ^ (k : ℤ) := by
  rw [zpow_natCast, div_div]
  push_cast
  rfl

lemma mul_pow_div : ((n * b ^ (k + 1) : ℕ) : ℚ) / d = n / d / (b : ℚ) ^ Int.negSucc k := by
  rw [zpow_negSucc, div_inv_eq_mul, div_mul_eq_mul_div]
  push_cast
  rfl

end Shifts

namespace Binary

lemma ratio_lower (n d : ℕ) (e : ℤ) : ((lower n d e).1 : ℚ) / (lower n d e).2 = n / d / 2 ^ e := by
  cases e with
  | ofNat e => exact div_mul_pow 2 n d e
  | negSucc e => exact mul_pow_div 2 n d e

lemma lower_pos {n d : ℕ} (hd : 0 < d) (e : ℤ) : 0 < (lower n d e).2 := by
  cases e with
  | ofNat e => exact Nat.mul_pos hd (Nat.two_pow_pos e)
  | negSucc e => exact hd

lemma roundEven_cases (n : ℕ) {d : ℕ} (hd : 0 < d) : ∃ q r, n = d * q + r ∧ r < d ∧
    (roundEven n d = q ∧ (2 * r < d ∨ 2 * r = d ∧ q % 2 = 0) ∨
      roundEven n d = q + 1 ∧ (d < 2 * r ∨ 2 * r = d ∧ q % 2 = 1)) := by
  refine ⟨n / d, n % d, (Nat.div_add_mod n d).symm, Nat.mod_lt n hd, ?_⟩
  rw [roundEven]
  split_ifs with h
  · exact .inl ⟨rfl, h⟩
  · exact .inr ⟨rfl, by omega⟩

lemma abs_sub_roundEven_le (n : ℕ) {d : ℕ} (hd : 0 < d) : |(n : ℚ) / d - roundEven n d| ≤ 1 / 2 := by
  obtain ⟨q, r, rfl, hr, h⟩ := roundEven_cases n hd
  have hd' : (0 : ℚ) < d := by exact_mod_cast hd
  have hs : ((d * q + r : ℕ) : ℚ) / d = q + r / d := by
    push_cast
    field_simp
  have hr₀ : (0 : ℚ) ≤ r / d := by positivity
  have hr₁ : (r : ℚ) / d ≤ 1 := (div_le_one hd').mpr (by exact_mod_cast hr.le)
  rw [hs]
  rcases h with ⟨hq, h⟩ | ⟨hq, h⟩
  · have h₂ : (r : ℚ) / d ≤ 1 / 2 := by
      rw [div_le_div_iff₀ hd' two_pos]
      exact_mod_cast (show r * 2 ≤ 1 * d by omega)
    rw [hq, add_sub_cancel_left, abs_of_nonneg hr₀]
    exact h₂
  · have h₂ : 1 / 2 ≤ (r : ℚ) / d := by
      rw [div_le_div_iff₀ two_pos hd']
      exact_mod_cast (show 1 * d ≤ r * 2 by omega)
    rw [hq, abs_le]
    push_cast
    constructor <;> linarith

lemma roundEven_eq {n d m : ℕ} (hd : 0 < d) (h : |(n : ℚ) / d - m| ≤ 1 / 2)
    (hm : m % 2 = 1 → |(n : ℚ) / d - m| < 1 / 2) : roundEven n d = m := by
  have hd' : (0 : ℚ) < d := by exact_mod_cast hd
  have hx : (n : ℚ) = n / d * d := (div_mul_cancel₀ _ hd'.ne').symm
  obtain ⟨h₁, h₂⟩ := abs_le.mp h
  have hlo : 2 * m * d ≤ 2 * n + d := by
    have : (2 * m * d : ℚ) ≤ 2 * n + d := by nlinarith
    exact_mod_cast this
  have hhi : 2 * n ≤ 2 * m * d + d := by
    have : (2 * n : ℚ) ≤ 2 * m * d + d := by nlinarith
    exact_mod_cast this
  have hodd (ho : m % 2 = 1) : 2 * m * d < 2 * n + d ∧ 2 * n < 2 * m * d + d := by
    obtain ⟨h₁, h₂⟩ := abs_lt.mp (hm ho)
    constructor
    · have : (2 * m * d : ℚ) < 2 * n + d := by nlinarith
      exact_mod_cast this
    · have : (2 * n : ℚ) < 2 * m * d + d := by nlinarith
      exact_mod_cast this
  obtain ⟨q, r, rfl, hr, hq⟩ := roundEven_cases n hd
  have hqm : q ≤ m := by
    by_contra hc
    have : m * d + d ≤ d * q := by nlinarith
    nlinarith
  have hmq : m ≤ q + 1 := by
    by_contra hc
    have : d * q + 2 * d ≤ m * d := by nlinarith
    nlinarith
  rcases Nat.le_iff_lt_or_eq.mp hqm with hlt | rfl
  · obtain rfl : m = q + 1 := by omega
    have hs : 2 * (q + 1) * d = 2 * (d * q) + 2 * d := by ring
    rw [hs] at hlo hhi hodd
    omega
  · have hs : 2 * q * d = 2 * (d * q) := by ring
    rw [hs] at hlo hhi hodd
    omega

end Binary

namespace Decimal

lemma ratio_tenths (n d : ℕ) (k : ℤ) : ((tenths n d k).1 : ℚ) / (tenths n d k).2 = n / d / 10 ^ k := by
  cases k with
  | ofNat k => exact div_mul_pow 10 n d k
  | negSucc k => exact mul_pow_div 10 n d k

lemma tenths_pos {n d : ℕ} (hn : 0 < n) (hd : 0 < d) (k : ℤ) : 0 < (tenths n d k).1 ∧ 0 < (tenths n d k).2 := by
  cases k with
  | ofNat k => exact ⟨hn, Nat.mul_pos hd (Nat.pow_pos (by decide))⟩
  | negSucc k => exact ⟨Nat.mul_pos hn (Nat.pow_pos (by decide)), hd⟩

end Decimal

end Woodland
