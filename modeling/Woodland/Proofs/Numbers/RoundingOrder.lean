import Mathlib.Tactic
import Woodland.Proofs.Numbers.Nearest

/-!
Rounding to a binary format keeps the order of numbers, signs included. Exponents have no upper end here: what is too
large for the format is a matter of writing it down.
-/

namespace Woodland.Binary

def Nearest (k : ℤ) (x : ℚ) : Prop := |x - k| ≤ 1 / 2 ∧ (Odd k → |x - k| < 1 / 2)

namespace Nearest

variable {k k' : ℤ} {x x' : ℚ}

lemma of_lt (h : |x - k| < 1 / 2) : Nearest k x := ⟨h.le, fun _ => h⟩

lemma of_even (hk : Even k) (h : |x - k| ≤ 1 / 2) : Nearest k x :=
  ⟨h, fun ho => absurd hk (Int.not_even_iff_odd.mpr ho)⟩

lemma self (k : ℤ) : Nearest k k := by
  apply of_lt
  norm_num

lemma neg (h : Nearest k x) : Nearest (-k) (-x) := by
  have hs : |-x - (-k : ℤ)| = |x - k| := by
    push_cast
    rw [← abs_neg]
    congr 1
    ring
  unfold Nearest
  rwa [hs, odd_neg]

lemma le (h : Nearest k x) (h' : Nearest k' x') (hx : x ≤ x') : k ≤ k' := by
  by_contra hlt
  have hk : (k' : ℚ) + 1 ≤ k := by exact_mod_cast (show k' + 1 ≤ k by omega)
  obtain ⟨hlo, -⟩ := abs_le.mp h.1
  obtain ⟨-, hhi⟩ := abs_le.mp h'.1
  -- both numbers lie half way, and one of two neighbours is odd
  have hkk : k = k' + 1 := by
    have : (k : ℚ) = k' + 1 := by linarith
    exact_mod_cast this
  rcases Int.even_or_odd k with he | ho
  · have ho : Odd k' := by
      rw [hkk] at he
      exact Int.not_even_iff_odd.mp (Int.even_add_one.mp he)
    have hhi := (abs_lt.mp (h'.2 ho)).2
    linarith
  · have hlo := (abs_lt.mp (h.2 ho)).1
    linarith

end Nearest

namespace Format

variable {f : Format} {x x' y y' : ℚ} {m : ℕ} {k k' e e' : ℤ}

def Rounds (f : Format) (x y : ℚ) : Prop := ∃ k e : ℤ, f.Fits |x| e ∧ Nearest k (x / 2 ^ e) ∧ y = k * 2 ^ e

lemma Canonical.rounds (h : f.Canonical m e) : f.Rounds (m * 2 ^ e) (m * 2 ^ e) := by
  have hu : (0 : ℚ) < 2 ^ e := by positivity
  refine ⟨m, e, ?_, ?_, by push_cast; rfl⟩
  · rw [abs_of_nonneg (by positivity)]
    refine ⟨h.low, ?_, ?_⟩
    · exact mul_lt_mul_of_pos_right (by exact_mod_cast h.lt) hu
    · exact h.full.imp_left fun hm => mul_le_mul_of_nonneg_right (by exact_mod_cast hm) hu.le
  · rw [mul_div_cancel_right₀ _ hu.ne']
    exact Nearest.self m

namespace Rounds

lemma neg (h : f.Rounds x y) : f.Rounds (-x) (-y) := by
  obtain ⟨k, e, hf, hk, rfl⟩ := h
  refine ⟨-k, e, by rwa [abs_neg], ?_, by push_cast; ring⟩
  rw [neg_div]
  exact hk.neg

lemma zero (f : Format) : f.Rounds 0 0 := by
  refine ⟨0, f.leastExponent, ⟨le_rfl, ?_, .inr rfl⟩, ?_, by simp⟩
  · rw [abs_zero]
    have hl : (0 : ℚ) < f.leading := by exact_mod_cast leading_pos
    positivity
  · rw [zero_div]
    exact Nearest.self 0

lemma le_of_weight_lt (hf : f.Fits |x| e) (hf' : f.Fits |x'| e') (hk : Nearest k (x / 2 ^ e))
    (hk' : Nearest k' (x' / 2 ^ e')) (he : e < e') (h : x ≤ x') : (k : ℚ) * 2 ^ e ≤ k' * 2 ^ e' := by
  have hu : (0 : ℚ) < 2 ^ e := by positivity
  have hu' : (0 : ℚ) < 2 ^ e' := by positivity
  have hl : (0 : ℚ) < f.leading := by exact_mod_cast leading_pos
  have hweight : 2 * f.leading * 2 ^ e ≤ (f.leading : ℚ) * 2 ^ e' := by
    have hp : (2 : ℚ) ^ (e + 1) ≤ 2 ^ e' := zpow_le_zpow_right₀ one_le_two (by omega)
    rw [zpow_add_one₀ two_ne_zero] at hp
    nlinarith
  have hlow : f.leading * 2 ^ e' ≤ |x'| := hf'.full.resolve_right (by have := hf.low; omega)
  have hpos : 0 ≤ x' := by
    by_contra hneg
    have hlt := hf.lt
    rw [abs_of_neg (by linarith)] at hlow
    rw [abs_of_neg (by linarith)] at hlt
    linarith
  have hk₁ : k ≤ 2 * f.leading := by
    apply hk.le (Nearest.self _)
    rw [div_le_iff₀ hu]
    push_cast
    exact (le_abs_self x).trans hf.lt.le
  have hk₂ : (f.leading : ℤ) ≤ k' := by
    apply (Nearest.self _).le hk'
    rw [le_div_iff₀ hu', ← abs_of_nonneg hpos]
    exact_mod_cast hlow
  calc (k : ℚ) * 2 ^ e ≤ 2 * f.leading * 2 ^ e := mul_le_mul_of_nonneg_right (by exact_mod_cast hk₁) hu.le
    _ ≤ f.leading * 2 ^ e' := hweight
    _ ≤ k' * 2 ^ e' := mul_le_mul_of_nonneg_right (by exact_mod_cast hk₂) hu'.le

lemma le (h : f.Rounds x y) (h' : f.Rounds x' y') (hx : x ≤ x') : y ≤ y' := by
  obtain ⟨k, e, hf, hk, rfl⟩ := h
  obtain ⟨k', e', hf', hk', rfl⟩ := h'
  rcases lt_trichotomy e e' with he | rfl | he
  · exact le_of_weight_lt hf hf' hk hk' he hx
  · have hu : (0 : ℚ) < 2 ^ e := by positivity
    have hkk := hk.le hk' (div_le_div_of_nonneg_right hx hu.le)
    exact mul_le_mul_of_nonneg_right (by exact_mod_cast hkk) hu.le
  · rw [← abs_neg] at hf hf'
    have hneg := le_of_weight_lt hf' hf (neg_div (2 ^ e') x' ▸ hk'.neg) (neg_div (2 ^ e) x ▸ hk.neg) he (neg_le_neg hx)
    push_cast at hneg
    linarith

lemma unique (h : f.Rounds x y) (h' : f.Rounds x y') : y = y' := le_antisymm (h.le h' le_rfl) (h'.le h le_rfl)

end Rounds

end Format

end Woodland.Binary
