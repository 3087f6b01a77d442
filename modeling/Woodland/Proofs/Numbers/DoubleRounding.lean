import Mathlib.Tactic
import Woodland.Json.Number
import Woodland.Proofs.Numbers.Nearest

/-! Rounding to doubles far from the ends of their range: how large the error is, and which numbers are not changed. -/

namespace Woodland.Binary

/-- `y` is a number of 53 binary digits next to `x`, and at most half of the last digit away. -/
def Rounded (x y : ℚ) : Prop :=
  ∃ (k : ℕ) (e : ℤ), y = k * 2 ^ e ∧ 2 ^ 52 * 2 ^ e ≤ x ∧ x < 2 ^ 53 * 2 ^ e ∧ |x - y| ≤ 2 ^ e / 2

namespace Rounded

variable {x y : ℚ} {n : ℕ} {q : ℤ}

lemma pos (h : Rounded x y) : 0 < x := by
  obtain ⟨k, e, -, hlo, -⟩ := h
  exact lt_of_lt_of_le (by positivity) hlo

lemma abs_sub_le (h : Rounded x y) : |x - y| ≤ x / 2 ^ 53 := by
  obtain ⟨k, e, -, hlo, -, herr⟩ := h
  apply herr.trans
  rw [le_div_iff₀ (by positivity)]
  linarith

lemma pos_right (h : Rounded x y) : 0 < y := by
  have := (abs_le.mp h.abs_sub_le).2
  linarith [h.pos]

lemma eq_of_exact (h : Rounded x y) (hx : x = n * 2 ^ q) (hn : n < 2 ^ 53) : y = x := by
  obtain ⟨k, e, rfl, hlo, hhi, herr⟩ := h
  have hu : (0 : ℚ) < 2 ^ e := by positivity
  have hn' : (n : ℚ) < 2 ^ 53 := by exact_mod_cast hn
  have heq : e < q + 1 := by
    have hlt : (2 : ℚ) ^ 52 * 2 ^ e < 2 ^ 52 * 2 ^ (q + 1) := by
      have hq : (0 : ℚ) < 2 ^ q := by positivity
      rw [zpow_add_one₀ two_ne_zero]
      nlinarith
    exact (zpow_lt_zpow_iff_right₀ one_lt_two).mp (lt_of_mul_lt_mul_left hlt (by positivity))
  obtain ⟨i, rfl⟩ := Int.le.dest (show e ≤ q by omega)
  -- both numbers are multiples of the last digit
  have hgrid : x = (n * 2 ^ i : ℕ) * 2 ^ e := by
    rw [hx, zpow_add₀ two_ne_zero, zpow_natCast]
    push_cast
    ring
  rw [hgrid, ← sub_mul, abs_mul, abs_of_pos hu] at herr
  have hlt : |((n * 2 ^ i : ℕ) : ℚ) - k| < 1 := by nlinarith
  have hint : |((n * 2 ^ i : ℕ) : ℤ) - k| < 1 := by exact_mod_cast hlt
  have hk : n * 2 ^ i = k := by
    have := Int.abs_lt_one_iff.mp hint
    omega
  rw [hgrid, hk]

lemma lt_of_gap (h : Rounded x y) (hn : n < 2 ^ 25) (hx : x + 2 ^ (q - 29) < n * 2 ^ q) : y < n * 2 ^ q := by
  obtain ⟨k, e, -, hlo, -, herr⟩ := h
  have hn' : (n : ℚ) < 2 ^ 25 := by exact_mod_cast hn
  have hw : (2 : ℚ) ^ q = 2 ^ 27 * (2 * (2 * 2 ^ (q - 29))) := by
    rw [← zpow_one_add₀ two_ne_zero, ← zpow_one_add₀ two_ne_zero, ← zpow_natCast, ← zpow_add₀ two_ne_zero]
    congr 1
    push_cast
    ring
  have hr : (0 : ℚ) < 2 ^ (q - 29) := by positivity
  have he : (2 : ℚ) ^ e / 2 ≤ 2 ^ (q - 29) := by
    have hlt : (2 : ℚ) ^ e < 2 ^ (q - 27) := by
      rw [show q - 27 = q - 29 + 1 + 1 by ring, zpow_add_one₀ two_ne_zero, zpow_add_one₀ two_ne_zero]
      nlinarith
    have hle : (2 : ℚ) ^ e ≤ 2 ^ (q - 29 + 1) :=
      zpow_le_zpow_right₀ one_le_two (by have := (zpow_lt_zpow_iff_right₀ one_lt_two).mp hlt; omega)
    rw [zpow_add_one₀ two_ne_zero] at hle
    linarith
  have := (abs_le.mp herr).1
  linarith

lemma gt_of_gap (h : Rounded x y) (hn : n < 2 ^ 25) (hx : n * 2 ^ q + 2 ^ (q - 29) < x) : n * 2 ^ q < y := by
  obtain ⟨k, e, hy, hlo, -, herr⟩ := h
  have hn' : (n : ℚ) < 2 ^ 25 := by exact_mod_cast hn
  have hq : (0 : ℚ) < 2 ^ q := by positivity
  have hu : (0 : ℚ) < 2 ^ e := by positivity
  have herr' := (abs_le.mp herr).2
  rcases le_or_gt e (q - 28) with he | he
  · have hle : (2 : ℚ) ^ e ≤ 2 ^ (q - 29 + 1) := zpow_le_zpow_right₀ one_le_two (by omega)
    rw [zpow_add_one₀ two_ne_zero] at hle
    linarith
  · -- the last digit is so large that no number as small as this is next to `x`
    have hle : (2 : ℚ) ^ (q - 27) ≤ 2 ^ e := zpow_le_zpow_right₀ one_le_two (by omega)
    have hw : (2 : ℚ) ^ q = 2 ^ 27 * 2 ^ (q - 27) := by
      rw [← zpow_natCast, ← zpow_add₀ two_ne_zero]
      congr 1
      push_cast
      ring
    have hk : 2 ^ 52 ≤ k := by
      have hlt : (2 ^ 52 - 1 : ℚ) < k := by
        have hk : (2 ^ 52 - 1 : ℚ) * 2 ^ e < k * 2 ^ e := by
          rw [← hy]
          linarith
        exact lt_of_mul_lt_mul_right hk hu.le
      have hlt' : (2 ^ 52 : ℚ) < k + 1 := by linarith
      have : 2 ^ 52 < k + 1 := by exact_mod_cast hlt'
      omega
    have hk' : (2 ^ 52 : ℚ) ≤ k := by exact_mod_cast hk
    rw [hy]
    nlinarith

end Rounded

variable {n d m a b : ℕ} {e : ℤ}

lemma leading_double : double.leading = 2 ^ 52 := rfl

lemma leastExponent_double : double.leastExponent = -1074 := rfl

lemma value_pattern_double (hm : 2 ^ 52 ≤ m) (hm' : m < 2 ^ 53) (he : -1074 ≤ e) (he' : e < 960) :
    double.value (double.pattern m e) = .finite false m e ∧ double.pattern m e < double.infinity := by
  have hi : double.pattern m e < double.infinity := by
    change (e - -1074).toNat * 2 ^ 52 + m < 2047 * 2 ^ 52
    omega
  have hv := Format.value_pattern false (f := double) ⟨he, hm', .inl hm⟩ hi
  rw [Format.signOf, if_neg Bool.false_ne_true, Nat.zero_add] at hv
  exact ⟨hv, hi⟩

def toRat (bits : ℕ) : ℚ :=
  match double.value bits with
  | .finite _ m e => m * 2 ^ e
  | _ => 0

lemma exists_value (h : a < double.infinity) :
    ∃ m e, double.value a = .finite false m e ∧ toRat a = m * 2 ^ e := by
  have hs := h.trans Format.infinity_lt_signBit
  obtain ⟨m, e, hv⟩ : ∃ m e, double.value a = .finite false m e := by
    rw [Format.value, Nat.mod_eq_of_lt hs, if_pos h, decide_eq_false (Nat.not_le.mpr hs)]
    by_cases hf : a / double.leading = 0
    · exact ⟨_, _, if_pos hf⟩
    · exact ⟨_, _, if_neg hf⟩
  exact ⟨m, e, hv, by rw [toRat, hv]⟩

structure Middle (x : ℚ) : Prop where
  low : (2 : ℚ) ^ (-250 : ℤ) ≤ x
  high : x < 2 ^ (250 : ℤ)

variable {x : ℚ}

lemma Middle.weight (h : Middle x) (hf : double.Fits x e) : 2 ^ 52 * 2 ^ e ≤ x ∧ e < 198 := by
  obtain ⟨hlow, hhigh⟩ := h
  obtain ⟨-, hlt, hfull⟩ := hf
  rw [leading_double, leastExponent_double] at *
  push_cast at hlt hfull
  have hge : (2 : ℚ) ^ 52 * 2 ^ e ≤ x := by
    refine hfull.resolve_right ?_
    rintro rfl
    have hle : (2 : ℚ) * 2 ^ 52 * 2 ^ (-1074 : ℤ) ≤ 2 ^ (-250 : ℤ) := by
      rw [← pow_succ', ← zpow_natCast, ← zpow_add₀ two_ne_zero]
      exact zpow_le_zpow_right₀ one_le_two (by decide)
    exact absurd (hlt.trans_le hle) (not_lt.mpr hlow)
  have hlt' : (2 : ℚ) ^ (52 + e) < 2 ^ (250 : ℤ) := by
    rw [zpow_add₀ two_ne_zero]
    exact lt_of_le_of_lt hge hhigh
  have := (zpow_lt_zpow_iff_right₀ one_lt_two).mp hlt'
  exact ⟨hge, by omega⟩

lemma significand_bounds {k : ℕ} (hlo : 2 ^ 52 * 2 ^ e ≤ x) (hhi : x < 2 ^ 53 * 2 ^ e)
    (herr : |x - k * 2 ^ e| ≤ 2 ^ e / 2) : 2 ^ 52 ≤ k ∧ k ≤ 2 ^ 53 := by
  have hu : (0 : ℚ) < 2 ^ e := by positivity
  obtain ⟨h₁, h₂⟩ := abs_le.mp herr
  have hlt : (2 ^ 52 : ℚ) < k + 1 := lt_of_mul_lt_mul_right (by linarith) hu.le
  have hlt' : (k : ℚ) < 2 ^ 53 + 1 := lt_of_mul_lt_mul_right (by linarith) hu.le
  have hk : 2 ^ 52 < k + 1 := by exact_mod_cast hlt
  have hk' : k < 2 ^ 53 + 1 := by exact_mod_cast hlt'
  omega

lemma toRat_pattern {k : ℕ} (hk : 2 ^ 52 ≤ k) (hk' : k ≤ 2 ^ 53) (he : -1074 ≤ e) (he' : e < 198) :
    double.pattern k e < double.infinity ∧ toRat (double.pattern k e) = k * 2 ^ e := by
  rcases Nat.lt_or_eq_of_le hk' with hlt | rfl
  · obtain ⟨hv, hi⟩ := value_pattern_double hk hlt he (by omega)
    exact ⟨hi, by rw [toRat, hv]⟩
  · obtain ⟨hv, hi⟩ := value_pattern_double (m := 2 ^ 52) (e := e + 1) le_rfl (by decide) (by omega) (by omega)
    have hp : double.pattern (2 ^ 53) e = double.pattern (2 ^ 52) (e + 1) := by
      change (e - -1074).toNat * 2 ^ 52 + 2 ^ 53 = (e + 1 - -1074).toNat * 2 ^ 52 + 2 ^ 52
      omega
    have hy : ((2 ^ 52 : ℕ) : ℚ) * 2 ^ (e + 1) = (2 ^ 53 : ℕ) * 2 ^ e := by
      rw [zpow_add_one₀ two_ne_zero]
      push_cast
      ring
    rw [hp]
    exact ⟨hi, by rw [toRat, hv, ← hy]⟩

lemma rounded_nearest (hd : 0 < d) (h : Middle (n / d)) :
    double.nearest n d < double.infinity ∧ Rounded (n / d) (toRat (double.nearest n d)) := by
  have hn : 0 < n := by
    rcases Nat.eq_zero_or_pos n with rfl | hn
    · have hlow := h.low
      rw [Nat.cast_zero, zero_div] at hlow
      exact absurd hlow (not_le.mpr (by positivity))
    · exact hn
  obtain ⟨e, hf⟩ : ∃ e, double.Fits (n / d) e := ⟨_, Format.exponentFor_fits (by decide) hn hd⟩
  obtain ⟨hge, he⟩ := h.weight hf
  have hlt : (n : ℚ) / d < 2 ^ 53 * 2 ^ e := by
    have hlt := hf.lt
    rw [leading_double] at hlt
    push_cast at hlt
    linarith
  have hu : (0 : ℚ) < 2 ^ e := by positivity
  set k := roundEven (lower n d e).1 (lower n d e).2 with hk
  have herr : |(n : ℚ) / d - k * 2 ^ e| ≤ 2 ^ e / 2 := by
    have hle := abs_sub_roundEven_le (lower n d e).1 (lower_pos (n := n) hd e)
    rw [ratio_lower] at hle
    have hs : (n : ℚ) / d - k * 2 ^ e = (n / d / 2 ^ e - k) * 2 ^ e := by field_simp
    rw [hs, abs_mul, abs_of_pos hu]
    nlinarith
  obtain ⟨hk₁, hk₂⟩ := significand_bounds hge hlt herr
  obtain ⟨hi, hy⟩ := toRat_pattern hk₁ hk₂ hf.low he
  have hnearest : double.nearest n d = double.pattern k e := by
    rw [Format.nearest_eq (by decide) hn hd hf, ← hk]
    exact min_eq_right hi.le
  rw [hnearest, hy]
  exact ⟨hi, k, e, rfl, hge, hlt, herr⟩

lemma rounded_of_ratio {n d : ℕ} (hd : 0 < d) (hx : (n : ℚ) / d = x) (h : Middle x) :
    double.nearest n d < double.infinity ∧ Rounded x (toRat (double.nearest n d)) := by
  subst hx
  exact rounded_nearest hd h

lemma rounded_times (ha : a < double.infinity) (hb : b < double.infinity) (h : Middle (toRat a * toRat b)) :
    double.times a b < double.infinity ∧ Rounded (toRat a * toRat b) (toRat (double.times a b)) := by
  obtain ⟨m, e, hva, hma⟩ := exists_value ha
  obtain ⟨m', e', hvb, hmb⟩ := exists_value hb
  have ht : double.times a b = double.nearest (lower (m * m') 1 (-(e + e'))).1 (lower (m * m') 1 (-(e + e'))).2 := by
    rw [Format.times, hva, hvb]
  rw [ht]
  refine rounded_of_ratio (lower_pos one_pos _) ?_ h
  rw [ratio_lower, hma, hmb, zpow_neg, div_inv_eq_mul, zpow_add₀ two_ne_zero]
  push_cast
  ring

lemma rounded_dividedBy (ha : a < double.infinity) (hb : b < double.infinity) (h : Middle (toRat a / toRat b)) :
    double.dividedBy a b < double.infinity ∧
      Rounded (toRat a / toRat b) (toRat (double.dividedBy a b)) := by
  obtain ⟨m, e, hva, hma⟩ := exists_value ha
  obtain ⟨m', e', hvb, hmb⟩ := exists_value hb
  have hm' : 0 < m' := by
    rcases Nat.eq_zero_or_pos m' with rfl | hm'
    · rw [hmb, Nat.cast_zero, zero_mul, div_zero] at h
      exact absurd h.low (not_le.mpr (by positivity))
    · exact hm'
  have ht : double.dividedBy a b = double.nearest (lower m m' (e' - e)).1 (lower m m' (e' - e)).2 := by
    rw [Format.dividedBy, hva, hvb]
  rw [ht]
  refine rounded_of_ratio (lower_pos hm' _) ?_ h
  rw [ratio_lower, hma, hmb, zpow_sub₀ two_ne_zero]
  field_simp

end Woodland.Binary

namespace Woodland.Json

open Binary

variable {j s : ℕ} {k : ℤ}

lemma rounded_powerOfTen (hj : j ≤ 60) :
    powerOfTen j < double.infinity ∧ Rounded (10 ^ j) (toRat (powerOfTen j)) := by
  have hx : ((10 ^ j : ℕ) : ℚ) / (1 : ℕ) = 10 ^ j := by
    rw [Nat.cast_one, div_one]
    push_cast
    rfl
  refine rounded_of_ratio one_pos hx ⟨?_, ?_⟩
  · exact (zpow_le_one_of_nonpos₀ one_le_two (by decide)).trans (one_le_pow₀ (by norm_num))
  · exact (pow_le_pow_right₀ (by norm_num) hj).trans_lt (by norm_num)

/-- What a document's numbers are multiplied by for `10 ^ k`: a double, or one part of a double. -/
def approximation (k : ℤ) : ℚ :=
  if 0 ≤ k then toRat (powerOfTen k.toNat) else (toRat (powerOfTen (-k).toNat))⁻¹

lemma abs_approximation_sub_le (hk : -60 ≤ k) (hk' : k ≤ 60) : |approximation k - 10 ^ k| ≤ 10 ^ k / 2 ^ 52 := by
  rw [approximation]
  split_ifs with h₀
  · obtain ⟨j, rfl⟩ := Int.eq_ofNat_of_zero_le h₀
    have herr := (rounded_powerOfTen (j := j) (by omega)).2.abs_sub_le
    have hp : (0 : ℚ) < 10 ^ j := by positivity
    rw [Int.toNat_natCast, zpow_natCast, abs_sub_comm]
    apply herr.trans
    rw [div_le_div_iff₀ (by positivity) (by positivity)]
    linarith
  · obtain ⟨j, rfl⟩ : ∃ j : ℕ, k = -j := ⟨(-k).toNat, by omega⟩
    have herr := (rounded_powerOfTen (j := j) (by omega)).2.abs_sub_le
    have hp : (0 : ℚ) < 10 ^ j := by positivity
    rw [neg_neg, Int.toNat_natCast, zpow_neg, zpow_natCast]
    set P := toRat (powerOfTen j)
    have hlo : 10 ^ j / 2 ≤ P := by linarith [(abs_le.mp herr).2]
    have hP : 0 < P := by linarith
    have hs : P⁻¹ - (10 ^ j)⁻¹ = (10 ^ j - P) / (P * 10 ^ j) := by field_simp
    rw [hs, abs_div, abs_of_pos (mul_pos hP hp), div_le_iff₀ (mul_pos hP hp)]
    calc |10 ^ j - P| ≤ 10 ^ j / 2 ^ 53 := herr
      _ = 10 ^ j / 2 / 2 ^ 52 := by rw [div_div, ← pow_succ']
      _ ≤ P / 2 ^ 52 := by gcongr
      _ = (10 ^ j)⁻¹ / 2 ^ 52 * (P * 10 ^ j) := by field_simp

lemma approximation_bounds (hk : -60 ≤ k) (hk' : k ≤ 60) :
    (10 : ℚ) ^ k / 2 ≤ approximation k ∧ approximation k ≤ 2 * 10 ^ k := by
  have hp : (0 : ℚ) < 10 ^ k := by positivity
  obtain ⟨h₁, h₂⟩ := abs_le.mp (abs_approximation_sub_le hk hk')
  constructor <;> linarith

lemma toRat_nearest_natural (hs : 0 < s) (hs' : s < 2 ^ 53) :
    double.nearest s 1 < double.infinity ∧ toRat (double.nearest s 1) = s := by
  have hs₁ : (1 : ℚ) ≤ s := by exact_mod_cast hs
  have hs₂ : (s : ℚ) < 2 ^ 53 := by exact_mod_cast hs'
  have hm : Middle s := by
    refine ⟨(zpow_le_one_of_nonpos₀ one_le_two (by decide)).trans hs₁, hs₂.trans ?_⟩
    norm_num
  obtain ⟨hi, hr⟩ := rounded_of_ratio (n := s) one_pos (by rw [Nat.cast_one, div_one]) hm
  exact ⟨hi, hr.eq_of_exact (q := 0) (by rw [zpow_zero, mul_one]) hs'⟩

lemma rounded_scaled (hs : 0 < s) (hs' : s < 2 ^ 53) (hk : -60 ≤ k) (hk' : k ≤ 40) :
    ∃ bits, scaled? s k = some bits ∧ bits < double.infinity ∧ Rounded (s * approximation k) (toRat bits) := by
  obtain ⟨hi, hm⟩ := toRat_nearest_natural hs hs'
  have hs₁ : (1 : ℚ) ≤ s := by exact_mod_cast hs
  have hs₂ : (s : ℚ) < 2 ^ 53 := by exact_mod_cast hs'
  have hmid : Middle (s * approximation k) := by
    obtain ⟨hlo, hhi⟩ := approximation_bounds hk (by omega)
    have hpos : 0 ≤ approximation k := le_trans (by positivity) hlo
    have h₁ : (10 : ℚ) ^ (-60 : ℤ) ≤ 10 ^ k := zpow_le_zpow_right₀ (by norm_num) hk
    have h₂ : (10 : ℚ) ^ k ≤ 10 ^ (40 : ℤ) := zpow_le_zpow_right₀ (by norm_num) hk'
    constructor
    · calc (2 : ℚ) ^ (-250 : ℤ) ≤ 1 * (10 ^ (-60 : ℤ) / 2) := by norm_num
        _ ≤ 1 * (10 ^ k / 2) := by gcongr
        _ ≤ s * approximation k := by gcongr
    · calc s * approximation k ≤ 2 ^ 53 * (2 * 10 ^ k) := by gcongr
        _ ≤ 2 ^ 53 * (2 * 10 ^ (40 : ℤ)) := by gcongr
        _ < 2 ^ (250 : ℤ) := by norm_num
  rw [scaled?, if_neg hs.ne', if_neg (by change ¬(308 : ℤ) < k; omega)]
  by_cases h₀ : 0 ≤ k
  · simp only [approximation, if_pos h₀] at hmid ⊢
    rw [← hm] at hmid ⊢
    obtain ⟨hlt, hr⟩ := rounded_times hi (rounded_powerOfTen (by omega)).1 hmid
    exact ⟨_, if_neg hlt.ne, hlt, hr⟩
  · simp only [approximation, if_neg h₀, ← div_eq_mul_inv] at hmid ⊢
    rw [if_pos (by change -(308 : ℤ) ≤ k; omega)]
    rw [← hm] at hmid ⊢
    obtain ⟨hlt, hr⟩ := rounded_dividedBy hi (rounded_powerOfTen (by omega)).1 hmid
    exact ⟨_, rfl, hlt, hr⟩

end Woodland.Json
