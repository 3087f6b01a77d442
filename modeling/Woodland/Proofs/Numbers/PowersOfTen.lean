import Mathlib.Tactic
import Woodland.Proofs.Numbers.DoubleRounding
import Woodland.Proofs.Numbers.Fractions

/-!
Decimal numbers of at most 24 binary digits, scaled by a rounded power of ten, compared with numbers of 25 binary
digits: the rounding of the power does not change the side, and leaves room for one more rounding.
-/

namespace Woodland.Json

open Binary

def power (j : ℕ) : ℕ × ℕ :=
  match double.value (powerOfTen j) with
  | .finite _ m e => lower m 1 (-e)
  | _ => (0, 1)

lemma ratio_power {j : ℕ} (h : powerOfTen j < double.infinity) :
    ((power j).1 : ℚ) / (power j).2 = toRat (powerOfTen j) := by
  obtain ⟨m, e, hv, hm⟩ := exists_value h
  have hp : power j = lower m 1 (-e) := by rw [power, hv]
  rw [hp, ratio_lower, hm, zpow_neg, div_inv_eq_mul, Nat.cast_one, div_one]

lemma power_pos (j : ℕ) : 0 < (power j).2 := by
  rw [power]
  split
  · exact lower_pos one_pos _
  · exact one_pos

/-- Whether `10 ^ j` can be taken as it is rounded, next to all numbers that are within reach. -/
def raises (j : ℕ) : Bool :=
  let w := power j
  (List.range' ((10 ^ j).log2 - 25) 28).all fun i => apart (10 ^ j, 2 ^ i) (w.1, w.2 * 2 ^ i) 2 (2 ^ 24)

def lowers (j : ℕ) : Bool :=
  let w := power j
  (List.range' ((10 ^ j).log2 - 1) 28).all fun i => apart (2 ^ i, 10 ^ j) (w.2 * 2 ^ i, w.1) 2 (2 ^ 24)

lemma raises_of_inexact : ∀ j ∈ List.range' 11 30, raises j = true := by decide +kernel

lemma lowers_of_inexact : ∀ j ∈ List.range' 11 45, lowers j = true := by decide +kernel

variable {v w : ℚ} {N D j : ℕ} {k q : ℤ}

lemma agrees_of_small (h : Small N D) (hv : v ≤ 1 / 2) (hw : w ≤ 1 / 2) : Agrees v w N D := by
  have hN : (2 ^ 24 : ℚ) ≤ N := by exact_mod_cast h.le
  have hD : (D : ℚ) ≤ 2 ^ 24 := by exact_mod_cast h.le'
  have hlt (u : ℚ) (hu : u ≤ 1 / 2) : D * u + 1 / 2 ^ 29 < N := by
    have : D * u ≤ 2 ^ 24 * (1 / 2) := by
      rcases le_total u 0 with h₀ | h₀
      · exact (mul_nonpos_of_nonneg_of_nonpos (by positivity) h₀).trans (by positivity)
      · gcongr
    linarith
  have hlt' : D * v < N := by linarith [hlt v hv]
  exact ⟨fun _ => hlt w hw, fun h' => absurd h' hlt'.not_gt, fun h' => absurd h' hlt'.ne⟩

lemma agrees_of_large (h : Small N D) (hv : 2 ^ 25 ≤ v) (hw : 2 ^ 25 ≤ w) : Agrees v w N D := by
  have hN : (N : ℚ) + 1 ≤ 2 ^ 25 := by exact_mod_cast h.lt
  have hD : (1 : ℚ) ≤ D := by exact_mod_cast h.pos
  have hlt (u : ℚ) (hu : 2 ^ 25 ≤ u) : N + 1 / 2 ^ 29 < D * u := by nlinarith
  have hlt' : N < D * v := by linarith [hlt v hv]
  exact ⟨fun h' => absurd h' hlt'.not_gt, fun _ => hlt w hw, fun h' => absurd h' hlt'.ne'⟩

lemma agrees_self {a b : ℕ} (hb : 0 < b) (hb' : b ≤ 2 ^ 28) (hv : v = a / b) : Agrees v v N D := by
  have hb₀ : (0 : ℚ) < b := by exact_mod_cast hb
  have hb₁ : (b : ℚ) ≤ 2 ^ 28 := by exact_mod_cast hb'
  have hgap (x y : ℚ) (i i' : ℕ) (hx : x * b = i) (hy : y * b = i') (hlt : x < y) : x + 1 / 2 ^ 29 < y := by
    have hi : i + 1 ≤ i' := by
      have : (i : ℚ) < i' := by
        rw [← hx, ← hy]
        exact mul_lt_mul_of_pos_right hlt hb₀
      exact_mod_cast this
    have hi' : (i : ℚ) + 1 ≤ i' := by exact_mod_cast hi
    refine lt_of_mul_lt_mul_right ?_ hb₀.le
    rw [hy, add_mul, hx]
    linarith
  have hD : (D : ℚ) * v * b = (D * a : ℕ) := by
    rw [hv]
    push_cast
    field_simp
  have hN : (N : ℚ) * b = (N * b : ℕ) := by push_cast; rfl
  exact ⟨hgap _ _ _ _ hD hN, hgap _ _ _ _ hN hD, id⟩

lemma approximation_of_exact (hk : -10 ≤ k) (hk' : k ≤ 10) : approximation k = 10 ^ k := by
  have hexact (j : ℕ) (hj : j ≤ 10) : toRat (powerOfTen j) = 10 ^ j := by
    have hlt : 10 ^ j < 2 ^ 53 := (Nat.pow_le_pow_right (by decide) hj).trans_lt (by decide)
    refine (rounded_powerOfTen (by omega)).2.eq_of_exact (n := 10 ^ j) (q := 0) ?_ hlt
    rw [zpow_zero, mul_one]
    push_cast
    rfl
  rw [approximation]
  split_ifs with h₀
  · rw [hexact _ (by omega), ← zpow_natCast, Int.toNat_of_nonneg h₀]
  · rw [hexact _ (by omega), ← zpow_natCast, Int.toNat_of_nonneg (by omega), zpow_neg, inv_inv]

lemma agrees_of_exact (h : Small N D) (hk : -10 ≤ k) (hk' : k ≤ 10) (q : ℤ) :
    Agrees (10 ^ k / 2 ^ q) (10 ^ k / 2 ^ q) N D := by
  have hten : (10 : ℚ) ^ k / 2 ^ q = 5 ^ k * 2 ^ (k - q) := by
    rw [show (10 : ℚ) = 5 * 2 by norm_num, mul_zpow, zpow_sub₀ two_ne_zero, mul_div_assoc]
  rw [hten]
  generalize k - q = p
  have hfive : (5 : ℚ) ^ k ≤ 5 ^ (10 : ℤ) := zpow_le_zpow_right₀ (by norm_num) hk'
  rcases lt_or_ge p (-28) with hp | hp
  · have htwo : (2 : ℚ) ^ p ≤ 2 ^ (-29 : ℤ) := zpow_le_zpow_right₀ one_le_two (by omega)
    have hv : (5 : ℚ) ^ k * 2 ^ p ≤ 1 / 2 := by
      calc (5 : ℚ) ^ k * 2 ^ p ≤ 5 ^ (10 : ℤ) * 2 ^ (-29 : ℤ) := by gcongr
        _ ≤ 1 / 2 := by norm_num
    exact agrees_of_small h hv hv
  rcases Int.eq_nat_or_neg k with ⟨j, rfl | rfl⟩ <;> rcases Int.eq_nat_or_neg p with ⟨i, rfl | rfl⟩
  · exact agrees_self (a := 5 ^ j * 2 ^ i) one_pos (by decide) (by push_cast; simp)
  · have hi : 2 ^ i ≤ 2 ^ 28 := Nat.pow_le_pow_right two_pos (by omega)
    exact agrees_self (a := 5 ^ j) (Nat.two_pow_pos i) hi (by push_cast; simp [div_eq_mul_inv])
  · have hj : 5 ^ j ≤ 2 ^ 28 := (Nat.pow_le_pow_right (by decide) (show j ≤ 10 by omega)).trans (by decide)
    exact agrees_self (a := 2 ^ i) (Nat.pow_pos (by decide)) hj (by push_cast; simp [div_eq_mul_inv, mul_comm])
  · rcases Nat.eq_zero_or_pos i with rfl | hi
    · have hj : 5 ^ j ≤ 2 ^ 28 := (Nat.pow_le_pow_right (by decide) (show j ≤ 10 by omega)).trans (by decide)
      exact agrees_self (a := 1) (Nat.pow_pos (by decide)) hj (by push_cast; simp)
    · have h₅ : (5 : ℚ) ^ (-(j : ℤ)) ≤ 1 := zpow_le_one_of_nonpos₀ (by norm_num) (by omega)
      have h₂ : (2 : ℚ) ^ (-(i : ℤ)) ≤ 2 ^ (-1 : ℤ) := zpow_le_zpow_right₀ one_le_two (by omega)
      have hv : (5 : ℚ) ^ (-(j : ℤ)) * 2 ^ (-(i : ℤ)) ≤ 1 / 2 := by
        calc (5 : ℚ) ^ (-(j : ℤ)) * 2 ^ (-(i : ℤ)) ≤ 1 * 2 ^ (-1 : ℤ) := by gcongr
          _ = 1 / 2 := by norm_num
      exact agrees_of_small h hv hv

lemma agrees_beyond {l : ℤ} (h : Small N D) (hk : -60 ≤ k) (hk' : k ≤ 60) (hl : (2 : ℚ) ^ l ≤ 10 ^ k)
    (hl' : (10 : ℚ) ^ k ≤ 2 ^ (l + 1)) (hq : q ≤ l - 26 ∨ l + 3 ≤ q) :
    Agrees (10 ^ k / 2 ^ q) (approximation k / 2 ^ q) N D := by
  obtain ⟨hlo, hhi⟩ := approximation_bounds hk hk'
  have hpos : (0 : ℚ) < 2 ^ q := by positivity
  rcases hq with hq | hq
  · have hle : (2 : ℚ) ^ 26 * 2 ^ q ≤ 10 ^ k := by
      refine le_trans ?_ hl
      rw [← zpow_natCast, ← zpow_add₀ two_ne_zero]
      exact zpow_le_zpow_right₀ one_le_two (by push_cast; omega)
    apply agrees_of_large h
    · rw [le_div_iff₀ hpos]
      linarith
    · rw [le_div_iff₀ hpos]
      linarith
  · have hle : (2 : ℚ) ^ 2 * 10 ^ k ≤ 2 ^ q := by
      calc (2 : ℚ) ^ 2 * 10 ^ k ≤ 2 ^ 2 * 2 ^ (l + 1) := by gcongr
        _ = 2 ^ (l + 3) := by
          rw [← zpow_natCast, ← zpow_add₀ two_ne_zero]
          congr 1
          push_cast
          ring
        _ ≤ 2 ^ q := zpow_le_zpow_right₀ one_le_two hq
    apply agrees_of_small h
    · rw [div_le_iff₀ hpos]
      linarith
    · rw [div_le_iff₀ hpos]
      linarith

lemma log2_ten (j : ℕ) : (2 : ℚ) ^ ((10 ^ j).log2 : ℤ) ≤ 10 ^ j ∧ (10 : ℚ) ^ j < 2 ^ (((10 ^ j).log2 : ℤ) + 1) := by
  have h := Format.log2_bounds (n := 10 ^ j) (Nat.pow_pos (by decide))
  push_cast at h
  exact h

lemma le_log2_ten (hj : 11 ≤ j) : 36 ≤ (10 ^ j).log2 := by
  apply (Nat.le_log2 (Nat.pow_pos (by decide)).ne').mpr
  calc 2 ^ 36 ≤ 10 ^ 11 := by decide
    _ ≤ 10 ^ j := Nat.pow_le_pow_right (by decide) hj

lemma agrees_raised (h : Small N D) (hj : 11 ≤ j) (hj' : j ≤ 40) (q : ℤ) :
    Agrees (10 ^ (j : ℤ) / 2 ^ q) (approximation j / 2 ^ q) N D := by
  obtain ⟨hl, hl'⟩ := log2_ten j
  have hL := le_log2_ten hj
  by_cases hq : q ≤ (10 ^ j).log2 - 26 ∨ (10 ^ j).log2 + 3 ≤ q
  · exact agrees_beyond h (by omega) (by omega) (by rwa [zpow_natCast]) (by rw [zpow_natCast]; exact hl'.le) hq
  · obtain ⟨i, rfl⟩ := Int.eq_ofNat_of_zero_le (show 0 ≤ q by omega)
    have hr := raises_of_inexact j (List.mem_range'_1.mpr (by omega))
    rw [raises, List.all_eq_true] at hr
    have ha := hr i (List.mem_range'_1.mpr (by omega))
    have hpos := Nat.mul_pos (power_pos j) (Nat.two_pow_pos i)
    have hp := agrees_of_apart 2 (Nat.two_pow_pos i) hpos ha (by decide) h.le h
    have hw : ((power j).1 : ℚ) / ((power j).2 * 2 ^ i : ℕ) = approximation j / 2 ^ (i : ℤ) := by
      rw [approximation, if_pos (by omega), Int.toNat_natCast, ← ratio_power (rounded_powerOfTen (by omega)).1,
        zpow_natCast, div_div]
      push_cast
      rfl
    rw [hw] at hp
    push_cast at hp
    rwa [zpow_natCast, zpow_natCast]

lemma agrees_lowered (h : Small N D) (hj : 11 ≤ j) (hj' : j ≤ 55) (q : ℤ) :
    Agrees (10 ^ (-j : ℤ) / 2 ^ q) (approximation (-j) / 2 ^ q) N D := by
  obtain ⟨hl, hl'⟩ := log2_ten j
  have hL := le_log2_ten hj
  by_cases hq : q ≤ -((10 ^ j).log2 + 1) - 26 ∨ -((10 ^ j).log2 + 1 : ℤ) + 3 ≤ q
  · refine agrees_beyond h (by omega) (by omega) ?_ ?_ hq
    · rw [zpow_neg, zpow_neg, zpow_natCast]
      exact inv_anti₀ (by positivity) hl'.le
    · rw [zpow_neg, neg_add, neg_add_cancel_right, zpow_neg, zpow_natCast]
      exact inv_anti₀ (by positivity) hl
  · obtain ⟨i, rfl⟩ : ∃ i : ℕ, q = -i := ⟨(-q).toNat, by omega⟩
    have hr := lowers_of_inexact j (List.mem_range'_1.mpr (by omega))
    rw [lowers, List.all_eq_true] at hr
    have ha := hr i (List.mem_range'_1.mpr (by omega))
    have hP := rounded_powerOfTen (j := j) (by omega)
    have hpos : 0 < (power j).1 := by
      rcases Nat.eq_zero_or_pos (power j).1 with h₀ | h₀
      · have hm := ratio_power hP.1
        rw [h₀, Nat.cast_zero, zero_div] at hm
        exact absurd hm hP.2.pos_right.ne
      · exact h₀
    have hp := agrees_of_apart 2 (Nat.pow_pos (by decide)) hpos ha (by decide) h.le h
    have hw : (((power j).2 * 2 ^ i : ℕ) : ℚ) / (power j).1 = approximation (-j) / 2 ^ (-i : ℤ) := by
      rw [approximation, if_neg (by omega), neg_neg, Int.toNat_natCast, ← ratio_power hP.1, inv_div, zpow_neg,
        zpow_natCast, div_inv_eq_mul, div_mul_eq_mul_div]
      push_cast
      rfl
    have hv : ((2 ^ i : ℕ) : ℚ) / (10 ^ j : ℕ) = 10 ^ (-j : ℤ) / 2 ^ (-i : ℤ) := by
      rw [zpow_neg, zpow_neg, zpow_natCast, zpow_natCast, div_inv_eq_mul, inv_mul_eq_div]
      push_cast
      rfl
    rwa [hw, hv] at hp

lemma agrees_approximation (h : Small N D) (hk : -55 ≤ k) (hk' : k ≤ 40) (q : ℤ) :
    Agrees (10 ^ k / 2 ^ q) (approximation k / 2 ^ q) N D := by
  rcases le_or_gt k (-11) with h₁ | h₁
  · obtain ⟨j, rfl⟩ : ∃ j : ℕ, k = -j := ⟨(-k).toNat, by omega⟩
    exact agrees_lowered h (by omega) (by omega) q
  rcases le_or_gt 11 k with h₂ | h₂
  · obtain ⟨j, rfl⟩ := Int.eq_ofNat_of_zero_le (show 0 ≤ k by omega)
    exact agrees_raised h (by omega) (by omega) q
  · rw [approximation_of_exact (by omega) (by omega)]
    exact agrees_of_exact h (by omega) (by omega) q

structure Sided (x y b : ℚ) : Prop where
  lt : x < b → y < b
  gt : b < x → b < y
  eq : x = b → y = b

variable {y : ℚ}

lemma sided_of_full (h : Small N D) (hk : -55 ≤ k) (hk' : k ≤ 40) (hy : Rounded (D * approximation k) y) :
    Sided (D * 10 ^ k) y (N * 2 ^ q) := by
  obtain ⟨hbelow, habove, hexact⟩ := agrees_approximation h hk hk' q
  have hq : (0 : ℚ) < 2 ^ q := by positivity
  have hgap : (2 : ℚ) ^ (q - 29) = 1 / 2 ^ 29 * 2 ^ q := by
    rw [zpow_sub₀ two_ne_zero]
    norm_num
    ring
  rw [mul_div_assoc', mul_div_assoc'] at hbelow habove hexact
  refine ⟨fun hx => hy.lt_of_gap h.lt ?_, fun hx => hy.gt_of_gap h.lt ?_, fun hx => ?_⟩
  · have hlt := hbelow ((div_lt_iff₀ hq).mpr hx)
    rw [← lt_sub_iff_add_lt, div_lt_iff₀ hq] at hlt
    rw [hgap]
    linarith
  · have hlt := habove ((lt_div_iff₀ hq).mpr hx)
    rw [lt_div_iff₀ hq] at hlt
    rw [hgap]
    linarith
  · have heq := hexact ((div_eq_iff hq.ne').mpr hx)
    rw [div_eq_iff hq.ne'] at heq
    rw [hy.eq_of_exact heq (h.lt.trans (by decide)), heq]

/-- Reading a number of at most 24 binary digits does not take it across a number of 25. -/
lemma sided_of_rounded (hN : 0 < N) (hN' : N < 2 ^ 25) (hD : 0 < D) (hD' : D ≤ 2 ^ 24) (hk : -55 ≤ k) (hk' : k ≤ 40)
    (hy : Rounded (D * approximation k) y) (q : ℤ) : Sided (D * 10 ^ k) y (N * 2 ^ q) := by
  obtain ⟨hle, hlt⟩ := (Nat.log2_eq_iff hN.ne').mp rfl
  have hl : N.log2 ≤ 24 := by
    have := (Nat.log2_lt hN.ne').mpr hN'
    omega
  obtain ⟨i, hi⟩ := Nat.exists_eq_add_of_le hl
  -- the number with all its 25 digits
  have hs : Small (N * 2 ^ i) D := by
    refine ⟨?_, ?_, hD, hD'⟩
    · rw [hi, pow_add]
      exact Nat.mul_le_mul_right _ hle
    · rw [show 25 = N.log2 + 1 + i by omega, pow_add]
      exact Nat.mul_lt_mul_of_pos_right hlt (Nat.two_pow_pos i)
  have hN₂ : (N : ℚ) * 2 ^ q = (N * 2 ^ i : ℕ) * 2 ^ (q - i) := by
    rw [zpow_sub₀ two_ne_zero, zpow_natCast]
    push_cast
    field_simp
  rw [hN₂]
  exact sided_of_full hs hk hk' hy

end Woodland.Json
