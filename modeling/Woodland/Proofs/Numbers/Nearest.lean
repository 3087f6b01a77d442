import Mathlib.Tactic
import Woodland.Proofs.Numbers.Quotients

/-!
Rounding to a binary format: which exponent the format gives a number, what a pattern means, and which numbers are
rounded to one and the same pattern.
-/

namespace Woodland.Binary.Format

variable {f : Format} {n d m bits : ℕ} {x : ℚ} {e e' : ℤ}

lemma leading_pos : 0 < f.leading := Nat.two_pow_pos _

lemma leading_eq (hp : 0 < f.precision) : (f.leading : ℚ) = 2 ^ ((f.precision : ℤ) - 1) := by
  rw [show (f.precision : ℤ) - 1 = (f.precision - 1 : ℕ) by omega, zpow_natCast]
  exact Nat.cast_pow 2 _

/-- The last place that the format keeps of `x` has the weight `2 ^ e`. -/
structure Fits (f : Format) (x : ℚ) (e : ℤ) : Prop where
  low : f.leastExponent ≤ e
  lt : x < 2 * f.leading * 2 ^ e
  full : f.leading * 2 ^ e ≤ x ∨ e = f.leastExponent

lemma Fits.le (h : f.Fits x e) (h' : f.Fits x e') : e ≤ e' := by
  by_contra hc
  have hx := h.full.resolve_right (by have := h'.low; omega)
  have hp : (2 : ℚ) ^ (e' + 1) ≤ 2 ^ e := zpow_le_zpow_right₀ one_le_two (by omega)
  rw [zpow_add_one₀ two_ne_zero] at hp
  have hl : (0 : ℚ) < f.leading := by exact_mod_cast leading_pos
  have hlt := h'.lt
  nlinarith

lemma Fits.unique (h : f.Fits x e) (h' : f.Fits x e') : e = e' := le_antisymm (h.le h') (h'.le h)

lemma fits_max (h : f.leading * 2 ^ e ≤ x) (h' : x < 2 * f.leading * 2 ^ e) : f.Fits x (max f.leastExponent e) := by
  refine ⟨le_max_left _ _, h'.trans_le ?_, ?_⟩
  · exact mul_le_mul_of_nonneg_left (zpow_le_zpow_right₀ one_le_two (le_max_right _ _)) (by positivity)
  · rcases le_total f.leastExponent e with he | he
    · exact .inl (by rwa [max_eq_right he])
    · exact .inr (max_eq_left he)

lemma log2_bounds (hn : 0 < n) : (2 : ℚ) ^ (n.log2 : ℤ) ≤ n ∧ (n : ℚ) < 2 ^ ((n.log2 : ℤ) + 1) := by
  obtain ⟨h, h'⟩ := (Nat.log2_eq_iff hn.ne').mp rfl
  rw [zpow_add_one₀ two_ne_zero, zpow_natCast, ← pow_succ]
  exact ⟨by exact_mod_cast h, by exact_mod_cast h'⟩

lemma ratio_bounds (hn : 0 < n) (hd : 0 < d) :
    (2 : ℚ) ^ ((n.log2 : ℤ) - d.log2 - 1) < n / d ∧ (n : ℚ) / d < 2 ^ ((n.log2 : ℤ) - d.log2 + 1) := by
  obtain ⟨hn₁, hn₂⟩ := log2_bounds hn
  obtain ⟨hd₁, hd₂⟩ := log2_bounds hd
  have hd' : (0 : ℚ) < d := by exact_mod_cast hd
  constructor
  · rw [lt_div_iff₀ hd']
    calc (2 : ℚ) ^ ((n.log2 : ℤ) - d.log2 - 1) * d
        < 2 ^ ((n.log2 : ℤ) - d.log2 - 1) * 2 ^ ((d.log2 : ℤ) + 1) := mul_lt_mul_of_pos_left hd₂ (by positivity)
      _ = 2 ^ (n.log2 : ℤ) := by rw [← zpow_add₀ two_ne_zero]; congr 1; ring
      _ ≤ n := hn₁
  · rw [div_lt_iff₀ hd']
    calc (n : ℚ) < 2 ^ ((n.log2 : ℤ) + 1) := hn₂
      _ = 2 ^ ((n.log2 : ℤ) - d.log2 + 1) * 2 ^ (d.log2 : ℤ) := by rw [← zpow_add₀ two_ne_zero]; congr 1; ring
      _ ≤ 2 ^ ((n.log2 : ℤ) - d.log2 + 1) * d := mul_le_mul_of_nonneg_left hd₁ (by positivity)

lemma lower_lt_iff (hd : 0 < d) (k : ℕ) (e : ℤ) : (lower n d e).1 < k * (lower n d e).2 ↔ (n : ℚ) / d < k * 2 ^ e := by
  have hl : (0 : ℚ) < (lower n d e).2 := by exact_mod_cast lower_pos hd e
  rw [← div_lt_iff₀ (by positivity), ← ratio_lower, div_lt_iff₀ hl]
  exact_mod_cast Iff.rfl

lemma exponentFor_fits (hp : 0 < f.precision) (hn : 0 < n) (hd : 0 < d) : f.Fits (n / d) (f.exponentFor n d) := by
  obtain ⟨hlo, hhi⟩ := ratio_bounds hn hd
  set e₀ : ℤ := n.log2 - d.log2 - (f.precision - 1) with he₀
  have hw (i : ℤ) : (f.leading : ℚ) * 2 ^ (e₀ + i) = 2 ^ ((n.log2 : ℤ) - d.log2 + i) := by
    rw [leading_eq hp, ← zpow_add₀ two_ne_zero]
    congr 1
    omega
  have hdouble (i : ℤ) : (2 : ℚ) * f.leading * 2 ^ i = f.leading * 2 ^ (i + 1) := by
    rw [zpow_add_one₀ two_ne_zero]
    ring
  have he : f.exponentFor n d =
    max f.leastExponent (if (lower n d e₀).1 < f.leading * (lower n d e₀).2 then e₀ - 1 else e₀) := rfl
  rw [he]
  split_ifs with h
  · rw [lower_lt_iff hd] at h
    apply fits_max
    · rw [sub_eq_add_neg, hw]
      exact hlo.le
    · rw [hdouble, sub_add_cancel]
      exact h
  · rw [lower_lt_iff hd, not_lt] at h
    apply fits_max h
    rw [hdouble, hw]
    exact hhi

lemma nearest_eq (hp : 0 < f.precision) (hn : 0 < n) (hd : 0 < d) (h : f.Fits (n / d) e) : f.nearest n d =
    min f.infinity ((e - f.leastExponent).toNat * f.leading + roundEven (lower n d e).1 (lower n d e).2) := by
  obtain rfl := (exponentFor_fits hp hn hd).unique h
  rw [nearest, if_neg hn.ne']

/-- `m * 2 ^ e` is written as the format writes it, an exponent that is too large left aside. -/
structure Canonical (f : Format) (m : ℕ) (e : ℤ) : Prop where
  low : f.leastExponent ≤ e
  lt : m < 2 * f.leading
  full : f.leading ≤ m ∨ e = f.leastExponent

def pattern (f : Format) (m : ℕ) (e : ℤ) : ℕ := (e - f.leastExponent).toNat * f.leading + m

def signOf (f : Format) (negative : Bool) : ℕ := if negative then f.signBit else 0

lemma infinity_lt_signBit : f.infinity < f.signBit :=
  Nat.mul_lt_mul_of_pos_right (Nat.sub_lt (Nat.two_pow_pos _) one_pos) leading_pos

lemma pattern_mod_signBit (negative : Bool) (h : m < f.signBit) : (f.signOf negative + m) % f.signBit = m := by
  cases negative with
  | false => rw [signOf, if_neg Bool.false_ne_true, Nat.zero_add, Nat.mod_eq_of_lt h]
  | true => rw [signOf, if_pos rfl, Nat.add_mod_left, Nat.mod_eq_of_lt h]

lemma signBit_le_iff (negative : Bool) (h : m < f.signBit) : decide (f.signBit ≤ f.signOf negative + m) = negative := by
  cases negative with
  | false => rw [signOf, if_neg Bool.false_ne_true, Nat.zero_add, decide_eq_false (Nat.not_le.mpr h)]
  | true => rw [signOf, if_pos rfl, decide_eq_true (Nat.le_add_right _ _)]

lemma value_pattern (negative : Bool) (h : f.Canonical m e) (hi : f.pattern m e < f.infinity) :
    f.value (f.signOf negative + f.pattern m e) = .finite negative m e := by
  have hs := hi.trans infinity_lt_signBit
  obtain ⟨hlow, hlt, hfull⟩ := h
  obtain ⟨i, rfl⟩ : ∃ i : ℕ, e = f.leastExponent + i := ⟨(e - f.leastExponent).toNat, by omega⟩
  have hp : f.pattern m (f.leastExponent + i) = i * f.leading + m := by
    rw [pattern, add_sub_cancel_left, Int.toNat_natCast]
  rw [value, pattern_mod_signBit negative hs, signBit_le_iff negative hs, if_pos hi, hp]
  rcases Nat.lt_or_ge m f.leading with hm | hm
  · obtain rfl : i = 0 := by have := hfull.resolve_left (Nat.not_le.mpr hm); omega
    rw [Nat.zero_mul, Nat.zero_add, Nat.div_eq_of_lt hm, Nat.mod_eq_of_lt hm]
    exact congrArg _ (add_zero _).symm
  · obtain ⟨r, rfl⟩ := Nat.exists_eq_add_of_le hm
    have hr : r < f.leading := by omega
    have hq : i * f.leading + (f.leading + r) = r + (i + 1) * f.leading := by ring
    rw [hq, Nat.add_mul_div_right _ _ leading_pos, Nat.add_mul_mod_self_right, Nat.div_eq_of_lt hr, Nat.mod_eq_of_lt hr,
      if_neg (by omega)]
    congr 1
    push_cast
    ring

lemma canonical_of_value {negative : Bool} (h : f.value bits = .finite negative m e) (hb : bits < 2 * f.signBit) :
    f.Canonical m e ∧ f.pattern m e < f.infinity ∧ bits = f.signOf negative + f.pattern m e := by
  set magnitude := bits % f.signBit with hmag
  have hl : 0 < f.leading := leading_pos
  have hbits : bits = f.signOf (decide (f.signBit ≤ bits)) + magnitude := by
    rw [signOf, hmag]
    by_cases hs : f.signBit ≤ bits
    · rw [if_pos (decide_eq_true hs), Nat.mod_eq_sub_mod hs, Nat.mod_eq_of_lt (by omega)]
      omega
    · rw [if_neg (by simp [hs]), Nat.mod_eq_of_lt (by omega), Nat.zero_add]
  have hdiv := Nat.div_add_mod magnitude f.leading
  have hr := Nat.mod_lt magnitude hl
  simp only [value, ← hmag] at h
  split_ifs at h with hi h₀
  · obtain ⟨rfl, rfl, rfl⟩ := Value.finite.inj h
    have hp : f.pattern (magnitude % f.leading) f.leastExponent = magnitude := by
      rw [h₀] at hdiv
      rw [pattern, sub_self]
      simpa using hdiv
    rw [hp]
    exact ⟨⟨le_rfl, by omega, .inr rfl⟩, hi, hbits⟩
  · obtain ⟨rfl, rfl, rfl⟩ := Value.finite.inj h
    obtain ⟨q, hq⟩ := Nat.exists_eq_succ_of_ne_zero h₀
    have hp : f.pattern (f.leading + magnitude % f.leading)
        (f.leastExponent + ((magnitude / f.leading : ℕ) - 1)) = magnitude := by
      rw [pattern, add_sub_cancel_left, show (((magnitude / f.leading : ℕ) : ℤ) - 1).toNat = q by omega]
      rw [hq] at hdiv
      linarith [hdiv, Nat.mul_succ f.leading q, Nat.mul_comm f.leading q]
    rw [hp]
    exact ⟨⟨by omega, by omega, .inl (Nat.le_add_right _ _)⟩, hi, hbits⟩

/-- The least number that is rounded to `m * 2 ^ e`, or where that is odd the largest that is not. -/
def lowEnd (f : Format) (m : ℕ) (e : ℤ) : ℚ :=
  (if m = f.leading ∧ f.leastExponent < e then 4 * (m : ℚ) - 1 else 4 * m - 2) * 2 ^ (e - 2)

def highEnd (m : ℕ) (e : ℤ) : ℚ := (4 * m + 2) * 2 ^ (e - 2)

def Near (f : Format) (m : ℕ) (e : ℤ) (x : ℚ) : Prop :=
  f.lowEnd m e ≤ x ∧ x ≤ highEnd m e ∧ (m % 2 = 1 → f.lowEnd m e < x ∧ x < highEnd m e)

lemma quarter (e : ℤ) : (2 : ℚ) ^ (e - 2) = 2 ^ e / 4 := by
  rw [zpow_sub₀ two_ne_zero]
  norm_num

lemma le_lowEnd : (m - 1 / 2) * 2 ^ e ≤ f.lowEnd m e := by
  have hu : (0 : ℚ) < 2 ^ e := by positivity
  rw [lowEnd, quarter]
  split_ifs <;> linarith

lemma highEnd_eq : highEnd m e = (m + 1 / 2) * 2 ^ e := by
  rw [highEnd, quarter]
  ring

lemma near_of_lt (h : f.lowEnd m e < x) (h' : x < highEnd m e) : f.Near m e x := ⟨h.le, h'.le, fun _ => ⟨h, h'⟩⟩

lemma Near.bounds (h : f.Near m e x) : (m - 1 / 2) * 2 ^ e ≤ x ∧ x ≤ (m + 1 / 2) * 2 ^ e :=
  ⟨le_lowEnd.trans h.1, highEnd_eq (m := m) ▸ h.2.1⟩

lemma Near.bounds_of_odd (h : f.Near m e x) (hm : m % 2 = 1) : (m - 1 / 2) * 2 ^ e < x ∧ x < (m + 1 / 2) * 2 ^ e :=
  ⟨le_lowEnd.trans_lt (h.2.2 hm).1, highEnd_eq (m := m) ▸ (h.2.2 hm).2⟩

lemma roundEven_lower_eq {k : ℕ} (hd : 0 < d) (h : |(n : ℚ) / d - k * 2 ^ e| ≤ 2 ^ e / 2)
    (hk : k % 2 = 1 → |(n : ℚ) / d - k * 2 ^ e| < 2 ^ e / 2) : roundEven (lower n d e).1 (lower n d e).2 = k := by
  have hu : (0 : ℚ) < 2 ^ e := by positivity
  have hs : (n : ℚ) / d / 2 ^ e - k = (n / d - k * 2 ^ e) / 2 ^ e := by field_simp
  apply roundEven_eq (lower_pos hd e)
  · rw [ratio_lower, hs, abs_div, abs_of_pos hu, div_le_iff₀ hu]
    linarith
  · intro ho
    rw [ratio_lower, hs, abs_div, abs_of_pos hu, div_lt_iff₀ hu]
    linarith [hk ho]

/-- Just below a power of two the last place has half the weight; all else has the exponent it is rounded to. -/
lemma Near.fits (h : f.Near m e x) (hc : f.Canonical m e) :
    f.Fits x e ∨ m = f.leading ∧ f.leastExponent < e ∧ x < m * 2 ^ e := by
  have hu : (0 : ℚ) < 2 ^ e := by positivity
  obtain ⟨hlo, hhi⟩ := h.bounds
  by_cases hs : m = f.leading ∧ f.leastExponent < e ∧ x < m * 2 ^ e
  · exact .inr hs
  · have hlt : (m : ℚ) + 1 ≤ 2 * f.leading := by exact_mod_cast hc.lt
    refine .inl ⟨hc.low, by nlinarith, ?_⟩
    rcases hc.full with hm | he
    · rcases Nat.eq_or_lt_of_le hm with hm | hm
      · by_cases he : f.leastExponent < e
        · left
          rw [hm]
          exact not_lt.mp fun hx => hs ⟨hm.symm, he, hx⟩
        · exact .inr (by have := hc.low; omega)
      · have hm' : (f.leading : ℚ) + 1 ≤ m := by exact_mod_cast hm
        exact .inl (by nlinarith)
    · exact .inr he

lemma nearest_of_near (hp : 0 < f.precision) (hn : 0 < n) (hd : 0 < d) (hc : f.Canonical m e)
    (hi : f.pattern m e < f.infinity) (h : f.Near m e (n / d)) : f.nearest n d = f.pattern m e := by
  have hu : (0 : ℚ) < 2 ^ e := by positivity
  obtain ⟨hlo, hhi⟩ := h.bounds
  rcases h.fits hc with hf | ⟨hm, he, hx⟩
  · have hr : roundEven (lower n d e).1 (lower n d e).2 = m := by
      apply roundEven_lower_eq hd
      · rw [abs_le]
        constructor <;> linarith
      · intro ho
        obtain ⟨hlo, hhi⟩ := h.bounds_of_odd ho
        rw [abs_lt]
        constructor <;> linarith
    rw [nearest_eq hp hn hd hf, hr]
    exact min_eq_right hi.le
  · have hhalf : (2 : ℚ) ^ e = 2 * 2 ^ (e - 1) := by
      rw [← zpow_one_add₀ two_ne_zero, add_sub_cancel]
    have hm₀ : (0 : ℚ) < m := by rw [hm]; exact_mod_cast leading_pos
    have hlow : (4 * m - 1 : ℚ) * 2 ^ (e - 2) ≤ n / d := by
      have hl := h.1
      rwa [lowEnd, if_pos ⟨hm, he⟩] at hl
    rw [quarter, hhalf] at hlow
    rw [hhalf] at hx hhi
    have hm₁ : (1 : ℚ) ≤ m := by exact_mod_cast (show 0 < m by exact_mod_cast hm₀)
    have hw : (0 : ℚ) < 2 ^ (e - 1) := by positivity
    have hf : f.Fits (n / d) (e - 1) := by
      refine ⟨by omega, ?_, .inl ?_⟩ <;> rw [← hm]
      · linarith
      · nlinarith
    have hr : roundEven (lower n d (e - 1)).1 (lower n d (e - 1)).2 = 2 * m := by
      apply roundEven_lower_eq hd
      · push_cast
        rw [abs_le]
        constructor <;> linarith
      · omega
    have hpat : (e - 1 - f.leastExponent).toNat * f.leading + 2 * m = f.pattern m e := by
      rw [pattern, show (e - f.leastExponent).toNat = (e - 1 - f.leastExponent).toNat + 1 by omega, ← hm]
      ring
    rw [nearest_eq hp hn hd hf, hr, hpat]
    exact min_eq_right hi.le

end Woodland.Binary.Format
