import Mathlib.Tactic
import Woodland.Proofs.Numbers.PowersOfTen

/-!
The shortest decimal of a single-precision number: it is found within nine digits, and what a document's reader makes of
it, with its two roundings, still rounds to the number.
-/

namespace Woodland.Decimal

open Binary (Format single)

lemma digitCount_bounds (n : ℕ) : n < 10 ^ digitCount n ∧ (0 < n → 10 ^ digitCount n ≤ 10 * n) := by
  induction n using digitCount.induct with
  | case1 n h =>
    rw [digitCount, if_pos h]
    exact ⟨by omega, by omega⟩
  | case2 n h ih =>
    obtain ⟨hlt, hle⟩ := ih
    have hpos := hle (by omega)
    rw [digitCount, if_neg h, pow_succ]
    exact ⟨by omega, by omega⟩

lemma magnitude_bounds {n d : ℕ} (hn : 0 < n) (hd : 0 < d) :
    (10 : ℚ) ^ (magnitude n d - 1) ≤ n / d ∧ (n : ℚ) / d < 10 ^ magnitude n d := by
  have hn' : (0 : ℚ) < n := by exact_mod_cast hn
  have hd' : (0 : ℚ) < d := by exact_mod_cast hd
  rw [magnitude, zpow_sub_one₀ (by norm_num)]
  split_ifs with h
  · obtain ⟨hlt, hle⟩ := digitCount_bounds (n / d)
    have hq := hle (Nat.div_pos h hd)
    have hlt' : n < 10 ^ digitCount (n / d) * d := (Nat.div_lt_iff_lt_mul hd).mp hlt
    have hle' : 10 ^ digitCount (n / d) * d ≤ 10 * n := by
      have := Nat.div_mul_le_self n d
      nlinarith
    have hlt₁ : (n : ℚ) < 10 ^ digitCount (n / d) * d := by exact_mod_cast hlt'
    have hle₁ : (10 ^ digitCount (n / d) * d : ℚ) ≤ 10 * n := by exact_mod_cast hle'
    rw [zpow_natCast]
    constructor
    · rw [le_div_iff₀ hd']
      linarith
    · rw [div_lt_iff₀ hd']
      exact hlt₁
  · -- the quotient is less than one, and its inverse is counted
    obtain ⟨hlt, hle⟩ := digitCount_bounds ((d - 1) / n)
    have hq := hle (Nat.div_pos (by omega) hn)
    set c := digitCount ((d - 1) / n)
    have hlt' : d ≤ 10 ^ c * n := by
      have := (Nat.div_lt_iff_lt_mul hn).mp hlt
      omega
    have hle' : 10 ^ c * n < 10 * d := by
      have := Nat.div_mul_le_self (d - 1) n
      nlinarith [show d - 1 < d by omega]
    have hlt₁ : (d : ℚ) ≤ 10 ^ c * n := by exact_mod_cast hlt'
    have hle₁ : (10 ^ c * n : ℚ) < 10 * d := by exact_mod_cast hle'
    rw [zpow_sub₀ (by norm_num), zpow_natCast, zpow_one]
    constructor
    · rw [le_div_iff₀ hd']
      field_simp
      linarith
    · rw [div_lt_div_iff₀ hd' (by positivity)]
      linarith

namespace Interval

variable {i : Interval} {k : ℤ} {tie : Tie} {s : Scaled}

def center (i : Interval) : ℚ := i.value / i.scale

def Holds (i : Interval) (x : ℚ) : Prop :=
  (i.below : ℚ) / i.scale ≤ x ∧ x ≤ i.above / i.scale ∧
    (i.closed = false → (i.below : ℚ) / i.scale < x ∧ x < i.above / i.scale)

lemma grid_eq (hs : 0 < i.scale) (k : ℤ) :
    ((tenths 1 i.scale k).2 : ℚ) = (tenths 1 i.scale k).1 * i.scale * 10 ^ k := by
  have hd : ((tenths 1 i.scale k).2 : ℚ) ≠ 0 := by exact_mod_cast (tenths_pos one_pos hs k).2.ne'
  have hs' : (i.scale : ℚ) ≠ 0 := by exact_mod_cast hs.ne'
  have hr := ratio_tenths 1 i.scale k
  rw [div_eq_iff hd] at hr
  rw [hr]
  push_cast
  field_simp

lemma admits_iff (hs : 0 < i.scale) (c : ℕ) :
    i.admits (tenths 1 i.scale k).1 (tenths 1 i.scale k).2 c = true ↔ i.Holds (c * 10 ^ k) := by
  obtain ⟨hn, -⟩ := tenths_pos one_pos hs k
  have hdn := grid_eq hs k
  set n := (tenths 1 i.scale k).1
  set d := (tenths 1 i.scale k).2
  have hn' : (0 : ℚ) < n := by exact_mod_cast hn
  have hs' : (0 : ℚ) < i.scale := by exact_mod_cast hs
  have hx : (c * d : ℚ) = c * 10 ^ k * (n * i.scale) := by
    rw [hdn]
    ring
  have hpos : (0 : ℚ) < n * i.scale := mul_pos hn' hs'
  have hq (a : ℕ) : (a * n : ℚ) = a / i.scale * (n * i.scale) := by field_simp
  have hle (a : ℕ) : a * n ≤ c * d ↔ (a : ℚ) / i.scale ≤ c * 10 ^ k := by
    rw [← mul_le_mul_iff_of_pos_right hpos, ← hq, ← hx]
    exact_mod_cast Iff.rfl
  have hge (a : ℕ) : c * d ≤ a * n ↔ (c * 10 ^ k : ℚ) ≤ a / i.scale := by
    rw [← mul_le_mul_iff_of_pos_right hpos, ← hq, ← hx]
    exact_mod_cast Iff.rfl
  have hlt (a : ℕ) : a * n < c * d ↔ (a : ℚ) / i.scale < c * 10 ^ k := by
    rw [← not_le, hge, not_le]
  have hgt (a : ℕ) : c * d < a * n ↔ (c * 10 ^ k : ℚ) < a / i.scale := by
    rw [← not_le, hle, not_le]
  rw [admits, Holds]
  cases hc : i.closed with
  | false =>
    simp only [Bool.false_eq_true, if_false, decide_eq_true_eq, hlt, hgt]
    exact ⟨fun h => ⟨h.1.le, h.2.le, fun _ => h⟩, fun h => h.2.2 trivial⟩
  | true =>
    simp only [if_true, decide_eq_true_eq, hle, hge]
    exact ⟨fun h => ⟨h.1, h.2, fun hf => absurd hf.symm Bool.false_ne_true⟩, fun h => ⟨h.1, h.2.1⟩⟩

/-- A multiple of `10 ^ k` in the interval, and no other neighbour of the center there is closer. -/
structure Chosen (i : Interval) (k : ℤ) (y : ℚ) : Prop where
  holds : i.Holds y
  near : y ≤ i.center ∧ i.center < y + 10 ^ k ∧ (2 * (i.center - y) ≤ 10 ^ k ∨ ¬i.Holds (y + 10 ^ k)) ∨
    i.center < y ∧ y ≤ i.center + 10 ^ k ∧ (2 * (y - i.center) ≤ 10 ^ k ∨ ¬i.Holds (y - 10 ^ k))

def quotient (i : Interval) (k : ℤ) : ℕ := i.value * (tenths 1 i.scale k).1 / (tenths 1 i.scale k).2

def remainder (i : Interval) (k : ℤ) : ℕ := i.value * (tenths 1 i.scale k).1 % (tenths 1 i.scale k).2

lemma center_sub (hs : 0 < i.scale) (k : ℤ) :
    i.center - i.quotient k * 10 ^ k = i.remainder k / (tenths 1 i.scale k).2 * 10 ^ k := by
  obtain ⟨hn, hd⟩ := tenths_pos one_pos hs k
  have hdn := grid_eq hs k
  have hvalue : (i.value * (tenths 1 i.scale k).1 : ℚ) = (tenths 1 i.scale k).2 * i.quotient k + i.remainder k := by
    exact_mod_cast (Nat.div_add_mod _ _).symm
  set n := (tenths 1 i.scale k).1
  set d := (tenths 1 i.scale k).2
  have hn' : (0 : ℚ) < n := by exact_mod_cast hn
  have hd' : (0 : ℚ) < d := by exact_mod_cast hd
  have hs' : (0 : ℚ) < i.scale := by exact_mod_cast hs
  have hten : (10 : ℚ) ^ k = d / (n * i.scale) := by
    rw [hdn]
    field_simp
  rw [center, hten]
  field_simp
  linarith

lemma neighbours (hs : 0 < i.scale) (k : ℤ) :
    i.quotient k * 10 ^ k ≤ i.center ∧ i.center < (i.quotient k + 1 : ℕ) * 10 ^ k := by
  have hd : (0 : ℚ) < (tenths 1 i.scale k).2 := by exact_mod_cast (tenths_pos one_pos hs k).2
  have hlt : (i.remainder k : ℚ) / (tenths 1 i.scale k).2 < 1 := by
    rw [div_lt_one hd]
    exact_mod_cast Nat.mod_lt _ (tenths_pos one_pos hs k).2
  have hten : (0 : ℚ) < 10 ^ k := by positivity
  have hsub := center_sub hs k
  have hnonneg : 0 ≤ (i.remainder k : ℚ) / (tenths 1 i.scale k).2 := by positivity
  push_cast
  constructor <;> nlinarith

lemma onGrid?_eq (i : Interval) (tie : Tie) (k : ℤ) : i.onGrid? tie k =
    match i.admits (tenths 1 i.scale k).1 (tenths 1 i.scale k).2 (i.quotient k),
      i.admits (tenths 1 i.scale k).1 (tenths 1 i.scale k).2 (i.quotient k + 1) with
    | true, true =>
      some ⟨if 2 * i.remainder k > (tenths 1 i.scale k).2 ∨ 2 * i.remainder k = (tenths 1 i.scale k).2 ∧
        (tie = .up ∨ i.quotient k % 2 = 1) then i.quotient k + 1 else i.quotient k, k⟩
    | true, false => some ⟨i.quotient k, k⟩
    | false, true => some ⟨i.quotient k + 1, k⟩
    | false, false => none := rfl

lemma chosen_of_onGrid? (hs : 0 < i.scale) (h : i.onGrid? tie k = some s) :
    s.exponent = k ∧ i.Chosen k (s.digits * 10 ^ k) := by
  obtain ⟨hlow, hhigh⟩ := neighbours hs k
  have hsub := center_sub hs k
  have hadmits (c : ℕ) := admits_iff (k := k) hs c
  rw [onGrid?_eq] at h
  have hd : (0 : ℚ) < (tenths 1 i.scale k).2 := by exact_mod_cast (tenths_pos one_pos hs k).2
  have hten : (0 : ℚ) < 10 ^ k := by positivity
  set c := i.quotient k
  set r := i.remainder k
  set d := (tenths 1 i.scale k).2
  have hnear (hr : 2 * r ≤ d) : 2 * (i.center - c * 10 ^ k) ≤ 10 ^ k := by
    have hr' : (r : ℚ) / d ≤ 1 / 2 := by
      rw [div_le_div_iff₀ hd two_pos]
      exact_mod_cast (show r * 2 ≤ 1 * d by omega)
    rw [hsub]
    nlinarith
  have hfar (hr : d ≤ 2 * r) : 2 * ((c + 1 : ℕ) * 10 ^ k - i.center) ≤ 10 ^ k := by
    have hr' : 1 / 2 ≤ (r : ℚ) / d := by
      rw [div_le_div_iff₀ two_pos hd]
      exact_mod_cast (show 1 * d ≤ r * 2 by omega)
    push_cast
    nlinarith
  have hsucc : (c : ℚ) * 10 ^ k + 10 ^ k = (c + 1 : ℕ) * 10 ^ k := by
    push_cast
    ring
  cases hc : i.admits (tenths 1 i.scale k).1 d c <;> cases hc' : i.admits (tenths 1 i.scale k).1 d (c + 1) <;>
    rw [hc, hc'] at h
  · cases h
  · obtain rfl := Option.some.inj h
    refine ⟨rfl, (hadmits _).mp hc', .inr ⟨hhigh, by linarith, .inr ?_⟩⟩
    rw [← hsucc, add_sub_cancel_right, ← hadmits, hc]
    exact Bool.false_ne_true
  · obtain rfl := Option.some.inj h
    refine ⟨rfl, (hadmits _).mp hc, .inl ⟨hlow, by linarith, .inr ?_⟩⟩
    rw [hsucc, ← hadmits, hc']
    exact Bool.false_ne_true
  · obtain rfl := Option.some.inj h
    dsimp only
    split_ifs with hu
    · exact ⟨rfl, (hadmits _).mp hc', .inr ⟨hhigh, by linarith, .inl (hfar (by omega))⟩⟩
    · exact ⟨rfl, (hadmits _).mp hc, .inl ⟨hlow, by linarith, .inl (hnear (by omega))⟩⟩

lemma exists_onGrid? (hs : 0 < i.scale) (tie : Tie) (h : i.below / i.scale + (10 : ℚ) ^ k < i.center)
    (h' : i.center < i.above / i.scale) : ∃ s, i.onGrid? tie k = some s := by
  obtain ⟨hlow, hhigh⟩ := neighbours hs k
  have hholds : i.Holds (i.quotient k * 10 ^ k) := by
    push_cast at hhigh
    have hlt : (i.below : ℚ) / i.scale < i.quotient k * 10 ^ k := by linarith
    have hgt : (i.quotient k * 10 ^ k : ℚ) < i.above / i.scale := by linarith
    exact ⟨hlt.le, hgt.le, fun _ => ⟨hlt, hgt⟩⟩
  rw [onGrid?_eq, (admits_iff hs _).mpr hholds]
  cases i.admits (tenths 1 i.scale k).1 (tenths 1 i.scale k).2 (i.quotient k + 1)
  · exact ⟨_, rfl⟩
  · exact ⟨_, rfl⟩

section Around

variable {f : Format} {m : ℕ} {e : ℤ}

lemma scale_around_pos : 0 < (around f m e).scale := Binary.lower_pos one_pos (2 - e)

lemma unit_around : ((Binary.lower 1 1 (2 - e)).1 : ℚ) / (around f m e).scale = 2 ^ (e - 2) := by
  change ((Binary.lower 1 1 (2 - e)).1 : ℚ) / (Binary.lower 1 1 (2 - e)).2 = _
  rw [Binary.ratio_lower, ← neg_sub, zpow_neg]
  push_cast
  rw [div_one, div_inv_eq_mul, one_mul]

lemma center_around : (around f m e).center = m * 2 ^ e := by
  have h := unit_around (f := f) (m := m) (e := e)
  change ((4 * m * (Binary.lower 1 1 (2 - e)).1 : ℕ) : ℚ) / (around f m e).scale = _
  push_cast
  rw [mul_div_assoc, h, Format.quarter]
  ring

lemma above_around : ((around f m e).above : ℚ) / (around f m e).scale = Format.highEnd m e := by
  have h := unit_around (f := f) (m := m) (e := e)
  change (((4 * m + 2) * (Binary.lower 1 1 (2 - e)).1 : ℕ) : ℚ) / (around f m e).scale = _
  push_cast
  rw [mul_div_assoc, h, Format.highEnd]

lemma below_around (hm : 0 < m) : ((around f m e).below : ℚ) / (around f m e).scale = f.lowEnd m e := by
  have h := unit_around (f := f) (m := m) (e := e)
  change (((if m = f.leading ∧ f.leastExponent < e then 4 * m - 1 else 4 * m - 2) *
    (Binary.lower 1 1 (2 - e)).1 : ℕ) : ℚ) / (around f m e).scale = _
  rw [Nat.cast_mul, mul_div_assoc, h, Format.lowEnd]
  congr 1
  split_ifs
  · rw [Nat.cast_sub (by omega)]
    push_cast
    rfl
  · rw [Nat.cast_sub (by omega)]
    push_cast
    rfl

lemma holds_around_iff (hm : 0 < m) {x : ℚ} : (around f m e).Holds x ↔ f.Near m e x := by
  have hc : (around f m e).closed = false ↔ m % 2 = 1 := by
    change decide (m % 2 = 0) = false ↔ _
    rw [decide_eq_false_iff_not]
    omega
  rw [Holds, below_around hm, above_around, hc]
  rfl

end Around

end Interval

variable {m : ℕ} {e : ℤ} {tie : Tie} {v y : ℚ}

def Scaled.number (s : Scaled) : ℚ := s.digits * 10 ^ s.exponent

lemma Scaled.number_carry (s : Scaled) (count : ℕ) : (s.carry count).number = s.number := by
  rw [carry]
  split_ifs with h
  · rw [number, number, h, zpow_add₀ (by norm_num), zpow_natCast]
    change ((1 : ℕ) : ℚ) * _ = ((10 ^ count : ℕ) : ℚ) * _
    push_cast
    ring
  · rfl

lemma Scaled.digits_carry (s : Scaled) (count : ℕ) : (s.carry count).digits = 1 ∨ s.carry count = s := by
  rw [carry]
  split_ifs
  · exact .inl rfl
  · exact .inr rfl

lemma leading_single : single.leading = 2 ^ 23 := rfl

lemma lowEnd_le : single.lowEnd m e ≤ m * 2 ^ e - 2 ^ e / 4 := by
  have hu : (0 : ℚ) < 2 ^ e := by positivity
  rw [Format.lowEnd, Format.quarter]
  split_ifs <;> linarith

lemma value_around_pos (hm : 0 < m) : 0 < (Interval.around single m e).value := by
  have hcenter : (Interval.around single m e).center = m * 2 ^ e := Interval.center_around
  rcases Nat.eq_zero_or_pos (Interval.around single m e).value with h | h
  · rw [Interval.center, h, Nat.cast_zero, zero_div] at hcenter
    have : (0 : ℚ) < m * 2 ^ e := by positivity
    linarith
  · exact h

lemma exists_count (hm : 0 < m) (hc : single.Canonical m e) (tie : Tie) : ∃ (count : ℕ) (s : Scaled), count ≤ 9 ∧
    (Interval.around single m e).onGrid? tie
      (magnitude (Interval.around single m e).value (Interval.around single m e).scale - count) = some s ∧
    shortest single tie m e = s.carry count := by
  set i := Interval.around single m e
  set d := magnitude i.value i.scale
  have hs : 0 < i.scale := Interval.scale_around_pos
  have hu : (0 : ℚ) < 2 ^ e := by positivity
  have hcenter : i.center = m * 2 ^ e := Interval.center_around
  have hnine : ∃ s, i.onGrid? tie (d - 9) = some s := by
    have hd := (magnitude_bounds (value_around_pos (e := e) hm) hs).1
    change (10 : ℚ) ^ (d - 1) ≤ i.center at hd
    have hgrid : (10 : ℚ) ^ (d - 1) = 10 ^ (d - 9) * 10 ^ 8 := by
      rw [← zpow_natCast, ← zpow_add₀ (by norm_num)]
      congr 1
      push_cast
      ring
    have hm' : (m : ℚ) ≤ 2 ^ 24 := by exact_mod_cast hc.lt.le
    apply Interval.exists_onGrid? hs
    · have hlow := lowEnd_le (m := m) (e := e)
      rw [Interval.below_around hm]
      nlinarith
    · rw [Interval.above_around, Format.highEnd_eq, hcenter]
      linarith
  have hfound : ∃ b, (List.range' 1 9).findSome? (fun count : ℕ => (i.onGrid? tie (d - count)).map (·.carry count)) =
      some b := by
    obtain ⟨s, hs⟩ := hnine
    apply Option.isSome_iff_exists.mp
    rw [List.findSome?_isSome_iff]
    refine ⟨9, by decide, ?_⟩
    push_cast
    rw [hs]
    rfl
  obtain ⟨b, hb⟩ := hfound
  obtain ⟨count, hcount, hmap⟩ := List.exists_of_findSome?_eq_some hb
  obtain ⟨s, hs, rfl⟩ := Option.map_eq_some_iff.mp hmap
  have hrange := List.mem_range'_1.mp hcount
  refine ⟨count, s, by omega, hs, ?_⟩
  have hshort : shortest single tie m e =
    ((List.range' 1 9 ++ List.range' 10 8).findSome? fun count : ℕ =>
      (i.onGrid? tie (d - count)).map (·.carry count)).getD ⟨0, 0⟩ := rfl
  rw [hshort, List.findSome?_append, hb]
  rfl

structure Found (m : ℕ) (e : ℤ) (s : Scaled) : Prop where
  near : single.Near m e s.number
  le : s.digits ≤ 10 ^ 9
  chosen : s.digits ≤ 1 ∨ (Interval.around single m e).Chosen s.exponent s.number

lemma found_shortest (hm : 0 < m) (hc : single.Canonical m e) : Found m e (shortest single tie m e) := by
  obtain ⟨count, s, hcount, hs, hshort⟩ := exists_count hm hc tie
  have hscale : 0 < (Interval.around single m e).scale := Interval.scale_around_pos
  obtain ⟨hk, hy⟩ := Interval.chosen_of_onGrid? hscale hs
  rw [hshort]
  have hnum : s.number = s.digits * 10 ^ s.exponent := rfl
  rw [← hk, ← hnum] at hy
  have hdigits : s.digits ≤ 10 ^ count := by
    have hten : (0 : ℚ) < 10 ^ s.exponent := by positivity
    have hcenter : (Interval.around single m e).center < 10 ^ count * 10 ^ s.exponent := by
      refine (magnitude_bounds (value_around_pos hm) hscale).2.trans_eq ?_
      rw [hk, ← zpow_natCast, ← zpow_add₀ (by norm_num), add_sub_cancel]
    have hle : s.number ≤ (Interval.around single m e).center + 10 ^ s.exponent := by
      rcases hy.near with h | h
      · linarith [h.1]
      · exact h.2.1
    have hlt : (s.digits : ℚ) < 10 ^ count + 1 := by
      refine lt_of_mul_lt_mul_right ?_ hten.le
      rw [← hnum]
      linarith
    have hlt' : s.digits < 10 ^ count + 1 := by exact_mod_cast hlt
    omega
  refine ⟨?_, ?_, ?_⟩
  · rw [Scaled.number_carry]
    exact (Interval.holds_around_iff hm).mp hy.holds
  · rcases s.digits_carry count with h | h
    · rw [h]
      decide
    · rw [h]
      exact hdigits.trans (Nat.pow_le_pow_right (by decide) hcount)
  · rcases s.digits_carry count with h | h
    · exact .inl h.le
    · rw [h]
      exact .inr hy

namespace Found

variable {s : Scaled}

lemma pos (h : Found m e s) (hm : 0 < m) : 0 < s.digits := by
  have hu : (0 : ℚ) < 2 ^ e := by positivity
  have hm' : (1 : ℚ) ≤ m := by exact_mod_cast hm
  have hy := h.near.bounds.1
  rcases Nat.eq_zero_or_pos s.digits with h₀ | h₀
  · rw [Scaled.number, h₀, Nat.cast_zero, zero_mul] at hy
    nlinarith
  · exact h₀

lemma exponent_bounds (h : Found m e s) (hm : 0 < m) (hc : single.Canonical m e) (he : e ≤ 104) :
    -55 ≤ s.exponent ∧ s.exponent ≤ 40 := by
  have hm₁ : (1 : ℚ) ≤ m := by exact_mod_cast hm
  have hm₂ : (m : ℚ) + 1 ≤ 2 ^ 24 := by exact_mod_cast hc.lt
  have hu₁ : (2 : ℚ) ^ (-149 : ℤ) ≤ 2 ^ e := zpow_le_zpow_right₀ one_le_two hc.low
  have hu₂ : (2 : ℚ) ^ e ≤ 2 ^ (104 : ℤ) := zpow_le_zpow_right₀ one_le_two he
  have hD₁ : (1 : ℚ) ≤ s.digits := by exact_mod_cast h.pos hm
  have hD₂ : (s.digits : ℚ) ≤ 10 ^ 9 := by exact_mod_cast h.le
  have hten : (0 : ℚ) < 10 ^ s.exponent := by positivity
  obtain ⟨hlo, hhi⟩ := h.near.bounds
  rw [Scaled.number] at hlo hhi
  constructor
  · have hlt : (10 : ℚ) ^ (-56 : ℤ) < 10 ^ s.exponent := by
      have h₁ : (1 / 2 : ℚ) * 2 ^ (-149 : ℤ) ≤ 10 ^ 9 * 10 ^ s.exponent := by
        calc (1 / 2 : ℚ) * 2 ^ (-149 : ℤ) ≤ (m - 1 / 2) * 2 ^ e := by
              refine mul_le_mul ?_ hu₁ (by positivity) ?_ <;> linarith
          _ ≤ s.digits * 10 ^ s.exponent := hlo
          _ ≤ 10 ^ 9 * 10 ^ s.exponent := by gcongr
      have h₂ : (10 : ℚ) ^ 9 * 10 ^ (-56 : ℤ) < 1 / 2 * 2 ^ (-149 : ℤ) := by norm_num
      exact lt_of_mul_lt_mul_left (h₂.trans_le h₁) (by positivity)
    have := (zpow_lt_zpow_iff_right₀ (by norm_num)).mp hlt
    omega
  · have hlt : (10 : ℚ) ^ s.exponent < 10 ^ (41 : ℤ) := by
      calc (10 : ℚ) ^ s.exponent = 1 * 10 ^ s.exponent := (one_mul _).symm
        _ ≤ s.digits * 10 ^ s.exponent := by gcongr
        _ ≤ (m + 1 / 2) * 2 ^ e := hhi
        _ ≤ 2 ^ 24 * 2 ^ (104 : ℤ) := by
          gcongr
          linarith
        _ < 10 ^ (41 : ℤ) := by norm_num
    have := (zpow_lt_zpow_iff_right₀ (by norm_num)).mp hlt
    omega

lemma margin (h : Found m e s) (hm : 0 < m) (hc : single.Canonical m e) (hD : 2 ^ 24 < s.digits) :
    single.lowEnd m e + s.number / 2 ^ 51 < s.number ∧ s.number + s.number / 2 ^ 51 < Format.highEnd m e := by
  have hu : (0 : ℚ) < 2 ^ e := by positivity
  have hg : (0 : ℚ) < 10 ^ s.exponent := by positivity
  have hy := h.chosen.resolve_left (by omega)
  have hhigh := h.near.2.1
  have hm₁ : (m : ℚ) + 1 ≤ 2 ^ 24 := by exact_mod_cast hc.lt
  have hD : (2 ^ 24 + 1 : ℚ) ≤ s.digits := by exact_mod_cast hD
  -- so many digits make the grid finer than the last place
  have hfine : (2 ^ 24 + 1) * (10 : ℚ) ^ s.exponent ≤ s.number := by
    rw [Scaled.number]
    gcongr
  have hmu : m * (2 : ℚ) ^ e ≤ (2 ^ 24 - 1) * 2 ^ e := by
    gcongr
    linarith
  have hlow : single.lowEnd m e = m * 2 ^ e - 2 ^ e / 4 ∧ m * (2 : ℚ) ^ e = 2 ^ 23 * 2 ^ e ∨
      single.lowEnd m e = m * 2 ^ e - 2 ^ e / 2 := by
    rw [Format.lowEnd, Format.quarter]
    split_ifs with hs
    · rw [hs.1, leading_single]
      push_cast
      exact .inl ⟨by ring, rfl⟩
    · exact .inr (by ring)
  rw [Format.highEnd_eq] at hhigh ⊢
  have hside := hy.near
  rw [Interval.center_around] at hside
  have hin : single.lowEnd m e < m * 2 ^ e := by linarith [lowEnd_le (m := m) (e := e)]
  rcases hside with ⟨hle, hlt, hclose⟩ | ⟨hlt, hle, hclose⟩
  · have hclose' : 2 * (m * 2 ^ e - s.number) ≤ 10 ^ s.exponent ∨ (m + 1 / 2) * 2 ^ e ≤ s.number + 10 ^ s.exponent := by
      refine hclose.imp_right fun hn => not_lt.mp fun hlt' => hn ?_
      rw [← Format.highEnd_eq] at hlt'
      exact (Interval.holds_around_iff hm).mpr (Format.near_of_lt (hin.trans hlt) hlt')
    rcases hlow with ⟨hlow, hX⟩ | hlow <;> rcases hclose' with hc | hc <;> rw [hlow] <;> constructor <;> linarith
  · have hclose' : 2 * (s.number - m * 2 ^ e) ≤ 10 ^ s.exponent ∨ s.number - 10 ^ s.exponent ≤ single.lowEnd m e := by
      refine hclose.imp_right fun hn => not_lt.mp fun hlt' => hn ?_
      have hlt : s.number - 10 ^ s.exponent < Format.highEnd m e := by
        rw [Format.highEnd_eq]
        linarith
      exact (Interval.holds_around_iff hm).mpr (Format.near_of_lt hlt' hlt)
    rcases hlow with ⟨hlow, hX⟩ | hlow <;> rw [hlow] at hclose' ⊢ <;> rcases hclose' with hc | hc <;> constructor <;>
      linarith

lemma near_of_many (h : Found m e s) (hm : 0 < m) (hc : single.Canonical m e) (he : e ≤ 104)
    (hD : 2 ^ 24 < s.digits) (hv : Binary.Rounded (s.digits * Json.approximation s.exponent) v) :
    single.Near m e v := by
  obtain ⟨hk, hk'⟩ := h.exponent_bounds hm hc he
  obtain ⟨hlo, hhi⟩ := h.margin hm hc hD
  have hD₀ : (0 : ℚ) < s.digits := by exact_mod_cast h.pos hm
  have hpos : 0 < s.number := by
    rw [Scaled.number]
    positivity
  have happrox : |s.digits * Json.approximation s.exponent - s.number| ≤ s.number / 2 ^ 52 := by
    rw [Scaled.number, ← mul_sub, abs_mul, abs_of_pos hD₀, mul_div_assoc]
    exact mul_le_mul_of_nonneg_left (Json.abs_approximation_sub_le (by omega) (by omega)) hD₀.le
  obtain ⟨h₁, h₂⟩ := abs_le.mp happrox
  obtain ⟨h₃, h₄⟩ := abs_le.mp hv.abs_sub_le
  apply Format.near_of_lt <;> linarith

/-- Both ends have 25 binary digits at most, and a decimal of few digits is not taken across them. -/
lemma sided_ends (h : Found m e s) (hm : 0 < m) (hc : single.Canonical m e) (he : e ≤ 104)
    (hD : s.digits ≤ 2 ^ 24) (hv : Binary.Rounded (s.digits * Json.approximation s.exponent) v) :
    Json.Sided s.number v (single.lowEnd m e) ∧ Json.Sided s.number v (Format.highEnd m e) := by
  obtain ⟨hk, hk'⟩ := h.exponent_bounds hm hc he
  have hm₁ : m < 2 ^ 24 := hc.lt
  have hside {n : ℕ} (hn : 0 < n) (hn' : n < 2 ^ 25) (q : ℤ) : Json.Sided s.number v (n * 2 ^ q) :=
    Json.sided_of_rounded hn hn' (h.pos hm) hD hk hk' hv q
  constructor
  · rw [Format.lowEnd]
    split_ifs with hs
    · have hlow := hside (n := 4 * m - 1) (by omega) (by rw [hs.1, leading_single]; decide) (e - 2)
      rw [Nat.cast_sub (by omega)] at hlow
      push_cast at hlow
      exact hlow
    · have hlow := hside (n := 2 * m - 1) (by omega) (by omega) (e - 1)
      have hq : (4 * m - 2) * (2 : ℚ) ^ (e - 2) = (2 * m - 1) * 2 ^ (e - 1) := by
        rw [show e - 1 = e - 2 + 1 by ring, zpow_add_one₀ two_ne_zero]
        ring
      rw [Nat.cast_sub (by omega)] at hlow
      push_cast at hlow
      rwa [hq]
  · have hhigh := hside (n := 2 * m + 1) (by omega) (by omega) (e - 1)
    have hq : (m + 1 / 2) * (2 : ℚ) ^ e = (2 * m + 1 : ℕ) * 2 ^ (e - 1) := by
      rw [zpow_sub_one₀ two_ne_zero]
      push_cast
      ring
    rwa [Format.highEnd_eq, hq]

/-- With its two roundings the reader stays among the numbers that round to `m * 2 ^ e`. -/
lemma near_of_rounded (h : Found m e s) (hm : 0 < m) (hc : single.Canonical m e) (he : e ≤ 104)
    (hv : Binary.Rounded (s.digits * Json.approximation s.exponent) v) : single.Near m e v := by
  rcases Nat.lt_or_ge (2 ^ 24) s.digits with hD | hD
  · exact h.near_of_many hm hc he hD hv
  · obtain ⟨hlow, hhigh⟩ := h.sided_ends hm hc he hD hv
    obtain ⟨h₁, h₂, h₃⟩ := h.near
    refine ⟨?_, ?_, fun ho => ⟨hlow.gt (h₃ ho).1, hhigh.lt (h₃ ho).2⟩⟩
    · rcases h₁.lt_or_eq with hlt | heq
      · exact (hlow.gt hlt).le
      · exact (hlow.eq heq.symm).ge
    · rcases h₂.lt_or_eq with hlt | heq
      · exact (hhigh.lt hlt).le
      · exact (hhigh.eq heq).le

end Found

end Woodland.Decimal
