import Mathlib.Tactic
import Woodland.Binary.Conversion
import Woodland.Proofs.Numbers.SingleFormat

/-!
Bit patterns of single-precision numbers: what a pattern means agrees with what machine arithmetic makes of it, and
a number of the format is nearest to itself.
-/

namespace Woodland

open Float.Model (UnpackedFloat)
open Float.Model.UnpackedFloat
open Float.Model.Format (binary32)

namespace Single

lemma toNat_unpackMantissa (b : BitVec binary32.numBits) : (unpackMantissa b).toNat = b.toNat % 8388608 := by
  change (BitVec.extractLsb 22 0 b).toNat = _
  rw [BitVec.extractLsb_toNat, Nat.shiftRight_zero]

lemma toNat_unpackExponent (b : BitVec binary32.numBits) : (unpackExponent b).toNat = b.toNat / 8388608 % 256 := by
  change (BitVec.extractLsb 30 23 b).toNat = _
  rw [BitVec.extractLsb_toNat, Nat.shiftRight_eq_div_pow]

lemma toNat_unpackSign (b : BitVec binary32.numBits) : (unpackSign b).toNat = b.toNat / 2147483648 % 2 := by
  change (BitVec.extractLsb 31 31 b).toNat = _
  rw [BitVec.extractLsb_toNat, Nat.shiftRight_eq_div_pow]

variable {b : BitVec binary32.numBits}

lemma lt_of_positive (h : Sign.ofBitVec (unpackSign b) = .positive) : b.toNat < 2147483648 := by
  have hb : b.toNat < 4294967296 := b.isLt
  have hs := toNat_unpackSign b
  unfold Sign.ofBitVec at h
  split_ifs at h with h₀
  rw [h₀] at hs
  change 0 = _ at hs
  omega

lemma positive_of_lt (h : b.toNat < 2147483648) : Sign.ofBitVec (unpackSign b) = .positive := by
  have hs : unpackSign b = 0#1 := by
    apply BitVec.eq_of_toNat_eq
    rw [toNat_unpackSign]
    change _ = 0
    omega
  rw [hs]
  rfl

/-- Below the pattern of infinity there are zero and the positive numbers, and a pattern tells which. -/
lemma unpack_of_lt (h : b.toNat < 2139095040) :
    UnpackedFloat.unpack binary32 b = .zero .positive ∧ b.toNat = 0 ∨
      ∃ m e hm, UnpackedFloat.unpack binary32 b = .finite .positive m e hm ∧
        b.toNat = (e + 149).toNat * 8388608 + m := by
  have hx := toNat_unpackExponent b
  have hf := toNat_unpackMantissa b
  have hfull : ¬unpackExponent b = -1#8 := fun hc => by
    rw [hc] at hx
    change 255 = _ at hx
    omega
  simp only [UnpackedFloat.unpack, positive_of_lt (show b.toNat < 2147483648 by omega)]
  rw [if_neg hfull]
  split_ifs with h₀ h₁
  · rw [h₀] at hx
    rw [h₁] at hf
    change 0 = _ at hx
    change 0 = _ at hf
    exact .inl ⟨rfl, by omega⟩
  · have hm : 0 < (unpackMantissa b).toNat := Nat.pos_of_ne_zero fun hc => h₁ (BitVec.eq_of_toNat_eq hc)
    rw [h₀] at hx ⊢
    change 0 = _ at hx
    refine .inr ⟨_, _, hm, rfl, ?_⟩
    change _ = (((0 : ℕ) : ℤ) - (127 + 23) + 1 + 149).toNat * 8388608 + _
    omega
  · have hne : b.toNat / 8388608 % 256 ≠ 0 := fun hc => h₀ (BitVec.eq_of_toNat_eq (hx.trans hc))
    refine .inr ⟨_, _, by rw [toNat_implicit]; positivity, rfl, ?_⟩
    change _ = ((_ : ℤ) - (127 + 23) + 149).toNat * 8388608 + _
    rw [toNat_implicit, hf, hx]
    change _ = _ + (2 ^ 23 + b.toNat % 8388608)
    omega

end Single

namespace Binary

lemma value_single (bits : ℕ) : single.value bits =
    if bits % 2147483648 < 2139095040 then
      if bits % 2147483648 / 8388608 = 0 then
        .finite (decide (2147483648 ≤ bits)) (bits % 2147483648 % 8388608) (-149)
      else
        .finite (decide (2147483648 ≤ bits)) (8388608 + bits % 2147483648 % 8388608)
          (-149 + ((bits % 2147483648 / 8388608 : ℕ) - 1))
    else if bits % 2147483648 = 2139095040 then .infinite (decide (2147483648 ≤ bits))
    else .nan := rfl

variable {m bits : ℕ} {e : ℤ}

lemma value_subnormal (h : bits / 8388608 % 256 = 0) :
    single.value bits = .finite (decide (2147483648 ≤ bits)) (bits % 8388608) (-149) := by
  rw [value_single, if_pos (by omega), if_pos (by omega)]
  congr 1
  omega

lemma value_normal (h₀ : bits / 8388608 % 256 ≠ 0) (h₁ : bits / 8388608 % 256 ≠ 255) :
    single.value bits =
      .finite (decide (2147483648 ≤ bits)) (8388608 + bits % 8388608) ((bits / 8388608 % 256 : ℕ) - 150) := by
  rw [value_single, if_pos (by omega), if_neg (by omega)]
  congr 1 <;> omega

variable {hm : 0 < m} {x : Float32}

lemma ofSingle_zero {s : Sign} (h : Single.unpacked x = .zero s) : ∃ negative, ofSingle x = .finite negative 0 (-149) := by
  change UnpackedFloat.unpack binary32 x.toBits.toBitVec = _ at h
  simp only [UnpackedFloat.unpack] at h
  split_ifs at h with h₁ h₂ h₃ h₄
  have hx := Single.toNat_unpackExponent x.toBits.toBitVec
  have hf := Single.toNat_unpackMantissa x.toBits.toBitVec
  rw [h₃] at hx
  rw [h₄] at hf
  refine ⟨decide (2147483648 ≤ x.toBits.toNat), (value_subnormal hx.symm).trans ?_⟩
  rw [← hf]
  rfl

lemma ofSingle_finite (h : Single.unpacked x = .finite .positive m e hm) : ofSingle x = .finite false m e := by
  change UnpackedFloat.unpack binary32 x.toBits.toBitVec = _ at h
  have hx := Single.toNat_unpackExponent x.toBits.toBitVec
  have hf := Single.toNat_unpackMantissa x.toBits.toBitVec
  change single.value x.toBits.toBitVec.toNat = _
  simp only [UnpackedFloat.unpack] at h
  split_ifs at h with h₁ h₂ h₃ h₄
  · obtain ⟨hs, rfl, rfl⟩ := UnpackedFloat.finite.inj h
    have hlt := Single.lt_of_positive hs
    rw [h₃] at hx ⊢
    rw [value_subnormal hx.symm, decide_eq_false (by omega), hf]
    rfl
  · obtain ⟨hs, rfl, rfl⟩ := UnpackedFloat.finite.inj h
    have hlt := Single.lt_of_positive hs
    have h₀ : x.toBits.toBitVec.toNat / 8388608 % 256 ≠ 0 := fun hc => h₃ (BitVec.eq_of_toNat_eq (hx.trans hc))
    have h₂₅₅ : x.toBits.toBitVec.toNat / 8388608 % 256 ≠ 255 := fun hc => h₁ (BitVec.eq_of_toNat_eq (hx.trans hc))
    rw [Single.toNat_implicit, value_normal h₀ h₂₅₅, decide_eq_false (by omega), hx, hf]
    rfl

lemma value_pattern (h : Single.Canonical m e) (he : e ≤ 104) :
    single.value ((e + 149).toNat * 8388608 + m) = .finite false m e := by
  obtain ⟨hlt, hlow, hfull⟩ := h
  by_cases hn : 2 ^ 23 ≤ m
  · rw [value_normal (by omega) (by omega), decide_eq_false (by omega)]
    congr 1 <;> omega
  · obtain rfl := hfull.resolve_left hn
    rw [value_subnormal (by omega), decide_eq_false (by omega)]
    congr 1
    omega

lemma roundEven_mul (q : ℕ) {d : ℕ} (hd : 0 < d) : roundEven (q * d) d = q := by
  simp [roundEven, hd]

lemma nearest_single (n d : ℕ) : single.nearest n d =
    if n = 0 then 0
    else min 2139095040
      ((single.exponentFor n d + 149).toNat * 8388608 +
        roundEven (lower n d (single.exponentFor n d)).1 (lower n d (single.exponentFor n d)).2) := by
  rw [Format.nearest]
  rfl

lemma exponentFor_single (n d : ℕ) : single.exponentFor n d =
    max (-149 : ℤ)
      (if (lower n d ((n.log2 : ℤ) - d.log2 - 23)).1 < 8388608 * (lower n d ((n.log2 : ℤ) - d.log2 - 23)).2
        then (n.log2 : ℤ) - d.log2 - 23 - 1 else (n.log2 : ℤ) - d.log2 - 23) := rfl

lemma log2_mul_two_pow (hm : 0 < m) (j : ℕ) : (m * 2 ^ j).log2 = m.log2 + j := by
  have hj : 0 < 2 ^ j := by positivity
  obtain ⟨hle, hlt⟩ := (Nat.log2_eq_iff hm.ne').mp rfl
  refine (Nat.log2_eq_iff (Nat.mul_pos hm hj).ne').mpr ⟨?_, ?_⟩
  · rw [pow_add]
    exact Nat.mul_le_mul_right _ hle
  · rw [Nat.add_right_comm, pow_add]
    exact Nat.mul_lt_mul_of_pos_right hlt hj

lemma lower_canonical {j k : ℕ} (hjk : j < k) : lower (m * 2 ^ j) (2 ^ k) ((j : ℤ) - k) = (m * 2 ^ k, 2 ^ k) := by
  have hl (n d i : ℕ) : lower n d (Int.negSucc i) = (n * 2 ^ (i + 1), d) := rfl
  obtain ⟨i, rfl⟩ := Nat.exists_eq_add_of_lt hjk
  have he : (j : ℤ) - (j + i + 1 : ℕ) = Int.negSucc i := by omega
  rw [he, hl, Nat.mul_assoc, ← pow_add, Nat.add_assoc]

lemma exponentFor_of_canonical {j k : ℕ} (h : Single.Canonical m (j - k)) (hm : 0 < m) (hjk : j < k) :
    single.exponentFor (m * 2 ^ j) (2 ^ k) = j - k := by
  have hlow := h.low
  rw [exponentFor_single, log2_mul_two_pow hm, Nat.log2_two_pow]
  by_cases hn : 2 ^ 23 ≤ m
  · have hl : m.log2 = 23 := (Nat.log2_eq_iff hm.ne').mpr ⟨hn, h.lt⟩
    have he : ((m.log2 + j : ℕ) : ℤ) - k - 23 = j - k := by omega
    rw [he, lower_canonical hjk, if_neg]
    · omega
    · exact Nat.not_lt.mpr (Nat.mul_le_mul_right _ hn)
  · have hl : m.log2 < 23 := (Nat.log2_lt hm.ne').mpr (Nat.lt_of_not_le hn)
    have he := h.full.resolve_left hn
    split_ifs <;> omega

lemma nearest_of_canonical {j k : ℕ} (h : Single.Canonical m (j - k)) (hjk : j < k) :
    single.nearest (m * 2 ^ j) (2 ^ k) = ((j : ℤ) - k + 149).toNat * 8388608 + m := by
  have hlt := h.lt
  rcases Nat.eq_zero_or_pos m with rfl | hm
  · have he := h.full.resolve_left (by decide)
    simp [nearest_single, he]
  · have hk : 0 < 2 ^ k := by positivity
    have hj : m * 2 ^ j ≠ 0 := (Nat.mul_pos hm (by positivity)).ne'
    rw [nearest_single, if_neg hj, exponentFor_of_canonical h hm hjk, lower_canonical hjk, roundEven_mul m hk]
    omega

end Binary

end Woodland
