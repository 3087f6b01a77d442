import Mathlib.Tactic
import Woodland.Proofs.Numbers.SingleOrder

/-!
Single-precision numbers through their significands and exponents: which are the numbers of the format, when a
result has left it, and what rounding does to a significand that has at most one bit too many.
-/

namespace Woodland.Single

open Float.Model (UnpackedFloat Format totalExponent)
open Float.Model.UnpackedFloat
open Float.Model.Format (binary32)

structure Canonical (m : ℕ) (e : ℤ) : Prop where
  lt : m < 2 ^ 24
  low : -149 ≤ e
  full : 2 ^ 23 ≤ m ∨ e = -149

variable {s : Sign} {m : ℕ} {e : ℤ} {hm : 0 < m} {acc : Accuracy}

lemma le_finite_iff {m' : ℕ} {e' : ℤ} {hm' : 0 < m'} :
    UnpackedFloat.le (.finite .positive m e hm) (.finite .positive m' e' hm') = true ↔ e < e' ∨ e = e' ∧ m ≤ m' := by
  have h : UnpackedFloat.le (.finite .positive m e hm) (.finite .positive m' e' hm') =
    ((compare e e').then (compare m m')).isLE := rfl
  rw [h]
  rcases lt_trichotomy e e' with he | rfl | he
  · rw [Int.compare_eq_lt.mpr he]
    simp [he]
  · simp [Nat.isLE_compare]
  · rw [Int.compare_eq_gt.mpr he]
    simp
    omega

lemma toNat_implicit {n : ℕ} (f : BitVec n) : (1#1 ++ f).toNat = 2 ^ n + f.toNat := by
  rw [BitVec.toNat_append, ← Nat.shiftLeft_add_eq_or_of_lt f.isLt]
  simp [Nat.shiftLeft_eq]

lemma canonical_unpack {b : BitVec binary32.numBits} (h : UnpackedFloat.unpack binary32 b = .finite s m e hm) :
    Canonical m e ∧ e ≤ 104 := by
  have hf := (unpackMantissa b).isLt
  have hx := (unpackExponent b).isLt
  simp only [UnpackedFloat.unpack] at h
  split_ifs at h with h₁ h₂ h₃ h₄
  · obtain ⟨-, rfl, rfl⟩ := UnpackedFloat.finite.inj h
    rw [h₃]
    refine ⟨⟨?_, by decide, .inr (by decide)⟩, by decide⟩
    exact hf.trans (by decide)
  · obtain ⟨-, rfl, rfl⟩ := UnpackedFloat.finite.inj h
    rw [toNat_implicit]
    have h₅ : (unpackExponent b).toNat ≠ 0 := fun hc => h₃ (BitVec.eq_of_toNat_eq hc)
    have h₆ : (unpackExponent b).toNat ≠ 255 := fun hc => h₁ (BitVec.eq_of_toNat_eq hc)
    change (unpackMantissa b).toNat < 2 ^ 23 at hf
    change (unpackExponent b).toNat < 256 at hx
    refine ⟨⟨?_, ?_, ?_⟩, ?_⟩
    · change 2 ^ 23 + _ < _
      omega
    · change -149 ≤ _ - ((127 : ℤ) + 23)
      omega
    · left
      exact Nat.le_add_right _ _
    · change _ - ((127 : ℤ) + 23) ≤ 104
      omega

lemma targetExponent_eq (m : ℕ) (e : ℤ) :
    binary32.targetExponent (totalExponent m e) = max ((m.log2 : ℤ) + 1 + e - 24) (-149) := rfl

lemma targetExponent_le (hm : m < 2 ^ 24) (he : -149 ≤ e) : binary32.targetExponent (totalExponent m e) ≤ e := by
  have hl : m.log2 < 24 := by
    rcases Nat.eq_zero_or_pos m with rfl | h
    · decide
    · exact (Nat.log2_lt (by omega)).mpr hm
  rw [targetExponent_eq]
  omega

lemma targetExponent_succ (h₁ : 2 ^ 24 ≤ m) (h₂ : m < 2 ^ 25) (he : -149 ≤ e) :
    binary32.targetExponent (totalExponent m e) = e + 1 := by
  have hl : m.log2 = 24 := (Nat.log2_eq_iff (by omega)).mpr ⟨h₁, h₂⟩
  rw [targetExponent_eq, hl]
  push_cast
  omega

lemma Canonical.targetExponent_eq (h : Canonical m e) : binary32.targetExponent (totalExponent m e) = e := by
  apply le_antisymm (targetExponent_le h.lt h.low)
  rw [Single.targetExponent_eq]
  rcases h.full with hf | rfl
  · have hl : 23 ≤ m.log2 := (Nat.le_log2 (by omega)).mpr hf
    omega
  · exact le_max_right _ _

/-- What is left of `u` when it is written in the format and read again. -/
def written (u : UnpackedFloat) : UnpackedFloat :=
  UnpackedFloat.unpack binary32 (UnpackedFloat.pack binary32 u)

@[simp] lemma unpackSign_packComponents {spec : Format} (x : BitVec spec.exponentBits)
    (f : BitVec spec.mantissaBitsWithoutImplicit) : Sign.ofBitVec (unpackSign (packComponents spec s x f)) = s := by
  have h : unpackSign (packComponents spec s x f) = s.toBitVec := by
    ext i hi
    obtain rfl : i = 0 := by omega
    simp [unpackSign, packComponents, BitVec.getLsbD_append, BitVec.getElem_append]
  rw [h]
  cases s <;> rfl

lemma written_infinity (s : Sign) : written (.infinity s) = .infinity s := by
  cases s <;> rfl

lemma isFinite_of_written {u : UnpackedFloat} (h : (written u).isFinite = true) : u.isFinite = true := by
  cases u with
  | notANumber => exact absurd h (by decide)
  | infinity s =>
    rw [written_infinity] at h
    exact h
  | zero s | finite s m e hm => rfl

lemma written_overflow (he : 104 < e) : written (.finite s m e hm) = .infinity s := by
  have h : 2 ^ 8 ≤ (e + 127 + 23).toNat + 1 := by omega
  rw [← written_infinity, written, written, UnpackedFloat.pack]
  exact congrArg _ (if_pos h)

lemma unpack_normal {x : BitVec 8} {f : BitVec 23} (h₀ : 0 < x.toNat) (h₁ : x.toNat < 255)
    (hf : 2 ^ 23 + f.toNat = m) (hx : (x.toNat : ℤ) = e + 150) :
    UnpackedFloat.unpack binary32 (packComponents binary32 s x f) = .finite s m e hm := by
  simp only [UnpackedFloat.unpack, unpackExponent_packComponents, unpackMantissa_packComponents,
    unpackSign_packComponents]
  rw [if_neg, if_neg]
  · congr 1
    · rw [toNat_implicit, hf]
    · change _ - ((127 : ℤ) + 23) = e
      omega
  · rintro rfl
    exact absurd h₀ (by decide)
  · rintro rfl
    exact absurd h₁ (by decide)

lemma unpack_subnormal {f : BitVec 23} (hf : f.toNat = m) :
    UnpackedFloat.unpack binary32 (packComponents binary32 s 0#8 f) = .finite s m (-149) hm := by
  simp only [UnpackedFloat.unpack, unpackExponent_packComponents, unpackMantissa_packComponents,
    unpackSign_packComponents]
  rw [if_neg (by decide), if_pos trivial, dif_neg]
  · congr 1
  · rintro rfl
    exact absurd hm (by rw [← hf]; decide)

lemma pack_finite (he : e ≤ 104) :
    UnpackedFloat.pack binary32 (.finite s m e hm) =
      if m.log2 + 1 = 24 then packComponents binary32 s (BitVec.ofNat 8 (e + 127 + 23).toNat) (BitVec.ofNat 23 m)
      else packComponents binary32 s 0#8 (BitVec.ofNat 23 m) := by
  have hb : ¬2 ^ 8 ≤ (e + 127 + 23).toNat + 1 := by omega
  exact if_neg hb

lemma written_finite (h : Canonical m e) (he : e ≤ 104) : written (.finite s m e hm) = .finite s m e hm := by
  have hlt := h.lt
  have hlow := h.low
  rw [written, pack_finite he]
  by_cases hn : 2 ^ 23 ≤ m
  · have hl : m.log2 + 1 = 24 := by rw [(Nat.log2_eq_iff hm.ne').mpr ⟨hn, hlt⟩]
    rw [if_pos hl]
    apply unpack_normal <;> rw [BitVec.toNat_ofNat] <;> omega
  · have hl : m.log2 < 23 := (Nat.log2_lt hm.ne').mpr (Nat.lt_of_not_le hn)
    obtain rfl := h.full.resolve_left hn
    rw [if_neg (by omega)]
    apply unpack_subnormal
    rw [BitVec.toNat_ofNat]
    omega

lemma isFinite_unpack {x : BitVec 8} {f : BitVec 23} (h : x.toNat < 255) :
    (UnpackedFloat.unpack binary32 (packComponents binary32 s x f)).isFinite = true := by
  simp only [UnpackedFloat.unpack, unpackExponent_packComponents, unpackMantissa_packComponents,
    unpackSign_packComponents]
  rw [if_neg]
  · split_ifs <;> rfl
  · rintro rfl
    exact absurd h (by decide)

lemma isFinite_written (hm : 0 < m) (he : e ≤ 104) : (written (.finite s m e hm)).isFinite = true := by
  rw [written, pack_finite he]
  split
  · apply isFinite_unpack
    rw [BitVec.toNat_ofNat]
    omega
  · exact isFinite_unpack (by decide)

lemma isFinite_written_iff (hm : 0 < m) : (written (.finite s m e hm)).isFinite = true ↔ e ≤ 104 := by
  constructor
  · intro h
    by_contra he
    rw [written_overflow (by omega)] at h
    cases h
  · exact isFinite_written hm

lemma shift_none (acc : Accuracy) (h : binary32.targetExponent (totalExponent m e) ≤ e) :
    shiftToTargetExponent binary32 m e acc = (.ofMantissaAndAccuracy m acc, e) := by
  have hs : (binary32.targetExponent (totalExponent m e) - e).toNat = 0 := by omega
  simp only [shiftToTargetExponent, shiftToExponent, hs]
  exact Prod.ext rfl (Int.add_zero e)

lemma shift_one (acc : Accuracy) (h : binary32.targetExponent (totalExponent m e) = e + 1) :
    shiftToTargetExponent binary32 m e acc = ((ExtendedMantissa.ofMantissaAndAccuracy m acc).shiftRightOne, e + 1) := by
  have hs : (binary32.targetExponent (totalExponent m e) - e).toNat = 1 := by omega
  simp only [shiftToTargetExponent, shiftToExponent, hs]
  exact Prod.ext rfl rfl

lemma roundWithAccuracy_eq {em : ExtendedMantissa} {e' : ℤ} (h : shiftToTargetExponent binary32 m e acc = (em, e'))
    (hr : em.roundedMantissa < 2 ^ 24) (h₀ : 0 < em.roundedMantissa) (he : -149 ≤ e') :
    roundWithAccuracy binary32 s m e acc = .finite s em.roundedMantissa e' h₀ := by
  -- a rounded significand that fits is not shifted a second time
  simp only [roundWithAccuracy, h, shift_none .exact (targetExponent_le hr he)]
  exact dif_neg h₀.ne'

@[simp] lemma mantissa_of (m : ℕ) (acc : Accuracy) : (ExtendedMantissa.ofMantissaAndAccuracy m acc).mantissa = m := by
  cases acc with
  | exact => rfl
  | inexact o => cases o <;> rfl

@[simp] lemma mantissa_shiftRightOne (em : ExtendedMantissa) : em.shiftRightOne.mantissa = em.mantissa / 2 := rfl

lemma roundToNearestEven_bounds (m : ℕ) (acc : Accuracy) :
    m ≤ acc.roundToNearestEven m ∧ acc.roundToNearestEven m ≤ m + 1 := by
  cases acc with
  | exact => exact ⟨le_rfl, Nat.le_succ m⟩
  | inexact o =>
    cases o with
    | lt => exact ⟨le_rfl, Nat.le_succ m⟩
    | eq =>
      change m ≤ m + m % 2 ∧ m + m % 2 ≤ m + 1
      omega
    | gt => exact ⟨Nat.le_succ m, le_rfl⟩

lemma roundedMantissa_bounds (em : ExtendedMantissa) :
    em.mantissa ≤ em.roundedMantissa ∧ em.roundedMantissa ≤ em.mantissa + 1 :=
  roundToNearestEven_bounds em.mantissa em.accuracy

end Woodland.Single
