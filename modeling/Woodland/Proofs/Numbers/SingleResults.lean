import Mathlib.Tactic
import Woodland.Proofs.Numbers.RoundingOrder
import Woodland.Proofs.Numbers.SingleFormat
import Woodland.Proofs.Numbers.SinglePattern

/-!
Machine arithmetic on single-precision numbers is the exact arithmetic, rounded once: the two bits that are kept of a
significand while it is shifted decide the rounding as the whole of it would.
-/

namespace Woodland.Single

open Binary (Nearest single)
open Float.Model (UnpackedFloat totalExponent)
open Float.Model.UnpackedFloat
open Float.Model.Format (binary32)

/-- What a significand stands for with the two bits that are left of its places. -/
def Shows : ExtendedMantissa → ℚ → Prop
  | ⟨m, false, false⟩, x => x = m
  | ⟨m, false, true⟩, x => m < x ∧ x < m + 1 / 2
  | ⟨m, true, false⟩, x => x = m + 1 / 2
  | ⟨m, true, true⟩, x => m + 1 / 2 < x ∧ x < m + 1

namespace Shows

variable {em : ExtendedMantissa} {x : ℚ}

lemma shiftRightOne (h : Shows em x) : Shows em.shiftRightOne (x / 2) := by
  obtain ⟨m, r, t⟩ := em
  rcases Nat.even_or_odd' m with ⟨q, rfl | rfl⟩
  · have hs : ExtendedMantissa.shiftRightOne ⟨2 * q, r, t⟩ = ⟨q, false, r || t⟩ := by
      simp [ExtendedMantissa.shiftRightOne]
    rw [hs]
    cases r <;> cases t <;> simp only [Shows, Bool.or_true, Bool.or_false] at h ⊢ <;> push_cast at h
    · linarith
    · constructor <;> linarith
    · constructor <;> linarith
    · constructor <;> linarith
  · have hs : ExtendedMantissa.shiftRightOne ⟨2 * q + 1, r, t⟩ = ⟨q, true, r || t⟩ := by
      simp [ExtendedMantissa.shiftRightOne]
      omega
    rw [hs]
    cases r <;> cases t <;> simp only [Shows, Bool.or_true, Bool.or_false] at h ⊢ <;> push_cast at h
    · linarith
    · constructor <;> linarith
    · constructor <;> linarith
    · constructor <;> linarith

lemma shiftRight (h : Shows em x) (k : ℕ) : Shows (em >>> k) (x / 2 ^ k) := by
  change Shows (k.repeat ExtendedMantissa.shiftRightOne em) _
  induction k with
  | zero => simpa [Nat.repeat] using h
  | succ k ih =>
    rw [Nat.repeat, pow_succ, ← div_div]
    exact ih.shiftRightOne

lemma nearest (h : Shows em x) : Nearest em.roundedMantissa x := by
  obtain ⟨m, r, t⟩ := em
  cases r <;> cases t <;> simp only [Shows] at h <;>
    simp only [ExtendedMantissa.roundedMantissa, ExtendedMantissa.accuracy, Accuracy.roundToNearestEven]
  · rw [h]
    exact Nearest.self m
  · exact Nearest.of_lt (abs_lt.mpr ⟨by push_cast; linarith, by push_cast; linarith⟩)
  · -- half way: the even one of two neighbours
    rcases Nat.even_or_odd' m with ⟨q, rfl | rfl⟩
    · rw [Nat.mul_mod_right, Nat.add_zero]
      exact Nearest.of_even (by simp) (abs_le.mpr ⟨by push_cast at h ⊢; linarith, by push_cast at h ⊢; linarith⟩)
    · have hm : 2 * q + 1 + (2 * q + 1) % 2 = 2 * (q + 1) := by omega
      rw [hm]
      exact Nearest.of_even (by simp) (abs_le.mpr ⟨by push_cast at h ⊢; linarith, by push_cast at h ⊢; linarith⟩)
  · exact Nearest.of_lt (abs_lt.mpr ⟨by push_cast; linarith, by push_cast; linarith⟩)

end Shows

def exact : UnpackedFloat → ℚ
  | .finite s m e _ => s.apply m * 2 ^ e
  | _ => 0

/-- Zeros, and numbers that are written as the format writes them, exponents that are too large left aside. -/
def Regular : UnpackedFloat → Prop
  | .zero _ => True
  | .finite _ m e _ => Canonical m e
  | _ => False

lemma Canonical.format {m : ℕ} {e : ℤ} (h : Canonical m e) : single.Canonical m e := ⟨h.low, h.lt, h.full⟩

/-- What an operation gives is the exact result, rounded once. -/
structure RoundsTo (x : ℚ) (u : UnpackedFloat) : Prop where
  regular : Regular u
  rounds : single.Rounds x (exact u)

variable {s : Sign} {m k : ℕ} {e t : ℤ} {u v : UnpackedFloat}

@[simp] lemma exact_zero (s : Sign) : exact (.zero s) = 0 := rfl

lemma exact_finite (s : Sign) (hm : 0 < m) : exact (.finite s m e hm) = s.apply m * 2 ^ e := rfl

lemma rounds_apply (s : Sign) (h : single.Rounds (m * 2 ^ e) (k * 2 ^ t)) :
    single.Rounds (s.apply m * 2 ^ e) (s.apply k * 2 ^ t) := by
  cases s with
  | positive => exact h
  | negative => simpa [Sign.apply] using h.neg

lemma leading_single : single.leading = 2 ^ 23 := rfl

lemma fits_target (hm : 0 < m) (e : ℤ) : single.Fits (m * 2 ^ e) (binary32.targetExponent (totalExponent m e)) := by
  obtain ⟨hlo, hhi⟩ := Binary.Format.log2_bounds hm
  have hu : (0 : ℚ) < 2 ^ e := by positivity
  have hl : (single.leading : ℚ) = 2 ^ (23 : ℤ) := by
    rw [leading_single]
    norm_num
  rw [targetExponent_eq, max_comm]
  apply Binary.Format.fits_max
  · rw [hl, ← zpow_add₀ two_ne_zero]
    calc (2 : ℚ) ^ (23 + ((m.log2 : ℤ) + 1 + e - 24)) = 2 ^ (m.log2 : ℤ) * 2 ^ e := by
          rw [← zpow_add₀ two_ne_zero]
          congr 1
          ring
      _ ≤ m * 2 ^ e := mul_le_mul_of_nonneg_right hlo hu.le
  · rw [hl, ← zpow_one_add₀ two_ne_zero, ← zpow_add₀ two_ne_zero]
    calc (m : ℚ) * 2 ^ e < 2 ^ ((m.log2 : ℤ) + 1) * 2 ^ e := mul_lt_mul_of_pos_right hhi hu
      _ = 2 ^ (1 + 23 + ((m.log2 : ℤ) + 1 + e - 24)) := by
          rw [← zpow_add₀ two_ne_zero]
          congr 1
          ring

lemma result_of_shift (s : Sign) {em : ExtendedMantissa} (h : shiftToTargetExponent binary32 m e .exact = (em, t))
    (ht : -149 ≤ t) (hk : em.roundedMantissa ≤ 2 ^ 24) (hfull : 2 ^ 23 ≤ em.roundedMantissa ∨ t = -149) :
    Regular (roundWithAccuracy binary32 s m e .exact) ∧
      exact (roundWithAccuracy binary32 s m e .exact) = s.apply em.roundedMantissa * 2 ^ t := by
  rcases Nat.eq_zero_or_pos em.roundedMantissa with h₀ | hpos
  · have hz : roundWithAccuracy binary32 s m e .exact = .zero s := by
      have hlt : em.roundedMantissa < 2 ^ 24 := by omega
      simp only [roundWithAccuracy, h, shift_none .exact (targetExponent_le hlt ht)]
      exact dif_pos h₀
    rw [hz, h₀]
    refine ⟨trivial, ?_⟩
    cases s <;> simp [exact, Sign.apply]
  · rcases Nat.lt_or_eq_of_le hk with hlt | heq
    · rw [roundWithAccuracy_eq h hlt hpos ht]
      exact ⟨⟨hlt, ht, hfull⟩, rfl⟩
    · have hr : roundWithAccuracy binary32 s m e .exact = .finite s (2 ^ 23) (t + 1) (by decide) := by
        simp only [roundWithAccuracy, h, heq, shift_one .exact (targetExponent_succ le_rfl (by decide) ht)]
        rfl
      rw [hr, heq]
      refine ⟨⟨by decide, by omega, .inl le_rfl⟩, ?_⟩
      rw [exact_finite, zpow_add_one₀ two_ne_zero]
      cases s <;> simp only [Sign.apply] <;> push_cast <;> ring

lemma roundsTo_roundWithAccuracy (s : Sign) (hm : 0 < m) (he : e ≤ binary32.targetExponent (totalExponent m e)) :
    RoundsTo (s.apply m * 2 ^ e) (roundWithAccuracy binary32 s m e .exact) := by
  have hf := fits_target hm e
  generalize ht : binary32.targetExponent (totalExponent m e) = t at he hf
  obtain ⟨n, rfl⟩ := Int.le.dest he
  have hn : (e + n - e).toNat = n := by omega
  have hu : (0 : ℚ) < 2 ^ (e + n) := by positivity
  obtain ⟨em, hem⟩ : ∃ em, em = ExtendedMantissa.ofMantissaAndAccuracy m .exact >>> n := ⟨_, rfl⟩
  have hshift : shiftToTargetExponent binary32 m e .exact = (em, e + n) := by
    simp only [shiftToTargetExponent, shiftToExponent, ht, hn, hem]
  have hshows : Shows em (m * 2 ^ e / 2 ^ (e + n)) := by
    have hx : (m : ℚ) * 2 ^ e / 2 ^ (e + n) = m / 2 ^ n := by
      rw [zpow_add₀ two_ne_zero, zpow_natCast]
      field_simp
    have hm : Shows (ExtendedMantissa.ofMantissaAndAccuracy m .exact) m := rfl
    rw [hx, hem]
    exact hm.shiftRight n
  have hk := hshows.nearest
  have hle : em.roundedMantissa ≤ 2 ^ 24 := by
    have hlt := hf.lt
    rw [leading_single] at hlt
    have hle := hk.le (Nearest.self (2 ^ 24)) (by rw [div_le_iff₀ hu]; push_cast at hlt ⊢; linarith)
    exact_mod_cast hle
  have hfull : 2 ^ 23 ≤ em.roundedMantissa ∨ e + n = -149 := by
    apply hf.full.imp_left
    intro hlow
    rw [leading_single] at hlow
    have hge := (Nearest.self (2 ^ 23)).le hk (by rw [le_div_iff₀ hu]; push_cast at hlow ⊢; linarith)
    exact_mod_cast hge
  obtain ⟨hr, he⟩ := result_of_shift s hshift hf.low hle hfull
  refine ⟨hr, ?_⟩
  rw [he]
  apply rounds_apply
  refine ⟨_, e + n, ?_, hk, by push_cast; rfl⟩
  rwa [abs_of_nonneg (by positivity)]

lemma roundsTo_round (s : Sign) (hm : 0 < m) (e : ℤ) :
    RoundsTo (s.apply m * 2 ^ e) (UnpackedFloat.round binary32 s m e) := by
  generalize hn : (e - binary32.targetExponent (totalExponent m e)).toNat = n
  have hround : UnpackedFloat.round binary32 s m e = roundWithAccuracy binary32 s (m * 2 ^ n) (e - n) .exact := by
    simp only [UnpackedFloat.round, decreaseExponent, hn, Nat.shiftLeft_eq]
  have htotal : totalExponent (m * 2 ^ n) (e - n) = totalExponent m e := by
    rw [totalExponent, totalExponent, Binary.log2_mul_two_pow hm]
    push_cast
    ring
  have hx : (s.apply m * 2 ^ e : ℚ) = s.apply (m * 2 ^ n : ℕ) * 2 ^ (e - n) := by
    rw [zpow_sub₀ two_ne_zero, zpow_natCast]
    cases s <;> simp only [Sign.apply] <;> push_cast <;> field_simp
  rw [hround, hx]
  exact roundsTo_roundWithAccuracy s (by positivity) (by rw [htotal]; omega)

lemma roundsTo_zero (s : Sign) : RoundsTo 0 (.zero s) := ⟨trivial, Binary.Format.Rounds.zero single⟩

lemma roundsTo_normalize (n e : ℤ) (s : Sign) : RoundsTo (n * 2 ^ e) (UnpackedFloat.normalize binary32 n e s) := by
  rcases lt_trichotomy n 0 with h | rfl | h
  · have hc : compare n 0 = .lt := Int.compare_eq_lt.mpr h
    have hr := roundsTo_round .negative (m := (-n).toNat) (by omega) e
    simp only [UnpackedFloat.normalize, hc]
    rwa [Sign.apply, Int.toNat_of_nonneg (by omega), neg_neg] at hr
  · simpa [UnpackedFloat.normalize] using roundsTo_zero s
  · have hc : compare n 0 = .gt := Int.compare_eq_gt.mpr h
    have hr := roundsTo_round .positive (m := n.toNat) (by omega) e
    simp only [UnpackedFloat.normalize, hc]
    rwa [Sign.apply, Int.toNat_of_nonneg h.le] at hr

lemma roundsTo_self (h : Regular u) : RoundsTo (exact u) u := by
  refine ⟨h, ?_⟩
  cases u with
  | notANumber | infinity s => cases h
  | zero s => exact Binary.Format.Rounds.zero single
  | finite s m e hm => exact rounds_apply s (Canonical.format h).rounds

lemma Canonical.le_targetExponent_mul {m' : ℕ} {e' : ℤ} (h : Canonical m e) (h' : Canonical m' e') (hm : 0 < m)
    (hm' : 0 < m') : e + e' ≤ binary32.targetExponent (totalExponent (m * m') (e + e')) := by
  have hlow := h.low
  have hlow' := h'.low
  have hlarge (hl : 2 ^ 23 ≤ m * m') : 23 ≤ (m * m').log2 := (Nat.le_log2 (by positivity)).mpr hl
  rw [Single.targetExponent_eq]
  rcases h.full with hf | he
  · have := hlarge (hf.trans (Nat.le_mul_of_pos_right m hm'))
    omega
  · rcases h'.full with hf | he'
    · have := hlarge (hf.trans (Nat.le_mul_of_pos_left m' hm))
      omega
    · omega

lemma apply_mul (s t : Sign) (a b : ℤ) : (s * t).apply (a * b) = s.apply a * t.apply b := by
  cases s <;> cases t
  · exact (neg_mul_neg a b).symm
  · exact (neg_mul a b).symm
  · exact (mul_neg a b).symm
  · rfl

lemma roundsTo_mul (hu : Regular u) (hv : Regular v) :
    RoundsTo (exact u * exact v) (UnpackedFloat.mul binary32 u v) := by
  cases u with
  | notANumber | infinity s => cases hu
  | zero s =>
    rw [exact_zero, zero_mul]
    cases v with
    | notANumber | infinity s => cases hv
    | zero t | finite t m e hm => exact roundsTo_zero _
  | finite s m e hm =>
    cases v with
    | notANumber | infinity s => cases hv
    | zero t =>
      rw [exact_zero, mul_zero]
      exact roundsTo_zero _
    | finite t m' e' hm' =>
      have hr := roundsTo_roundWithAccuracy (s * t) (Nat.mul_pos hm hm') (Canonical.le_targetExponent_mul hu hv hm hm')
      have hx : exact (.finite s m e hm) * exact (.finite t m' e' hm') = (s * t).apply (m * m' : ℕ) * 2 ^ (e + e') := by
        rw [exact_finite, exact_finite, zpow_add₀ two_ne_zero, Nat.cast_mul, apply_mul]
        push_cast
        ring
      rw [hx]
      exact hr

lemma exact_neg (s : Sign) (hm : 0 < m) : exact (.finite (-s) m e hm) = -exact (.finite s m e hm) := by
  have hs : (-s).apply m = -s.apply m := by
    cases s
    · exact (neg_neg (m : ℤ)).symm
    · rfl
  rw [exact_finite, exact_finite, hs, Int.cast_neg, neg_mul]

lemma exact_eq_shift (s : Sign) (hm : 0 < m) (h : t ≤ e) :
    exact (.finite s m e hm) = s.apply (m <<< (e - t).toNat : ℕ) * 2 ^ t := by
  obtain ⟨n, rfl⟩ := Int.le.dest h
  have hn : (t + n - t).toNat = n := by omega
  rw [exact_finite, hn, Nat.shiftLeft_eq, zpow_add₀ two_ne_zero, zpow_natCast]
  cases s <;> simp only [Sign.apply] <;> push_cast <;> ring

lemma roundsTo_sub (hu : Regular u) (hv : Regular v) :
    RoundsTo (exact u - exact v) (UnpackedFloat.sub binary32 u v) := by
  cases u with
  | notANumber | infinity s => cases hu
  | zero s =>
    cases v with
    | notANumber | infinity s => cases hv
    | zero t =>
      rw [exact_zero, exact_zero, sub_zero, UnpackedFloat.sub]
      split <;> exact roundsTo_zero _
    | finite t m e hm =>
      rw [exact_zero, zero_sub, ← exact_neg]
      exact roundsTo_self hv
  | finite s m e hm =>
    cases v with
    | notANumber | infinity s => cases hv
    | zero t =>
      rw [exact_zero, sub_zero]
      exact roundsTo_self hu
    | finite t m' e' hm' =>
      rw [exact_eq_shift s hm (min_le_left e e'), exact_eq_shift t hm' (min_le_right e e'), ← sub_mul, ← Int.cast_sub]
      exact roundsTo_normalize _ _ _

lemma roundsTo_add (hu : Regular u) (hv : Regular v) :
    RoundsTo (exact u + exact v) (UnpackedFloat.add binary32 u v) := by
  cases u with
  | notANumber | infinity s => cases hu
  | zero s =>
    cases v with
    | notANumber | infinity s => cases hv
    | zero t =>
      rw [exact_zero, exact_zero, add_zero, UnpackedFloat.add]
      split <;> exact roundsTo_zero _
    | finite t m e hm =>
      rw [exact_zero, zero_add]
      exact roundsTo_self hv
  | finite s m e hm =>
    cases v with
    | notANumber | infinity s => cases hv
    | zero t =>
      rw [exact_zero, add_zero]
      exact roundsTo_self hu
    | finite t m' e' hm' =>
      rw [exact_eq_shift s hm (min_le_left e e'), exact_eq_shift t hm' (min_le_right e e'), ← add_mul, ← Int.cast_add]
      exact roundsTo_normalize _ _ _

end Woodland.Single
