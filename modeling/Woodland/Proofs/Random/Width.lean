import Mathlib.Tactic
import Woodland.Proofs.Numbers.SingleFormat
import Woodland.Random.Range

/-! How wide a range around zero can be: the scale of draws over it has to be finite. -/

namespace Woodland

open Float.Model (UnpackedFloat totalExponent)
open Float.Model.UnpackedFloat
open Float.Model.Format (binary32)

namespace Single

variable {m : ℕ} {e : ℤ} {hm : 0 < m}

lemma sub_opposite (hm : 0 < m) : UnpackedFloat.sub binary32 (.finite .positive m e hm) (.finite .negative m e hm) =
    UnpackedFloat.round binary32 .positive (2 * m) e := by
  have hc : compare ((m : ℤ) - -m) 0 = .gt := Int.compare_eq_gt.mpr (by omega)
  have hn : ((m : ℤ) - -m).toNat = 2 * m := by omega
  simp only [UnpackedFloat.sub, decreaseExponent, min_self, sub_self, Int.toNat_zero, Nat.shiftLeft_zero, Sign.apply,
    UnpackedFloat.normalize, hc, hn]

lemma round_eq_of_le (s : Sign) (h : e ≤ binary32.targetExponent (totalExponent m e)) :
    UnpackedFloat.round binary32 s m e = roundWithAccuracy binary32 s m e .exact := by
  have hs : (e - binary32.targetExponent (totalExponent m e)).toNat = 0 := by omega
  simp only [UnpackedFloat.round, decreaseExponent, hs, Nat.shiftLeft_zero]
  congr 1
  exact Int.sub_zero e

lemma round_double_normal (hm : 0 < m) (h₁ : 2 ^ 23 ≤ m) (h₂ : m < 2 ^ 24) (he : -149 ≤ e) :
    UnpackedFloat.round binary32 .positive (2 * m) e = .finite .positive m (e + 1) hm := by
  have ht := targetExponent_succ (m := 2 * m) (by omega) (by omega) he
  rw [round_eq_of_le _ (by omega)]
  have hs : shiftToTargetExponent binary32 (2 * m) e .exact = (⟨m, false, false⟩, e + 1) := by
    rw [shift_one .exact ht]
    simp [ExtendedMantissa.ofMantissaAndAccuracy, ExtendedMantissa.shiftRightOne]
  exact roundWithAccuracy_eq hs h₂ hm (by omega)

lemma round_double_subnormal (hm : 0 < 2 * m) (h : m < 2 ^ 23) :
    UnpackedFloat.round binary32 .positive (2 * m) (-149) = .finite .positive (2 * m) (-149) hm := by
  have ht := targetExponent_le (m := 2 * m) (e := -149) (by omega) (by omega)
  have hge : -149 ≤ binary32.targetExponent (totalExponent (2 * m) (-149)) := le_max_right _ _
  rw [round_eq_of_le _ hge]
  exact roundWithAccuracy_eq (shift_none .exact ht) (by change 2 * m < 2 ^ 24; omega) hm le_rfl

lemma unpacked_unitLast : unpacked Draw.unitLast = .finite .positive 16777214 (-24) (by decide) := by rfl

lemma divCore_unitLast (h : Canonical m e) : divCore binary32 m e 16777214 (-24) =
    (m * 2 ^ 24 / 16777214, e, accuracyOfFraction (m * 2 ^ 24 % 16777214) 16777214) := by
  have ht : totalExponent 16777214 (-24) = 0 := by decide +kernel
  have hs : (e - -24 - e).toNat = 24 := by omega
  simp only [divCore, ht, sub_zero, h.targetExponent_eq]
  rw [min_eq_right (by omega), hs, Nat.shiftLeft_eq]

lemma div_unitLast (hm : 0 < m) (h : Canonical m e) (hu : 0 < 16777214) :
    ∃ r e' hr, UnpackedFloat.div binary32 (.finite .positive m e hm) (.finite .positive 16777214 (-24) hu) =
      .finite .positive r e' hr ∧ Canonical r e' ∧ e' = if m ≤ 16777213 then e else e + 1 := by
  change ∃ r e' hr, roundWithAccuracy binary32 .positive (divCore binary32 m e 16777214 (-24)).1
    (divCore binary32 m e 16777214 (-24)).2.1 (divCore binary32 m e 16777214 (-24)).2.2 = _ ∧ _
  rw [divCore_unitLast h]
  dsimp only
  generalize accuracyOfFraction (m * 2 ^ 24 % 16777214) 16777214 = acc
  obtain ⟨hlt, hlow, hfull⟩ := h
  -- the divisor is a little less than one, and the two largest significands grow by a bit
  split_ifs with hw
  · have hq : m ≤ m * 2 ^ 24 / 16777214 ∧ m * 2 ^ 24 / 16777214 ≤ 16777214 := by omega
    generalize m * 2 ^ 24 / 16777214 = q at hq
    have hb := roundedMantissa_bounds (.ofMantissaAndAccuracy q acc)
    rw [mantissa_of] at hb
    have hs := shift_none acc (targetExponent_le (m := q) (by omega) hlow)
    exact ⟨_, e, by omega, roundWithAccuracy_eq hs (by omega) (by omega) hlow, ⟨by omega, hlow, by omega⟩, rfl⟩
  · have hq : 2 ^ 24 ≤ m * 2 ^ 24 / 16777214 ∧ m * 2 ^ 24 / 16777214 ≤ 2 ^ 24 + 1 := by omega
    generalize m * 2 ^ 24 / 16777214 = q at hq
    have hb := roundedMantissa_bounds (ExtendedMantissa.ofMantissaAndAccuracy q acc).shiftRightOne
    rw [mantissa_shiftRightOne, mantissa_of] at hb
    have hs := shift_one acc (targetExponent_succ (m := q) hq.1 (by omega) hlow)
    exact ⟨_, e + 1, by omega, roundWithAccuracy_eq hs (by omega) (by omega) (by omega),
      ⟨by omega, by omega, by omega⟩, rfl⟩

/-- The largest end of a range around zero that is drawn from: two steps below half the largest number. -/
def widest : Float32 := Float32.ofBits 0x7efffffd

lemma unpacked_widest : unpacked widest = .finite .positive 16777213 103 (by decide) := by rfl

variable {x : Float32}

lemma exists_of_pos (hf : x.isFinite = true) (hp : 0 < x) : ∃ m e hm, unpacked x = .finite .positive m e hm := by
  change (unpacked x).isFinite = true at hf
  rw [lt_iff, unpacked_zero] at hp
  cases hu : unpacked x with
  | notANumber | infinity s => simp [hu, UnpackedFloat.isFinite] at hf
  | zero s => simp [hu, UnpackedFloat.lt, UnpackedFloat.compare] at hp
  | finite s m e hm =>
    cases s with
    | negative => simp [hu, UnpackedFloat.lt, UnpackedFloat.compare] at hp
    | positive => exact ⟨m, e, hm, rfl⟩

lemma le_widest_of_not_pos (hf : x.isFinite = true) (hp : ¬0 < x) : x ≤ widest := by
  change (unpacked x).isFinite = true at hf
  rw [lt_iff, unpacked_zero] at hp
  rw [le_iff, unpacked_widest]
  cases hu : unpacked x with
  | notANumber | infinity s => simp [hu, UnpackedFloat.isFinite] at hf
  | zero s => rfl
  | finite s m e hm =>
    cases s with
    | negative => rfl
    | positive => simp [hu, UnpackedFloat.lt, UnpackedFloat.compare] at hp

lemma unpacked_neg (h : unpacked x = .finite .positive m e hm) : unpacked (-x) = .finite .negative m e hm := by
  obtain ⟨hc, he⟩ := canonical_unpack h
  change written (unpacked x).neg = _
  rw [h]
  exact written_finite hc he

lemma neg_le_self (h : unpacked x = .finite .positive m e hm) : -x ≤ x := by
  rw [le_iff, unpacked_neg h, h]
  rfl

lemma unpacked_width (h : unpacked x = .finite .positive m e hm) :
    unpacked (x - -x) = written (UnpackedFloat.round binary32 .positive (2 * m) e) := by
  rw [← sub_opposite hm, ← h, ← unpacked_neg h]
  rfl

lemma unpacked_scale {w : Float32} (h : unpacked w = .finite .positive m e hm) :
    ∃ r e' hr, unpacked (w / Draw.unitLast) = written (.finite .positive r e' hr) ∧ Canonical r e' ∧
      e' = if m ≤ 16777213 then e else e + 1 := by
  obtain ⟨r, e', hr, hd, hc⟩ := div_unitLast hm (canonical_unpack h).1 (by decide)
  refine ⟨r, e', hr, ?_, hc⟩
  change written (UnpackedFloat.div binary32 (unpacked w) (unpacked Draw.unitLast)) = _
  rw [h, unpacked_unitLast, hd]

lemma isFinite_scale_of_width {w : Float32} (h : unpacked w = .finite .positive m e hm) :
    (w / Draw.unitLast).isFinite = true ↔ e < 104 ∨ e = 104 ∧ m ≤ 16777213 := by
  have he := (canonical_unpack h).2
  obtain ⟨r, e', hr, hd, -, rfl⟩ := unpacked_scale h
  change (unpacked (w / Draw.unitLast)).isFinite = true ↔ _
  rw [hd, isFinite_written_iff]
  split_ifs <;> omega

lemma isFinite_of_scale {w : Float32} (h : (w / Draw.unitLast).isFinite = true) : w.isFinite = true := by
  have hd : (UnpackedFloat.div binary32 (unpacked w) (unpacked Draw.unitLast)).isFinite = true := isFinite_of_written h
  rw [unpacked_unitLast] at hd
  change (unpacked w).isFinite = true
  cases hw : unpacked w with
  | notANumber | infinity s =>
    rw [hw] at hd
    cases hd
  | zero s | finite s m e hm => rfl

lemma isFinite_scale_iff (hf : x.isFinite = true) (hp : 0 < x) :
    ((x - -x) / Draw.unitLast).isFinite = true ↔ x ≤ widest := by
  obtain ⟨m, e, hm, h⟩ := exists_of_pos hf hp
  obtain ⟨hc, he⟩ := canonical_unpack h
  have hw := unpacked_width h
  rw [le_iff, h, unpacked_widest, le_finite_iff]
  by_cases hn : 2 ^ 23 ≤ m
  · rw [round_double_normal hm hn hc.lt hc.low] at hw
    by_cases ht : e = 104
    · rw [written_overflow (by omega)] at hw
      refine iff_of_false (fun hs => ?_) (by omega)
      have hf : (unpacked (x - -x)).isFinite = true := isFinite_of_scale hs
      rw [hw] at hf
      cases hf
    · have hlow : -149 ≤ e + 1 := by have hl := hc.low; omega
      rw [written_finite ⟨hc.lt, hlow, .inl hn⟩ (by omega)] at hw
      rw [isFinite_scale_of_width hw]
      omega
  · obtain rfl := hc.full.resolve_left hn
    have hlt : 2 * m < 2 ^ 24 := by omega
    rw [round_double_subnormal (by omega) (by omega), written_finite ⟨hlt, le_rfl, .inr rfl⟩ (by decide)] at hw
    rw [isFinite_scale_of_width hw]
    omega

end Single

end Woodland
