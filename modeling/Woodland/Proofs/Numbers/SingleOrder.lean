import Mathlib

/-! The order of single-precision numbers: what is compared is a number, and numbers are ordered linearly. -/

namespace Woodland.Single

open Float.Model (UnpackedFloat Format)
open Float.Model.UnpackedFloat

def unpacked (x : Float32) : UnpackedFloat := x.toModel.unpack

lemma lt_iff (x y : Float32) : x < y ↔ (unpacked x).lt (unpacked y) = true := by
  change (decide (x.toModel < y.toModel) = true) ↔ _
  rw [decide_eq_true_iff]
  rfl

lemma le_iff (x y : Float32) : x ≤ y ↔ (unpacked x).le (unpacked y) = true := by
  change (decide (x.toModel ≤ y.toModel) = true) ↔ _
  rw [decide_eq_true_iff]
  rfl

lemma unpacked_zero : unpacked 0 = .zero .positive := by rfl

lemma le_self_of_le {x y : Float32} (h : x ≤ y) : x ≤ x := by
  rw [le_iff] at h ⊢
  cases hx : unpacked x with
  | notANumber => simp [hx, UnpackedFloat.le, UnpackedFloat.compare] at h
  | infinity s => cases s <;> rfl
  | zero s => rfl
  | finite s m e hm => cases s <;> simp [UnpackedFloat.le, UnpackedFloat.compare]

lemma pos_of_not_le_zero {x : Float32} (h : ¬x ≤ 0) (hn : x.isNaN = false) : 0 < x := by
  rw [le_iff, unpacked_zero] at h
  rw [lt_iff, unpacked_zero]
  change (unpacked x).isNaN = false at hn
  cases hx : unpacked x with
  | notANumber => simp [hx, UnpackedFloat.isNaN] at hn
  | infinity s => cases s <;> simp_all [UnpackedFloat.le, UnpackedFloat.lt, UnpackedFloat.compare]
  | zero s => simp [hx, UnpackedFloat.le, UnpackedFloat.compare] at h
  | finite s m e hm => cases s <;> simp_all [UnpackedFloat.le, UnpackedFloat.lt, UnpackedFloat.compare]

lemma isFinite_of_between {x : Float32} (h₀ : 0 ≤ x) (h₁ : x ≤ 1) : x.isFinite = true := by
  have hone : unpacked 1 = .finite .positive 8388608 (-23) (by decide) := by rfl
  rw [le_iff, unpacked_zero] at h₀
  rw [le_iff, hone] at h₁
  change (unpacked x).isFinite = true
  cases hx : unpacked x with
  | notANumber => simp [hx, UnpackedFloat.le, UnpackedFloat.compare] at h₀
  | infinity s => cases s <;> simp_all [UnpackedFloat.le, UnpackedFloat.compare]
  | zero s => rfl
  | finite s m e hm => rfl

lemma isNaN_unpack_pack {spec : Format} {u : UnpackedFloat} (h : u.isNaN = false) :
    (UnpackedFloat.unpack spec (UnpackedFloat.pack spec u)).isNaN = false := by
  have hb : unpackExponent (UnpackedFloat.pack spec u) = -1#_ →
      unpackMantissa (UnpackedFloat.pack spec u) = 0#_ := by
    fun_cases UnpackedFloat.pack with
    | case1 => simp [UnpackedFloat.isNaN] at h
    | case2 s => simp [packedInfinity]
    | case3 s => simp [packedZero]
    | case4 s m e hm biased h₁ => simp [packedInfinity]
    | case5 s m e hm bits biased h₁ h₂ =>
      intro he
      rw [unpackExponent_packComponents, BitVec.neg_one_eq_allOnes, ← BitVec.toNat_inj, BitVec.toNat_ofNat,
        BitVec.toNat_allOnes, Nat.mod_eq_of_lt (by omega)] at he
      omega
    | case6 s m e hm bits biased h₁ h₂ =>
      intro he
      rw [unpackExponent_packComponents, BitVec.neg_one_eq_allOnes] at he
      exact absurd he.symm (by simp [Nat.pos_iff_ne_zero.mp spec.he])
  simp only [UnpackedFloat.unpack]
  split_ifs with h₁ h₂ <;> simp_all [UnpackedFloat.isNaN]

lemma isNaN_normalize (spec : Format) (m e : ℤ) (s : Sign) : (UnpackedFloat.normalize spec m e s).isNaN = false := by
  have hr : ∀ s m e, (UnpackedFloat.round spec s m e).isNaN = false := by
    intro s m e
    simp only [UnpackedFloat.round, roundWithAccuracy]
    split <;> rfl
  unfold UnpackedFloat.normalize
  split
  · exact hr _ _ _
  · rfl
  · exact hr _ _ _

lemma isNaN_sub_unpacked (spec : Format) {u v : UnpackedFloat} (hu : u.isFinite = true) (hv : v.isFinite = true) :
    (UnpackedFloat.sub spec u v).isNaN = false := by
  cases u with
  | notANumber | infinity s => cases hu
  | zero s =>
    cases v with
    | notANumber | infinity t => cases hv
    | zero t =>
      simp only [UnpackedFloat.sub]
      split <;> rfl
    | finite t m e hm => rfl
  | finite s m e hm =>
    cases v with
    | notANumber | infinity t => cases hv
    | zero t => rfl
    | finite t m' e' hm' => exact isNaN_normalize _ _ _ _

lemma isNaN_sub {x y : Float32} (hx : x.isFinite = true) (hy : y.isFinite = true) : (x - y).isNaN = false :=
  isNaN_unpack_pack (isNaN_sub_unpacked _ hx hy)

lemma zero_between_of_not_finite {x : Float32} (hp : 0 < x) (hf : x.isFinite = false) : -x ≤ 0 ∧ 0 ≤ x := by
  rw [lt_iff, unpacked_zero] at hp
  change (unpacked x).isFinite = false at hf
  have hx : unpacked x = .infinity .positive := by
    cases hu : unpacked x with
    | notANumber => simp [hu, UnpackedFloat.lt, UnpackedFloat.compare] at hp
    | infinity s => cases s <;> simp_all [UnpackedFloat.lt, UnpackedFloat.compare]
    | zero s => simp [hu, UnpackedFloat.isFinite] at hf
    | finite s m e hm => simp [hu, UnpackedFloat.isFinite] at hf
  have hneg : unpacked (-x) = .infinity .negative := by
    change UnpackedFloat.unpack _ (UnpackedFloat.pack _ (unpacked x).neg) = _
    rw [hx]
    rfl
  constructor
  · rw [le_iff, hneg, unpacked_zero]
    rfl
  · rw [le_iff, hx, unpacked_zero]
    rfl

end Woodland.Single
