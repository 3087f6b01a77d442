import Mathlib.Tactic
import Woodland.Binary.Conversion
import Woodland.Proofs.Numbers.Nearest
import Woodland.Proofs.Numbers.SinglePattern

/-! Machine floats and their bits: a float is made again from its bits, and bits other than those of no number stay. -/

namespace Woodland.Binary

open Float.Model (UnpackedFloat)
open Float.Model.UnpackedFloat

section Packing

variable {spec : Float.Model.Format} {b : BitVec spec.numBits}

lemma toBitVec_ofBitVec (s : BitVec 1) : (Sign.ofBitVec s).toBitVec = s := by
  obtain rfl | rfl := BitVec.eq_zero_or_eq_one s <;> rfl

lemma packComponents_unpack (b : BitVec spec.numBits) :
    packComponents spec (Sign.ofBitVec (unpackSign b)) (unpackExponent b) (unpackMantissa b) = b := by
  have hm := spec.hm
  have he := spec.he
  simp only [packComponents, toBitVec_ofBitVec, unpackSign, unpackExponent, unpackMantissa, BitVec.extractLsb]
  ext i hi
  grind

lemma exponent_ne_neg_one {x : BitVec spec.exponentBits} (h : x ≠ -1#_) : x.toNat + 1 < 2 ^ spec.exponentBits := by
  have hx := x.isLt
  have hne : x.toNat ≠ 2 ^ spec.exponentBits - 1 := fun hc => h <| BitVec.eq_of_toNat_eq <| by
    rw [hc, BitVec.neg_one_eq_allOnes, BitVec.toNat_allOnes]
  omega

/-- Packing gives back what was unpacked, unless that was no number and not the one such pattern in use. -/
lemma pack_unpack (he : 1 < spec.exponentBits) (h : spec.Valid b) : pack spec (unpack spec b) = b := by
  have hb := packComponents_unpack b
  have hm := spec.hm
  simp only [unpack]
  split_ifs with h₁ h₂ h₃ h₄
  · rw [pack, packedInfinity, ← h₁]
    exact (congrArg _ h₂.symm).trans hb
  · exact (h.eq_packedNaN h₁ h₂).symm
  · rw [pack, packedZero]
    exact (congrArg₂ _ h₃.symm h₄.symm).trans hb
  · rw [h₃] at hb
    have hf := (unpackMantissa b).isLt
    have hpos : (unpackMantissa b).toNat ≠ 0 := fun hc => h₄ (BitVec.eq_of_toNat_eq hc)
    have hl : (unpackMantissa b).toNat.log2 < spec.mantissaBitsWithoutImplicit := (Nat.log2_lt hpos).mpr hf
    have hx : (((unpackExponent b).toNat : ℤ) - (spec.exponentBias + spec.mantissaBitsWithoutImplicit) + 1 +
        spec.exponentBias + spec.mantissaBitsWithoutImplicit).toNat = 1 := by
      rw [h₃, BitVec.toNat_zero]
      omega
    have hbits : 2 ^ 2 ≤ 2 ^ spec.exponentBits := Nat.pow_le_pow_right two_pos he
    simp only [pack, hx]
    rw [if_neg (by omega), if_neg, BitVec.ofNat_toNat, BitVec.setWidth_eq, hb]
    rw [Float.Model.Format.mantissaBits]
    omega
  · have hlt := exponent_ne_neg_one h₁
    have hf := (unpackMantissa b).isLt
    have hl : (1#1 ++ unpackMantissa b).toNat.log2 + 1 = spec.mantissaBits := by
      rw [Single.toNat_implicit, (Nat.log2_eq_iff (by positivity)).mpr ⟨Nat.le_add_right _ _, by omega⟩]
      exact Nat.add_comm _ _
    have hx : (((unpackExponent b).toNat : ℤ) - (spec.exponentBias + spec.mantissaBitsWithoutImplicit) +
        spec.exponentBias + spec.mantissaBitsWithoutImplicit).toNat = (unpackExponent b).toNat := by omega
    have hf : BitVec.ofNat spec.mantissaBitsWithoutImplicit (1#1 ++ unpackMantissa b).toNat = unpackMantissa b := by
      apply BitVec.eq_of_toNat_eq
      rw [Single.toNat_implicit, BitVec.toNat_ofNat, Nat.add_mod_left, Nat.mod_eq_of_lt hf]
    simp only [pack, hx]
    rw [if_neg (by omega), if_pos hl, BitVec.ofNat_toNat, BitVec.setWidth_eq, hf, hb]

end Packing

lemma valid_of_exponent {spec : Float.Model.Format} {b : BitVec spec.numBits}
    (h : (unpackExponent b).toNat + 1 < 2 ^ spec.exponentBits) : spec.Valid b := by
  refine ⟨fun hx => ?_⟩
  rw [hx, BitVec.neg_one_eq_allOnes, BitVec.toNat_allOnes] at h
  omega

lemma ofBits_toBits (x : Float32) : Float32.ofBits x.toBits = x := by
  obtain ⟨bits, hv⟩ := x
  have h := pack_unpack (by decide) hv
  change Float32.ofModel ⟨UInt32.ofBitVec (pack .binary32 (unpack .binary32 bits.toBitVec)), _⟩ = _
  simp only [h]

lemma toBits_ofBits {bits : ℕ} (h : bits % double.signBit < double.infinity) (hb : bits < 2 * double.signBit) :
    (Float.ofBits bits.toUInt64).toBits.toNat = bits := by
  have hn : bits.toUInt64.toBitVec.toNat = bits := Nat.mod_eq_of_lt hb
  have hv : Float.Model.Format.binary64.Valid bits.toUInt64.toBitVec := by
    apply valid_of_exponent
    have hx : (@unpackExponent .binary64 bits.toUInt64.toBitVec).toNat = bits / 2 ^ 52 % 2 ^ 11 := by
      change (BitVec.extractLsb 62 52 bits.toUInt64.toBitVec).toNat = _
      rw [BitVec.extractLsb_toNat, Nat.shiftRight_eq_div_pow, hn]
    change bits % 2 ^ 63 < 2047 * 2 ^ 52 at h
    rw [hx]
    change _ < 2 ^ 11
    omega
  have hp := pack_unpack (by decide) hv
  change (pack .binary64 (unpack .binary64 bits.toUInt64.toBitVec)).toNat = bits
  rw [hp, hn]

variable {x : Float32} {negative : Bool} {m : ℕ} {e : ℤ}

lemma exists_ofSingle_eq (h : x.isFinite = true) : ∃ negative m e, ofSingle x = .finite negative m e := by
  have hx := Single.toNat_unpackExponent x.toBits.toBitVec
  change (unpack .binary32 x.toBits.toBitVec).isFinite = true at h
  have hne : (@unpackExponent .binary32 x.toBits.toBitVec).toNat ≠ 255 := by
    intro hc
    rw [unpack, if_pos (BitVec.eq_of_toNat_eq hc)] at h
    split_ifs at h
    · cases h
    · cases h
  rw [hx] at hne
  by_cases h₀ : x.toBits.toBitVec.toNat / 8388608 % 256 = 0
  · exact ⟨_, _, _, value_subnormal h₀⟩
  · exact ⟨_, _, _, value_normal h₀ hne⟩

lemma toBits_lt_of_positive {hm : 0 < m} (h : Single.unpacked x = .finite .positive m e hm) :
    x.toBits.toNat < single.infinity := by
  have hb : x.toBits.toNat < 2 * single.signBit := x.toBits.toNat_lt
  obtain ⟨-, hi, hx⟩ := Format.canonical_of_value (ofSingle_finite h) hb
  rw [hx]
  exact (Nat.zero_add _).trans_lt hi

lemma canonical_of_ofSingle (h : ofSingle x = .finite negative m e) :
    single.Canonical m e ∧ single.pattern m e < single.infinity ∧
      Float32.ofBits (single.signOf negative + single.pattern m e).toUInt32 = x := by
  have hb : x.toBits.toNat < 2 * single.signBit := x.toBits.toNat_lt
  obtain ⟨hc, hi, hx⟩ := Format.canonical_of_value h hb
  refine ⟨hc, hi, ?_⟩
  rw [← hx]
  exact (congrArg Float32.ofBits UInt32.ofNat_toNat).trans (ofBits_toBits x)

lemma narrow_ofBits {bits : ℕ} (h : double.value bits = .finite false m e) (hb : bits < double.infinity) :
    narrow (Float.ofBits (double.signOf negative + bits).toUInt64) = Float32.ofBits
      (single.signOf negative + single.nearest (lower m 1 (-e)).1 (lower m 1 (-e)).2).toUInt32 := by
  have hs : bits < double.signBit := hb.trans Format.infinity_lt_signBit
  obtain ⟨hc, hi, hp⟩ := Format.canonical_of_value h (by omega)
  have hbits : bits = double.pattern m e := hp.trans (Nat.zero_add _)
  have hlt : double.signOf negative + bits < 2 * double.signBit := by
    rw [Format.signOf]
    split_ifs <;> omega
  have hmod : (double.signOf negative + bits) % double.signBit < double.infinity := by
    rw [Format.pattern_mod_signBit negative hs]
    exact hb
  rw [narrow, ofDouble, toBits_ofBits hmod hlt, hbits, Format.value_pattern negative hc hi]
  rfl

end Woodland.Binary

namespace Woodland.Single

open Float.Model (UnpackedFloat)
open Float.Model.UnpackedFloat
open Float.Model.Format (binary32)

lemma unpacked_ofBits {b : UInt32} (h : (@unpackExponent binary32 b.toBitVec).toNat < 255) :
    unpacked (Float32.ofBits b) = UnpackedFloat.unpack binary32 b.toBitVec := by
  have hv : binary32.Valid b.toBitVec := Binary.valid_of_exponent (by change _ < 2 ^ 8; omega)
  exact congrArg (UnpackedFloat.unpack binary32) (Binary.pack_unpack (by decide) hv)

variable {a b : ℕ}

lemma unpacked_ofBits_of_lt (h : a < 2139095040) :
    unpacked (Float32.ofBits a.toUInt32) = .zero .positive ∧ a = 0 ∨
      ∃ m e hm, unpacked (Float32.ofBits a.toUInt32) = .finite .positive m e hm ∧
        a = (e + 149).toNat * 8388608 + m := by
  have ha : a.toUInt32.toBitVec.toNat = a := Nat.mod_eq_of_lt (by omega)
  have hu := unpack_of_lt (b := a.toUInt32.toBitVec) (by rw [ha]; exact h)
  rwa [ha, ← unpacked_ofBits (by rw [toNat_unpackExponent, ha]; omega)] at hu

lemma isFinite_ofBits (h : a < 2139095040) : (Float32.ofBits a.toUInt32).isFinite = true := by
  change (unpacked _).isFinite = true
  rcases unpacked_ofBits_of_lt h with ⟨hu, -⟩ | ⟨m, e, hm, hu, -⟩
  · rw [hu]
    rfl
  · rw [hu]
    rfl

lemma ofBits_nonneg (h : a < 2139095040) : 0 ≤ Float32.ofBits a.toUInt32 := by
  rw [le_iff, unpacked_zero]
  rcases unpacked_ofBits_of_lt h with ⟨hu, -⟩ | ⟨m, e, hm, hu, -⟩
  · rw [hu]
    rfl
  · rw [hu]
    rfl

lemma ofBits_le_ofBits (h : a ≤ b) (hb : b < 2139095040) :
    Float32.ofBits a.toUInt32 ≤ Float32.ofBits b.toUInt32 := by
  rw [le_iff]
  rcases unpacked_ofBits_of_lt (h.trans_lt hb) with ⟨hu, -⟩ | ⟨m, e, hm, hu, ha⟩
  · rcases unpacked_ofBits_of_lt hb with ⟨hv, -⟩ | ⟨m', e', hm', hv, -⟩
    · rw [hu, hv]
      rfl
    · rw [hu, hv]
      rfl
  · obtain ⟨hlt, hlow, hfull⟩ := (canonical_unpack hu).1
    rcases unpacked_ofBits_of_lt hb with ⟨-, hz⟩ | ⟨m', e', hm', hv, hb'⟩
    · omega
    · obtain ⟨hlt', hlow', hfull'⟩ := (canonical_unpack hv).1
      rw [hu, hv, le_finite_iff]
      omega

end Woodland.Single
