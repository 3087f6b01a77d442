import Mathlib.Tactic
import Woodland.Proofs.Numbers.SinglePattern
import Woodland.Tree.Shape

/-!
The number of leaves of a cluster. Eight times a density needs no rounding, so the count is the nearest one to the
exact product.
-/

namespace Woodland

namespace Single

lemma Canonical.exists_timesEight {m : ℕ} {e : ℤ} (h : Canonical m e) :
    ∃ m' j : ℕ, j ≤ 3 ∧ m' * 2 ^ j = m * 8 ∧ Canonical m' (e + j) := by
  obtain ⟨hlt, hlow, hfull⟩ := h
  by_cases hn : 2 ^ 23 ≤ m
  · exact ⟨m, 3, le_rfl, rfl, hlt, by omega, .inl hn⟩
  · obtain rfl := hfull.resolve_left hn
    by_cases h₂₁ : m < 2 ^ 21
    · exact ⟨m * 8, 0, by omega, by omega, by omega, by omega, .inr (by omega)⟩
    · by_cases h₂₂ : m < 2 ^ 22
      · exact ⟨m * 4, 1, by omega, by omega, by omega, by omega, .inl (by omega)⟩
      · exact ⟨m * 2, 2, by omega, by omega, by omega, by omega, .inl (by omega)⟩

end Single

namespace Binary

lemma lower_ofNat (n d k : ℕ) : lower n d k = (n, d * 2 ^ k) := rfl

variable {m k : ℕ} {x : Float32}

lemma scaleSingle_eight (h : ofSingle x = .finite false m (-k)) (hc : Single.Canonical m (-k)) (hk : 23 ≤ k) :
    ∃ m' j : ℕ, j ≤ 3 ∧ m' * 2 ^ j = m * 8 ∧ Single.Canonical m' (-(k - j : ℕ)) ∧
      scaleSingle x 8 = .finite false m' (-(k - j : ℕ)) := by
  obtain ⟨m', j, hj, hm, hc'⟩ := hc.exists_timesEight
  have he : -(k : ℤ) + j = j - k := by omega
  rw [he] at hc'
  have hkj : -((k - j : ℕ) : ℤ) = j - k := by omega
  refine ⟨m', j, hj, hm, by rwa [hkj], ?_⟩
  have hn := nearest_of_canonical hc' (by omega)
  have hv := value_pattern hc' (by omega)
  have hs : scaleSingle x 8 = single.value (0 + single.nearest (m * 8) (1 * 2 ^ k)) := by
    rw [scaleSingle, h]
    simp only [Format.ofValue, Format.round, neg_neg, lower_ofNat]
    rfl
  rw [hs, Nat.zero_add, Nat.one_mul, ← hm, hn, hv]
  congr 1
  omega

lemma count_finite (limit m k : ℕ) :
    Value.count limit (.finite false m (-k)) = min limit ((2 * m + 2 ^ k) / (2 * 2 ^ k)) := by
  simp only [Value.count, neg_neg, lower_ofNat, Nat.one_mul]

end Binary

namespace Shape

open Binary

lemma nearest_eighth_le {m d : ℕ} (hd : 0 < d) (h : m ≤ d) : (2 * (8 * m) + d) / (2 * d) ≤ leavesAtFullDensity :=
  Nat.le_of_lt_succ ((Nat.div_lt_iff_lt_mul (by omega)).mpr (by change _ < 9 * _; omega))

variable {s : Shape Float32} {m k : ℕ}

lemma leavesPerCluster_eq (h : ofSingle s.leafDensity = .finite false m (-k)) (hc : Single.Canonical m (-k))
    (hk : 23 ≤ k) (hle : m ≤ 2 ^ k) : s.leavesPerCluster = (2 * (8 * m) + 2 ^ k) / (2 * 2 ^ k) := by
  obtain ⟨m', j, hj, hm, -, hs⟩ := scaleSingle_eight h hc hk
  have hpow : 2 ^ (k - j) * 2 ^ j = 2 ^ k := by rw [← pow_add, Nat.sub_add_cancel (by omega)]
  have hd : (2 * m' + 2 ^ (k - j)) / (2 * 2 ^ (k - j)) = (2 * (8 * m) + 2 ^ k) / (2 * 2 ^ k) := by
    rw [← Nat.mul_div_mul_right _ _ (show 0 < 2 ^ j by positivity), Nat.add_mul, Nat.mul_assoc, Nat.mul_assoc, hpow, hm,
      Nat.mul_comm m 8]
  change (scaleSingle s.leafDensity 8).count (leafBound - 1) = _
  rw [hs, count_finite, hd]
  exact min_eq_right ((nearest_eighth_le (by positivity) hle).trans (by decide))

lemma leavesPerCluster_of_zero {negative : Bool} (h : ofSingle s.leafDensity = .finite negative 0 (-149)) :
    s.leavesPerCluster = 0 := by
  rw [leavesPerCluster, scaleSingle, h]
  cases negative <;> decide +kernel

lemma leavesPerCluster_le (h₀ : 0 ≤ s.leafDensity) (h₁ : s.leafDensity ≤ 1) :
    s.leavesPerCluster ≤ leavesAtFullDensity := by
  have hone : Single.unpacked 1 = .finite .positive 8388608 (-23) (by decide) := by rfl
  rw [Single.le_iff, Single.unpacked_zero] at h₀
  rw [Single.le_iff, hone] at h₁
  cases hu : Single.unpacked s.leafDensity with
  | notANumber => simp [hu, Float.Model.UnpackedFloat.le, Float.Model.UnpackedFloat.compare] at h₀
  | infinity sign => cases sign <;> simp_all [Float.Model.UnpackedFloat.le, Float.Model.UnpackedFloat.compare]
  | zero sign =>
    obtain ⟨negative, hz⟩ := ofSingle_zero hu
    rw [leavesPerCluster_of_zero hz]
    exact Nat.zero_le _
  | finite sign m e hm =>
    cases sign with
    | negative => simp [hu, Float.Model.UnpackedFloat.le, Float.Model.UnpackedFloat.compare] at h₀
    | positive =>
      obtain ⟨hc, -⟩ := Single.canonical_unpack hu
      rw [hu, Single.le_finite_iff] at h₁
      obtain ⟨k, rfl⟩ : ∃ k : ℕ, e = -k := ⟨(-e).toNat, by omega⟩
      have hle : m ≤ 2 ^ k := by
        rcases h₁ with hlt | ⟨he, hle⟩
        · exact hc.lt.le.trans (Nat.pow_le_pow_right (by decide) (by omega))
        · obtain rfl : k = 23 := by omega
          exact hle
      rw [leavesPerCluster_eq (ofSingle_finite hu) hc (by omega) hle]
      exact nearest_eighth_le (by positivity) hle

end Shape

end Woodland
