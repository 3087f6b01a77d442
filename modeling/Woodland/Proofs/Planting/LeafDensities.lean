import Mathlib
import Woodland.Proofs.Numbers.SingleLaws
import Woodland.Proofs.Planting.NamedValues

/-!
Every density that a valid shape can have is multiplied by eight without loss, so that the number of leaves of a
cluster is the exact product, rounded to the nearest whole number.
-/

namespace Woodland

open Binary (ofSingle scaleSingle)
open Float.Model (UnpackedFloat)
open Float.Model.UnpackedFloat

namespace Single

variable {x y : Float32} {m : ℕ} {e : ℤ} {hm : 0 < m}

lemma zero_or_positive (h : 0 ≤ x) (hx : x.isFinite = true) :
    (∃ s, unpacked x = .zero s) ∨ ∃ m e hm, unpacked x = .finite .positive m e hm := by
  rw [zero_le_iff_exact hx] at h
  obtain hz | ⟨s, m, e, hm, hu⟩ := (regular_unpacked hx).cases
  · exact .inl hz
  · cases s with
    | positive => exact .inr ⟨m, e, hm, hu⟩
    | negative =>
      rw [hu] at h
      exact absurd h (exact_negative_lt hm).not_ge

lemma toRat?_ofSingle (h : 0 ≤ x) (hx : x.isFinite = true) : (ofSingle x).toRat? = some (exact (unpacked x)) := by
  obtain ⟨s, hu⟩ | ⟨m, e, hm, hu⟩ := zero_or_positive h hx
  · obtain ⟨negative, hz⟩ := Binary.ofSingle_zero hu
    rw [hz, hu, Binary.Value.toRat?_finite]
    simp
  · rw [Binary.ofSingle_finite hu, hu, Binary.Value.toRat?_finite, exact_finite]
    simp [Sign.apply]

lemma eq_zero_of_unpacked {s : Sign} (h : unpacked x = .zero s) : x = 0 ∨ x = -0.0 := by
  cases s with
  | positive => exact .inl (eq_of_unpacked h)
  | negative => exact .inr (eq_of_unpacked (h.trans (by rfl)))

lemma unpacked_eight : unpacked 8 = .finite .positive (2 ^ 23) (-20) (by decide) := by rfl

lemma unpacked_mul_eight (h : unpacked x = .finite .positive m e hm) {m' : ℕ} {e' : ℤ} (hc : Canonical m' e')
    (he : e' ≤ 104) (hv : (m' * 2 ^ e' : ℚ) = 8 * (m * 2 ^ e)) :
    ∃ hm', unpacked (x * 8) = .finite .positive m' e' hm' := by
  have hm' : 0 < m' := by
    have hpos : (0 : ℚ) < m' * 2 ^ e' := by
      rw [hv]
      positivity
    exact_mod_cast pos_of_mul_pos_left hpos (by positivity)
  refine ⟨hm', ?_⟩
  have hx : Regular (unpacked x) := by
    rw [h]
    exact (canonical_unpack h).1
  have height : Regular (unpacked 8) := by
    rw [unpacked_eight]
    exact ⟨by decide, by decide, .inl le_rfl⟩
  have hv' : exact (unpacked x) * exact (unpacked 8) = exact (.finite .positive m' e' hm') := by
    rw [h, unpacked_eight, exact_finite, exact_finite, exact_finite]
    simp only [Sign.apply, Int.cast_natCast]
    rw [hv]
    norm_num
    ring
  have hmul := roundsTo_mul hx height
  rw [hv'] at hmul
  have hr : Regular (.finite .positive m' e' hm') := hc
  have heq := hmul.rounds.unique (roundsTo_self hr).rounds
  rw [unpacked_mul, eq_of_exact hmul.regular hr heq (heq ▸ exact_ne_zero .positive hm'), written_finite hc he]

end Single

namespace Shape

open Single (exact unpacked)

variable {s t : Shape Float32} {x : Float32}

def ValidDensity (x : Float32) : Prop := ∃ s : Shape Float32, s.validate = .ok () ∧ s.leafDensity = x

lemma validDensity_iff : ValidDensity x ↔ 0 ≤ x ∧ x ≤ 1 := by
  constructor
  · rintro ⟨s, hs, rfl⟩
    have hd := judge_of_valid hs .leafDensity
    rw [judge] at hd
    split_ifs at hd with hr
    exact hr
  · intro hx
    have hdefault : ∀ p, (default : Shape Float32).judge p = .ok () := judge_of_valid rfl
    refine ⟨{ (default : Shape Float32) with leafDensity := x }, mapError_ok_iff.mpr ?_, rfl⟩
    rw [check_eq_ok_iff]
    intro p
    cases p with
    | leafDensity => exact if_neg (not_not.mpr hx)
    | iterations => exact hdefault .iterations
    | angle => exact hdefault .angle
    | length => exact hdefault .length
    | trunkScale => exact hdefault .trunkScale
    | taper => exact hdefault .taper
    | branchScale => exact hdefault .branchScale

lemma exact_le_one (h₀ : 0 ≤ x) (h₁ : x ≤ 1) : 0 ≤ exact (unpacked x) ∧ exact (unpacked x) ≤ 1 := by
  have hx := Single.isFinite_of_between h₀ h₁
  rw [Single.zero_le_iff_exact hx] at h₀
  rw [Single.le_iff_exact hx (by rfl), Single.exact_unpacked_one] at h₁
  exact ⟨h₀, h₁⟩

lemma product_eq (h₀ : 0 ≤ x) (h₁ : x ≤ 1) :
    scaleSingle x leavesAtFullDensity = ofSingle (x * 8) ∧
      (ofSingle (x * 8)).toRat? = some (8 * exact (unpacked x)) := by
  obtain ⟨s, hu⟩ | ⟨m, e, hm, hu⟩ := Single.zero_or_positive h₀ (Single.isFinite_of_between h₀ h₁)
  · rw [hu, Single.exact_zero, mul_zero]
    obtain rfl | rfl := Single.eq_zero_of_unpacked hu
    · decide +kernel
    · decide +kernel
  · obtain ⟨hc, -⟩ := Single.canonical_unpack hu
    rw [Single.le_iff, hu, Single.unpacked_one, Single.le_finite_iff] at h₁
    obtain ⟨k, rfl⟩ : ∃ k : ℕ, e = -k := ⟨(-e).toNat, by omega⟩
    obtain ⟨m', j, hj, hm', hc', hs⟩ := Binary.scaleSingle_eight (Binary.ofSingle_finite hu) hc (by omega)
    have hv : (m' * 2 ^ (-(k - j : ℕ) : ℤ) : ℚ) = 8 * (m * 2 ^ (-k : ℤ)) := by
      have hcast : (m' * 2 ^ j : ℚ) = m * 8 := by exact_mod_cast hm'
      have he : (-(k - j : ℕ) : ℤ) = j + -k := by omega
      rw [he, zpow_add₀ two_ne_zero, zpow_natCast, ← mul_assoc, hcast]
      ring
    obtain ⟨hpos, hu'⟩ := Single.unpacked_mul_eight hu hc' (by omega) hv
    have hx := Binary.ofSingle_finite hu'
    refine ⟨hs.trans hx.symm, ?_⟩
    rw [hx, hu, Binary.Value.toRat?_finite, Single.exact_finite]
    simpa [Sign.apply] using hv

lemma leavesPerCluster_eq_floor_exact (h₀ : 0 ≤ s.leafDensity) (h₁ : s.leafDensity ≤ 1) :
    s.leavesPerCluster = ⌊8 * exact (unpacked s.leafDensity) + 1 / 2⌋₊ := by
  obtain ⟨sign, hu⟩ | ⟨m, e, hm, hu⟩ := Single.zero_or_positive h₀ (Single.isFinite_of_between h₀ h₁)
  · obtain ⟨negative, hz⟩ := Binary.ofSingle_zero hu
    rw [leavesPerCluster_of_zero hz, hu, Single.exact_zero]
    norm_num
  · obtain ⟨hc, -⟩ := Single.canonical_unpack hu
    obtain ⟨-, hle⟩ := exact_le_one h₀ h₁
    rw [Single.le_iff, hu, Single.unpacked_one, Single.le_finite_iff] at h₁
    obtain ⟨k, rfl⟩ : ∃ k : ℕ, e = -k := ⟨(-e).toNat, by omega⟩
    have hexact : exact (unpacked s.leafDensity) = m / 2 ^ k := by
      rw [hu, Single.exact_finite, zpow_neg, zpow_natCast]
      exact div_eq_mul_inv _ _ |>.symm
    have hmk : m ≤ 2 ^ k := by
      rw [hexact, div_le_one (by positivity)] at hle
      exact_mod_cast hle
    have hquotient : 8 * exact (unpacked s.leafDensity) + 1 / 2 =
        ((2 * (8 * m) + 2 ^ k : ℕ) : ℚ) / (2 * 2 ^ k : ℕ) := by
      rw [hexact]
      push_cast
      field_simp
    rw [leavesPerCluster_eq (Binary.ofSingle_finite hu) hc (by omega) hmk, hquotient, Nat.floor_div_eq_div]

theorem leavesPerCluster_eq_floor :
    (∀ x : Float32, ValidDensity x ↔ 0 ≤ x ∧ x ≤ 1) ∧
      ∀ s : Shape Float32, ValidDensity s.leafDensity →
        (∃ d : ℚ, (ofSingle s.leafDensity).toRat? = some d ∧ s.leavesPerCluster = ⌊8 * d + 1 / 2⌋₊ ∧
          scaleSingle s.leafDensity leavesAtFullDensity = ofSingle (s.leafDensity * 8) ∧
          (ofSingle (s.leafDensity * 8)).toRat? = some (8 * d)) ∧
        s.leavesPerCluster ≤ 8 ∧
        ∀ t : Shape Float32, ValidDensity t.leafDensity → s.leafDensity ≤ t.leafDensity →
          s.leavesPerCluster ≤ t.leavesPerCluster := by
  refine ⟨fun x => validDensity_iff, fun s hs => ?_⟩
  obtain ⟨h₀, h₁⟩ := validDensity_iff.mp hs
  have hs := Single.isFinite_of_between h₀ h₁
  obtain ⟨hscale, hproduct⟩ := product_eq h₀ h₁
  refine ⟨⟨_, Single.toRat?_ofSingle h₀ hs, leavesPerCluster_eq_floor_exact h₀ h₁, hscale, hproduct⟩,
    leavesPerCluster_le h₀ h₁, fun t ht hst => ?_⟩
  obtain ⟨h₀', h₁'⟩ := validDensity_iff.mp ht
  rw [Single.le_iff_exact hs (Single.isFinite_of_between h₀' h₁')] at hst
  rw [leavesPerCluster_eq_floor_exact h₀ h₁, leavesPerCluster_eq_floor_exact h₀' h₁']
  exact Nat.floor_le_floor (by linarith)

theorem leavesPerCluster_eq_floor_half :
    let s : Shape Float32 := { (default : Shape Float32) with leafDensity := 0.5625 }
    ValidDensity s.leafDensity ∧ (ofSingle s.leafDensity).toRat? = some (9 / 16) ∧
      s.leavesPerCluster = ⌊8 * (9 / 16 : ℚ) + 1 / 2⌋₊ ∧ (ofSingle (s.leafDensity * 8)).toRat? = some (9 / 2) ∧
      ValidDensity (default : Shape Float32).leafDensity ∧
      s.leavesPerCluster ≤ (default : Shape Float32).leavesPerCluster := by
  intro s
  have hs : ValidDensity s.leafDensity := validDensity_iff.mpr (by decide +kernel)
  have ht : ValidDensity (default : Shape Float32).leafDensity := ⟨default, rfl, rfl⟩
  obtain ⟨⟨d, hd, hfloor, -, hproduct⟩, -, hmono⟩ := leavesPerCluster_eq_floor.2 s hs
  have hvalue : ofSingle s.leafDensity = .finite false 9437184 (-24) := by decide +kernel
  have hnine : (ofSingle s.leafDensity).toRat? = some (9 / 16) := by
    rw [hvalue, Binary.Value.toRat?_finite]
    norm_num
  obtain rfl : d = 9 / 16 := Option.some.inj (hd.symm.trans hnine)
  refine ⟨hs, hnine, hfloor, ?_, ht, hmono default ht (by decide +kernel)⟩
  rw [hproduct]
  norm_num

end Shape

end Woodland
