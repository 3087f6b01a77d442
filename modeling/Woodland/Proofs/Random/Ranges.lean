import Mathlib.Tactic
import Woodland.Forest.Plot
import Woodland.Proofs.Numbers.SingleLaws
import Woodland.Proofs.Random.Width
import Woodland.Tree.Leaf

/-!
Draws from ranges stay in them. A draw is scaled and moved, both of which keep the order of numbers when they round, so
that only the largest draw can pass an end; a scale of a closed range is made smaller until it does not, and the largest
draw from a half-open range that is drawn from falls short of its end.
-/

namespace Woodland

open Float.Model (UnpackedFloat)

namespace Draw

variable {low high s : Float32}

lemma isFinite_unitLast : unitLast.isFinite = true := by decide +kernel

lemma unitLast_bounds : 0 ≤ unitLast ∧ unitLast ≤ 1 := by decide +kernel

lemma run_unit (g : Generator) :
    unit.run g = (Float32.ofBits (((word.run g).1 >>> 9) ||| 0x3f800000) - 1.0, (word.run g).2) := rfl

lemma exists_bits (w : UInt32) : ∃ n : ℕ, (w >>> 9) ||| 0x3f800000 = n.toUInt32 ∧ 0x3f800000 ≤ n ∧ n ≤ 0x3fffffff := by
  have hw : w.toNat / 512 < 2 ^ 23 := by have := w.toNat_lt; omega
  have hs : (w >>> 9).toNat = w.toNat / 512 := by
    rw [UInt32.toNat_shiftRight, Nat.shiftRight_eq_div_pow]
    rfl
  refine ⟨0x3f800000 + w.toNat / 512, UInt32.toNat_inj.mp ?_, by omega, by omega⟩
  -- the leading bits lie above those of the word, so that both are added
  rw [UInt32.toNat_or, hs, Nat.or_comm]
  refine (Nat.two_pow_add_eq_or_of_lt hw 127).symm.trans ?_
  exact (Nat.mod_eq_of_lt (by omega)).symm

lemma unit_within (g : Generator) : 0 ≤ (unit.run g).1 ∧ (unit.run g).1 ≤ unitLast := by
  obtain ⟨n, hn, hlow, hhigh⟩ := exists_bits (word.run g).1
  have hone : (1.0 : Float32).isFinite = true := by decide
  have hfirst : Float32.ofBits (0x3f800000 : ℕ).toUInt32 = 1.0 := by decide +kernel
  have hzero : (1.0 : Float32) - 1.0 = 0 := by decide +kernel
  have hlast : unitLast = Float32.ofBits (0x3fffffff : ℕ).toUInt32 - 1.0 := rfl
  have hx : (Float32.ofBits n.toUInt32).isFinite = true := Single.isFinite_ofBits (by omega)
  rw [run_unit, hn, ← hzero, hlast]
  constructor
  · apply Single.sub_le_sub_right hone hone hx
    rw [← hfirst]
    exact Single.ofBits_le_ofBits hlow (by omega)
  · exact Single.sub_le_sub_right hone hx (by decide) (Single.ofBits_le_ofBits hhigh (by decide))

lemma isFinite_unit (g : Generator) : (unit.run g).1.isFinite = true :=
  Single.isFinite_of_bounds rfl isFinite_unitLast (unit_within g).1 (unit_within g).2

structure Fits (low high s : Float32) : Prop where
  finite : s.isFinite = true
  nonneg : 0 ≤ s
  last_le : s * unitLast + low ≤ high

lemma isFinite_mul {u : Float32} (hs : s.isFinite = true) (h : 0 ≤ s) (hu : u.isFinite = true) (h₀ : 0 ≤ u)
    (h₁ : u ≤ 1) : (s * u).isFinite = true :=
  Single.isFinite_of_bounds rfl hs (Single.mul_nonneg hs hu h h₀) (Single.mul_le_of_le_one hs hu h h₁)

lemma isFinite_mul_unitLast (hs : s.isFinite = true) (h : 0 ≤ s) : (s * unitLast).isFinite = true :=
  isFinite_mul hs h isFinite_unitLast unitLast_bounds.1 unitLast_bounds.2

lemma scaled_within (hl : low.isFinite = true) (hs : s.isFinite = true) (h : 0 ≤ s) (g : Generator) :
    low ≤ (unit.run g).1 * s + low ∧ (unit.run g).1 * s + low ≤ s * unitLast + low := by
  obtain ⟨h₀, hlast⟩ := unit_within g
  have hu := isFinite_unit g
  have hx := isFinite_mul hs h hu h₀ (Single.le_trans hlast unitLast_bounds.2)
  have hy := isFinite_mul_unitLast hs h
  rw [Single.mul_comm]
  exact ⟨Single.le_add_of_nonneg hx hl (Single.mul_nonneg hs hu h h₀),
    Single.add_le_add_right hl hx hy (Single.mul_le_mul_left hs h hu isFinite_unitLast hlast)⟩

section Fitting

variable (hl : low.isFinite = true)

include hl

lemma fits_of_nonpos (h : low ≤ high) (hs : s.isFinite = true) (h₀ : 0 ≤ s) (h₁ : s ≤ 0) : Fits low high s := by
  have hx := isFinite_mul_unitLast hs h₀
  have hn := Single.mul_nonpos hs isFinite_unitLast h₁ unitLast_bounds.1
  exact ⟨hs, h₀, Single.le_trans (Single.add_le_of_nonpos hx hl hn) h⟩

lemma fits_of_not_lt (hh : high.isNaN = false) (hs : s.isFinite = true) (h₀ : 0 ≤ s)
    (hn : ¬high < s * unitLast + low) : Fits low high s := by
  have hx := isFinite_mul_unitLast hs h₀
  have hsum : (s * unitLast + low).isNaN = false := Single.isNaN_add hx (Single.isNaN_of_isFinite hl)
  exact ⟨hs, h₀, Single.le_of_not_lt hh hsum hn⟩

lemma fits_fittingScale (h : low ≤ high) {bits : ℕ} (hb : bits < 0x7f800000) :
    Fits low high (fittingScale low high bits) := by
  induction bits with
  | zero =>
    rw [fittingScale]
    exact fits_of_nonpos hl h (by decide) (by decide) (by decide)
  | succ bits ih =>
    rw [fittingScale]
    split_ifs with hlt
    · exact ih (by omega)
    · exact fits_of_not_lt hl (Single.numbers_of_le h).2 (Single.isFinite_ofBits hb) (Single.ofBits_nonneg hb) hlt

end Fitting

lemma fittingScale_toBits (h : s * unitLast + low ≤ high) : fittingScale low high s.toBits.toNat = s := by
  have hs : Float32.ofBits s.toBits.toNat.toUInt32 = s :=
    (congrArg Float32.ofBits UInt32.ofNat_toNat).trans (Binary.ofBits_toBits s)
  cases hb : s.toBits.toNat with
  | zero =>
    rw [hb] at hs
    exact hs
  | succ bits =>
    rw [hb] at hs
    rw [fittingScale, hs]
    exact if_neg (Single.not_lt_of_le h)

lemma scale_cases {d : Float32} (h₀ : 0 ≤ d) (hs : (d / unitLast).isFinite = true) :
    (∃ t, Single.unpacked (d / unitLast) = .zero t) ∨
      ∃ m e hm, Single.unpacked (d / unitLast) = .finite .positive m e hm := by
  rw [Single.le_iff, Single.unpacked_zero] at h₀
  obtain ⟨t, hd⟩ | ⟨t, m, e, hm, hd⟩ := (Single.regular_unpacked (Single.isFinite_of_scale hs)).cases
  · left
    change ∃ _, Single.written (UnpackedFloat.div .binary32 (Single.unpacked d) (Single.unpacked unitLast)) = _
    rw [hd, Single.unpacked_unitLast]
    exact ⟨_, Single.written_zero _⟩
  · right
    cases t with
    | negative =>
      rw [hd] at h₀
      cases h₀
    | positive =>
      obtain ⟨r, e', hr, hw, hc, -⟩ := Single.unpacked_scale hd
      change (Single.unpacked (d / unitLast)).isFinite = true at hs
      rw [hw, Single.isFinite_written_iff] at hs
      exact ⟨r, e', hr, hw.trans (Single.written_finite hc hs)⟩

lemma fits_of_scale (h : low ≤ high) (hs : ((high - low) / unitLast).isFinite = true) :
    low.isFinite = true ∧ Fits low high (fittingScale low high ((high - low) / unitLast).toBits.toNat) := by
  obtain ⟨hh, hl⟩ := Single.isFinite_of_sub (Single.isFinite_of_scale hs)
  refine ⟨hl, ?_⟩
  obtain ⟨t, hz⟩ | ⟨m, e, hm, hu⟩ := scale_cases (Single.sub_nonneg hh hl h) hs
  · -- the zero may have a sign, and its pattern is then above those of all finite scales
    have hfit : Fits low high ((high - low) / unitLast) := by
      apply fits_of_nonpos hl h hs
      · rw [Single.le_iff, hz]
        rfl
      · rw [Single.le_iff, hz]
        rfl
    rwa [fittingScale_toBits hfit.last_le]
  · exact fits_fittingScale hl h (Binary.toBits_lt_of_positive hu)

lemma closed_within {d : Draw Float32} (h : closed low high = .ok d) (g : Generator) :
    low ≤ (d.run g).1 ∧ (d.run g).1 ≤ high := by
  simp only [closed] at h
  split at h
  case isTrue hr =>
    obtain rfl := Except.ok.inj h
    obtain ⟨hl, hf⟩ := fits_of_scale hr.1 hr.2
    obtain ⟨hlow, hlast⟩ := scaled_within hl hf.finite hf.nonneg g
    exact ⟨hlow, Single.le_trans hlast hf.last_le⟩
  case isFalse => cases h

section HalfOpen

variable (h : low ≤ high) (hs : (high - low).isFinite = true) (hlast : (high - low) * unitLast + low < high)

include h hs hlast

lemma halfOpen_first_within (g : Generator) :
    low ≤ (unit.run g).1 * (high - low) + low ∧ (unit.run g).1 * (high - low) + low < high := by
  obtain ⟨hh, hl⟩ := Single.isFinite_of_sub hs
  obtain ⟨hlow, hle⟩ := scaled_within hl hs (Single.sub_nonneg hh hl h) g
  exact ⟨hlow, Single.lt_of_le_of_lt hle hlast⟩

lemma halfOpen_eq : halfOpen low high = (fun u => u * (high - low) + low) <$> unit := by
  funext g
  obtain ⟨-, hlt⟩ := halfOpen_first_within h hs hlast g
  rw [halfOpen, retries, halfOpenWithin]
  change (if (unit.run g).1 * (high - low) + low < high then pure ((unit.run g).1 * (high - low) + low)
    else halfOpenWithin low high 999 : Draw Float32) (unit.run g).2 = _
  rw [if_pos hlt]
  rfl

lemma halfOpen_within (g : Generator) :
    low ≤ ((halfOpen low high).run g).1 ∧ ((halfOpen low high).run g).1 < high := by
  rw [halfOpen_eq h hs hlast]
  exact halfOpen_first_within h hs hlast g

end HalfOpen

end Draw

/-- No number of a leaf is drawn twice. -/
lemma Leaf.centered_eq {e : Float32} (he : e ∈ [offsetExtent.x, offsetExtent.y, offsetExtent.z, tiltExtent]) :
    centered e = (fun u => u * (e - -e) + -e) <$> Draw.unit := by
  have hall : ∀ e ∈ [offsetExtent.x, offsetExtent.y, offsetExtent.z, tiltExtent],
      -e ≤ e ∧ (e - -e).isFinite = true ∧ (e - -e) * Draw.unitLast + -e < e := by decide +kernel
  obtain ⟨h, hs, hlast⟩ := hall e he
  exact Draw.halfOpen_eq h hs hlast

lemma Plot.halfOpen_fullTurn :
    Draw.halfOpen 0.0 fullTurn = (fun u => u * (fullTurn - 0.0) + 0.0) <$> Draw.unit :=
  Draw.halfOpen_eq (by decide +kernel) (by decide +kernel) (by decide +kernel)

end Woodland
