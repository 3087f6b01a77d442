import Mathlib.Data.EReal.Basic
import Mathlib.Tactic
import Woodland.Proofs.Numbers.FloatBits
import Woodland.Proofs.Numbers.SingleResults

/-!
Single-precision numbers on the extended real line. They are compared there, and a result that is too large for the
format stands at an end of it, so that every operation keeps the order that its exact results have.
-/

namespace Woodland.Single

open Binary (single)
open Float.Model (UnpackedFloat)
open Float.Model.UnpackedFloat
open Float.Model.Format (binary32)

noncomputable section

def place : UnpackedFloat → EReal
  | .infinity .positive => ⊤
  | .infinity .negative => ⊥
  | u => ((exact u : ℝ) : EReal)

def Proper : UnpackedFloat → Prop
  | .infinity _ => True
  | u => Regular u

variable {u v : UnpackedFloat} {s : Sign} {m m' : ℕ} {e e' : ℤ}

lemma Regular.proper (h : Regular u) : Proper u := by
  cases u with
  | notANumber | infinity s => cases h
  | zero s | finite s m e hm => exact h

lemma Proper.cases (h : Proper u) : (∃ s, u = .infinity s) ∨ Regular u := by
  cases u with
  | notANumber => cases h
  | infinity s => exact .inl ⟨s, rfl⟩
  | zero s | finite s m e hm => exact .inr h

lemma Regular.cases (h : Regular u) : (∃ s, u = .zero s) ∨ ∃ s m e hm, u = .finite s m e hm := by
  cases u with
  | notANumber | infinity s => cases h
  | zero s => exact .inl ⟨s, rfl⟩
  | finite s m e hm => exact .inr ⟨s, m, e, hm, rfl⟩

lemma Regular.place_eq (h : Regular u) : place u = ((exact u : ℝ) : EReal) := by
  cases u with
  | notANumber | infinity s => cases h
  | zero s | finite s m e hm => rfl

lemma Canonical.lt_of_exponent_lt (h : Canonical m e) (h' : Canonical m' e') (he : e < e') :
    (m : ℚ) * 2 ^ e < m' * 2 ^ e' := by
  have hm : (m : ℚ) < 2 ^ 24 := by exact_mod_cast h.lt
  have hm' : (2 : ℚ) ^ 23 ≤ m' := by exact_mod_cast h'.full.resolve_right (by have := h.low; omega)
  have hp : (2 : ℚ) ^ (e + 1) ≤ 2 ^ e' := zpow_le_zpow_right₀ one_le_two (by omega)
  have hu : (0 : ℚ) < 2 ^ e := by positivity
  rw [zpow_add_one₀ two_ne_zero] at hp
  nlinarith

lemma Canonical.compare_eq (h : Canonical m e) (h' : Canonical m' e') :
    (compare e e').then (compare m m') = cmp ((m : ℚ) * 2 ^ e) (m' * 2 ^ e') := by
  rcases lt_trichotomy e e' with he | rfl | he
  · rw [Int.compare_eq_lt.mpr he, cmp_eq_lt_iff _ _ |>.mpr (h.lt_of_exponent_lt h' he)]
    rfl
  · have hu : (0 : ℚ) < 2 ^ e := by positivity
    have hm : cmp (m : ℚ) m' = compare m m' := by rw [Nat.strictMono_cast.cmp_map_eq, cmp_eq_compare]
    rw [compare_eq_iff_eq.mpr rfl, cmp_mul_pos_right hu, hm]
    rfl
  · rw [Int.compare_eq_gt.mpr he, cmp_eq_gt_iff _ _ |>.mpr (h'.lt_of_exponent_lt h he)]
    rfl

lemma exact_pos (hm : 0 < m) : 0 < exact (.finite .positive m e hm) := by
  have hm' : (0 : ℚ) < m := by exact_mod_cast hm
  change (0 : ℚ) < m * 2 ^ e
  positivity

lemma exact_negative (hm : 0 < m) : exact (.finite .negative m e hm) = -exact (.finite .positive m e hm) :=
  exact_neg .positive hm

lemma exact_negative_lt (hm : 0 < m) : exact (.finite .negative m e hm) < 0 := by
  rw [exact_negative, neg_lt_zero]
  exact exact_pos hm

lemma exact_ne_zero (s : Sign) (hm : 0 < m) : exact (.finite s m e hm) ≠ 0 := by
  cases s with
  | positive => exact (exact_pos hm).ne'
  | negative => exact (exact_negative_lt hm).ne

lemma Canonical.unique (h : Canonical m e) (h' : Canonical m' e') (heq : (m : ℚ) * 2 ^ e = m' * 2 ^ e') :
    m = m' ∧ e = e' := by
  rcases lt_trichotomy e e' with he | rfl | he
  · exact absurd heq (h.lt_of_exponent_lt h' he).ne
  · have hu : (2 : ℚ) ^ e ≠ 0 := by positivity
    exact ⟨by exact_mod_cast mul_right_cancel₀ hu heq, rfl⟩
  · exact absurd heq (h'.lt_of_exponent_lt h he).ne'

lemma eq_of_exact (hu : Regular u) (hv : Regular v) (h : exact u = exact v) (h₀ : exact u ≠ 0) : u = v := by
  cases u with
  | notANumber | infinity s => cases hu
  | zero s => exact absurd rfl h₀
  | finite s m e hm =>
    cases v with
    | notANumber | infinity t => cases hv
    | zero t => exact absurd h h₀
    | finite t m' e' hm' =>
      cases s with
      | positive =>
        cases t with
        | positive =>
          obtain ⟨rfl, rfl⟩ := Canonical.unique hu hv h
          rfl
        | negative => exact absurd h ((exact_negative_lt hm').trans (exact_pos hm)).ne'
      | negative =>
        cases t with
        | positive => exact absurd h ((exact_negative_lt hm).trans (exact_pos hm')).ne
        | negative =>
          rw [exact_negative, exact_negative, neg_inj] at h
          obtain ⟨rfl, rfl⟩ := Canonical.unique hu hv h
          rfl

section Comparison

variable {β : Type} [LinearOrder β] {x y : β}

lemma some_lt_cmp (h : x < y) : some .lt = some (cmp x y) := congrArg some ((cmp_eq_lt_iff x y).mpr h).symm

lemma some_gt_cmp (h : y < x) : some .gt = some (cmp x y) := congrArg some ((cmp_eq_gt_iff x y).mpr h).symm

end Comparison

lemma compare_exact (hu : Regular u) (hv : Regular v) : UnpackedFloat.compare u v = some (cmp (exact u) (exact v)) := by
  cases u with
  | notANumber | infinity s => cases hu
  | zero s =>
    cases v with
    | notANumber | infinity t => cases hv
    | zero t => simp [UnpackedFloat.compare]
    | finite t m e hm =>
      cases t with
      | positive => exact some_lt_cmp (exact_pos hm)
      | negative => exact some_gt_cmp (exact_negative_lt hm)
  | finite s m e hm =>
    cases v with
    | notANumber | infinity t => cases hv
    | zero t =>
      cases s with
      | positive => exact some_gt_cmp (exact_pos hm)
      | negative => exact some_lt_cmp (exact_negative_lt hm)
    | finite t m' e' hm' =>
      have hc : some ((compare e e').then (compare m m')) =
          some (cmp (exact (.finite .positive m e hm)) (exact (.finite .positive m' e' hm'))) :=
        congrArg some (Canonical.compare_eq hu hv)
      cases s with
      | positive =>
        cases t with
        | positive => exact hc
        | negative => exact some_gt_cmp ((exact_negative_lt hm').trans (exact_pos hm))
      | negative =>
        cases t with
        | positive => exact some_lt_cmp ((exact_negative_lt hm).trans (exact_pos hm'))
        | negative =>
          have hanti : StrictAnti fun x : ℚ => -x := fun _ _ h => neg_lt_neg h
          rw [exact_negative, exact_negative, hanti.cmp_map_eq, ← cmp_swap]
          exact congrArg (Option.map Ordering.swap) hc

lemma compare_place (hu : Proper u) (hv : Proper v) : UnpackedFloat.compare u v = some (cmp (place u) (place v)) := by
  have hcoe : StrictMono fun x : ℚ => ((x : ℝ) : EReal) := EReal.coe_strictMono.comp Rat.cast_strictMono
  rcases hu.cases with ⟨s, rfl⟩ | hr
  · rcases hv.cases with ⟨t, rfl⟩ | hr'
    · cases s <;> cases t
      · exact congrArg some (cmp_self_eq_eq _).symm
      · exact some_lt_cmp bot_lt_top
      · exact some_gt_cmp bot_lt_top
      · exact congrArg some (cmp_self_eq_eq _).symm
    · rw [hr'.place_eq]
      cases v with
      | notANumber | infinity t => cases hr'
      | zero t | finite t m e hm =>
        cases s
        · exact some_lt_cmp (EReal.bot_lt_coe _)
        · exact some_gt_cmp (EReal.coe_lt_top _)
  · rcases hv.cases with ⟨t, rfl⟩ | hr'
    · rw [hr.place_eq]
      cases u with
      | notANumber | infinity s => cases hr
      | zero s | finite s m e hm =>
        cases t
        · exact some_gt_cmp (EReal.bot_lt_coe _)
        · exact some_lt_cmp (EReal.coe_lt_top _)
    · rw [compare_exact hr hr', hr.place_eq, hr'.place_eq, hcoe.cmp_map_eq]

lemma lt_iff_place (hu : Proper u) (hv : Proper v) : u.lt v = true ↔ place u < place v := by
  rw [UnpackedFloat.lt, compare_place hu hv, beq_iff_eq, Option.some_inj, cmp_eq_lt_iff]

lemma le_iff_place (hu : Proper u) (hv : Proper v) : u.le v = true ↔ place u ≤ place v := by
  rw [UnpackedFloat.le, compare_place hu hv, Option.any_some]
  rcases lt_trichotomy (place u) (place v) with h | h | h
  · simp [(cmp_eq_lt_iff _ _).mpr h, h.le]
  · simp [(cmp_eq_eq_iff _ _).mpr h, h.le]
  · simp [(cmp_eq_gt_iff _ _).mpr h, h.not_ge]

/-- Where a number stands that the format has to hold: what is too large is held at an end. -/
def held (x : ℚ) : EReal := if 2 ^ 128 ≤ x then ⊤ else if x ≤ -2 ^ 128 then ⊥ else ((x : ℝ) : EReal)

lemma held_mono : Monotone held := by
  intro x y h
  by_cases hy : 2 ^ 128 ≤ y
  · rw [held, held, if_pos hy]
    exact le_top
  · by_cases hx : x ≤ -2 ^ 128
    · have hx' : ¬(2 ^ 128 ≤ x) := by intro hc; linarith
      rw [held, if_neg hx', if_pos hx]
      exact bot_le
    · rw [held, held, if_neg (by intro hc; linarith), if_neg hx, if_neg hy, if_neg (by intro hc; linarith)]
      exact_mod_cast h

lemma held_of_between {x : ℚ} (hl : -2 ^ 128 < x) (hh : x < 2 ^ 128) : held x = ((x : ℝ) : EReal) := by
  rw [held, if_neg hh.not_ge, if_neg hl.not_ge]

lemma Canonical.exact_lt (h : Canonical m e) (he : e ≤ 104) (hm : 0 < m) :
    exact (.finite .positive m e hm) < 2 ^ 128 := by
  have hm' : (m : ℚ) < 2 ^ 24 := by exact_mod_cast h.lt
  have hp : (2 : ℚ) ^ e ≤ 2 ^ (104 : ℤ) := zpow_le_zpow_right₀ one_le_two he
  have hu : (0 : ℚ) < 2 ^ e := by positivity
  change (m : ℚ) * 2 ^ e < _
  norm_num at hp ⊢
  nlinarith

lemma Canonical.le_exact (h : Canonical m e) (he : 104 < e) (hm : 0 < m) :
    2 ^ 128 ≤ exact (.finite .positive m e hm) := by
  have hm' : (2 : ℚ) ^ 23 ≤ m := by exact_mod_cast h.full.resolve_right (by omega)
  have hp : (2 : ℚ) ^ (105 : ℤ) ≤ 2 ^ e := zpow_le_zpow_right₀ one_le_two (by omega)
  change _ ≤ (m : ℚ) * 2 ^ e
  norm_num at hp ⊢
  nlinarith

lemma written_zero (s : Sign) : written (.zero s) = .zero s := by cases s <;> rfl

lemma place_written (h : Regular u) : Proper (written u) ∧ place (written u) = held (exact u) := by
  cases u with
  | notANumber | infinity s => cases h
  | zero s =>
    rw [written_zero, exact_zero, held_of_between (by norm_num) (by norm_num)]
    exact ⟨trivial, rfl⟩
  | finite s m e hm =>
    have hpos := exact_pos (e := e) hm
    by_cases he : e ≤ 104
    · have hlt := Canonical.exact_lt h he hm
      rw [written_finite h he]
      refine ⟨h, ?_⟩
      cases s with
      | positive => exact (held_of_between (by linarith) hlt).symm
      | negative =>
        rw [Regular.place_eq h, held_of_between]
        · rw [exact_negative]
          linarith
        · rw [exact_negative]
          linarith
    · have hle := Canonical.le_exact h (not_le.mp he) hm
      rw [written_overflow (not_le.mp he)]
      refine ⟨trivial, ?_⟩
      cases s with
      | positive => exact (if_pos hle).symm
      | negative =>
        rw [exact_negative, held, if_neg (by linarith), if_pos (by linarith)]
        rfl

section Operations

variable {x y z : Float32} {q r : ℚ}

lemma proper_unpacked (h : x.isNaN = false) : Proper (unpacked x) := by
  change (unpacked x).isNaN = false at h
  cases hx : unpacked x with
  | notANumber => simp [hx, UnpackedFloat.isNaN] at h
  | infinity s | zero s => trivial
  | finite s m e hm => exact (canonical_unpack hx).1

lemma regular_unpacked (h : x.isFinite = true) : Regular (unpacked x) := by
  change (unpacked x).isFinite = true at h
  cases hx : unpacked x with
  | notANumber | infinity s => simp [hx, UnpackedFloat.isFinite] at h
  | zero s => trivial
  | finite s m e hm => exact (canonical_unpack hx).1

lemma isNaN_of_proper (h : Proper (unpacked x)) : x.isNaN = false := by
  change (unpacked x).isNaN = false
  cases hx : unpacked x with
  | notANumber =>
    rw [hx] at h
    cases h
  | infinity s | zero s | finite s m e hm => rfl

lemma RoundsTo.written (h : RoundsTo q u) (hx : unpacked x = written u) :
    x.isNaN = false ∧ place (unpacked x) = held (exact u) := by
  obtain ⟨hp, hplace⟩ := place_written h.regular
  rw [← hx] at hp hplace
  exact ⟨isNaN_of_proper hp, hplace⟩

lemma le_iff_of_numbers (hx : x.isNaN = false) (hy : y.isNaN = false) :
    x ≤ y ↔ place (unpacked x) ≤ place (unpacked y) :=
  (le_iff x y).trans (le_iff_place (proper_unpacked hx) (proper_unpacked hy))

lemma lt_iff_of_numbers (hx : x.isNaN = false) (hy : y.isNaN = false) :
    x < y ↔ place (unpacked x) < place (unpacked y) :=
  (lt_iff x y).trans (lt_iff_place (proper_unpacked hx) (proper_unpacked hy))

lemma RoundsTo.le (h : RoundsTo q u) (h' : RoundsTo r v) (hqr : q ≤ r) (hx : unpacked x = Single.written u)
    (hy : unpacked y = Single.written v) : x ≤ y := by
  obtain ⟨hn, hp⟩ := h.written hx
  obtain ⟨hn', hp'⟩ := h'.written hy
  rw [le_iff_of_numbers hn hn', hp, hp']
  exact held_mono (h.rounds.le h'.rounds hqr)

end Operations

end

end Woodland.Single
