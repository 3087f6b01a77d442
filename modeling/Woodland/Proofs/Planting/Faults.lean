import Mathlib.Tactic
import Woodland.Proofs.Planting.Progress
import Woodland.Proofs.Planting.ValidSettings
import Woodland.Proofs.Random.Width

/-!
When planting comes to a fault. Extents are finite on every plot that a ground gives, yet the square over a finite
extent can be too wide for draws: above `Single.widest` the first candidate already faults.
-/

namespace Woodland

namespace Draw

lemma isOk_closed_opposite {x : Float32} (hf : x.isFinite = true) (hp : 0 < x) :
    (closed (-x) x).isOk = true ↔ x ≤ Single.widest := by
  rw [← Single.isFinite_scale_iff hf hp]
  obtain ⟨m, e, hm, h⟩ := Single.exists_of_pos hf hp
  simp only [closed, Single.neg_le_self h, true_and]
  split_ifs with hs
  · simp [hs, Except.isOk, Except.toBool]
  · simp [hs, Except.isOk, Except.toBool]

end Draw

namespace Plot

lemma isFinite_ofGround (half margin separation : Float32) :
    (ofGround half margin separation).halfExtent.isFinite = true := by
  have hz : (0 : Float32).isFinite = true := by rfl
  change (if (half - margin).isFinite = true then Scalar.atLeast 0 (half - margin) else 0).isFinite = true
  unfold Scalar.atLeast
  split_ifs <;> assumption

lemma isOk_axis_iff {p : Plot} (hf : p.halfExtent.isFinite = true) :
    p.axis.isOk = true ↔ p.halfExtent ≤ Single.widest := by
  unfold axis
  by_cases hp : 0 < p.halfExtent
  · rw [if_pos ⟨hf, hp⟩]
    exact Draw.isOk_closed_opposite hf hp
  · rw [if_neg fun h => hp h.2]
    exact iff_of_true rfl (Single.le_widest_of_not_pos hf hp)

lemma exists_place_iff (p : Plot) (target : ℕ) (g : Generator) :
    (∃ r, (p.place target g).value = .ok r) ↔ target = 0 ∨ p.axis.isOk = true := by
  constructor
  · rintro ⟨r, hr⟩
    rw [value_place] at hr
    obtain ⟨d, hd, -⟩ := map_ok_iff.mp hr
    unfold sites at hd
    by_cases ht : min target maxTargetCount = 0
    · left
      simpa [maxTargetCount] using ht
    · right
      rw [if_neg ht] at hd
      obtain ⟨axis, ha, -⟩ := map_ok_iff.mp hd
      rw [ha]
      rfl
  · rintro (rfl | ha)
    · rw [value_place]
      exact ⟨_, rfl⟩
    · exact exists_place ha target g

end Plot

namespace Forest

lemma exists_planted_iff (s : Settings) (g : Generator) :
    (∃ f, planted s g = .ok f) ↔ s.targetCount = 0 ∨ (Plot.ofSettings s).halfExtent ≤ Single.widest := by
  have ha : (Plot.ofSettings s).axis.isOk = true ↔ _ := Plot.isOk_axis_iff (Plot.isFinite_ofGround _ _ _)
  rw [← ha, ← Plot.exists_place_iff (g := g)]
  unfold planted
  cases ((Plot.ofSettings s).place s.targetCount g).value with
  | error fault => simp [Except.map]
  | ok r => simp [Except.map]

lemma exists_generate_iff {s : Settings} (hv : s.validate = .ok ()) :
    (∃ f, (generate s).run.value = .ok f) ↔ s.targetCount = 0 ∨ (Plot.ofSettings s).halfExtent ≤ Single.widest := by
  rw [← exists_planted_iff s (.ofSeed s.seed)]
  exact exists_congr fun f => generate_ok_iff.trans (and_iff_right hv)

lemma settings_generate {s : Settings} {f : Forest} (h : (generate s).run.value = .ok f) : f.settings = s :=
  settings_planted (generate_ok_iff.mp h).2

lemma halfExtent_le_of_performAll {s : Settings} (hv : s.validate = .ok ()) {f : Forest} (hs : f.settings = s)
    {r : List (Except Error Unit) × Forest} (hr : (f.performAll [.retarget 1]).value = .ok r) :
    (Plot.ofSettings s).halfExtent ≤ Single.widest := by
  -- accepted settings may ask for no tree at all, but one tree is then accepted too
  obtain ⟨-, hv'⟩ := s.validate_eq_ok_iff.mp hv
  have hn : 1 ≤ maxTargetCount := by decide
  have h₁ : (s.withTargetCount 1).validate = .ok () := (Settings.validate_eq_ok_iff _).mpr ⟨hn, hv'⟩
  obtain ⟨_, f₁, -, hp, -⟩ := performAll_cons.mp hr
  rw [value_perform, plan, planRetarget, hs, h₁] at hp
  obtain ⟨f', hf', -⟩ := map_ok_iff.mp hp
  exact ((exists_planted_iff _ _).mp ⟨f', hf'⟩).resolve_left one_ne_zero

theorem planting_succeeds_iff (half margin separation : Float32) (target : ℕ) (g : Generator) (s : Settings)
    (hv : s.validate = .ok ()) :
    ((∃ r, ((Plot.ofGround half margin separation).place target g).value = .ok r) ↔
      target = 0 ∨ (Plot.ofGround half margin separation).halfExtent ≤ Single.widest) ∧
    ((∃ f, (generate s).run.value = .ok f ∧ ∀ us, ∃ r, (f.performAll us).value = .ok r) ↔
      (Plot.ofSettings s).halfExtent ≤ Single.widest) := by
  constructor
  · rw [Plot.exists_place_iff, Plot.isOk_axis_iff (Plot.isFinite_ofGround half margin separation)]
  · constructor
    · rintro ⟨f, hf, hall⟩
      obtain ⟨r, hr⟩ := hall [.retarget 1]
      exact halfExtent_le_of_performAll hv (settings_generate hf) hr
    · intro hle
      have ha : (Plot.ofSettings s).axis.isOk = true := (Plot.isOk_axis_iff (Plot.isFinite_ofGround _ _ _)).mpr hle
      obtain ⟨f, hf, hs⟩ := exists_generate hv ha
      refine ⟨f, hf, fun us => ?_⟩
      obtain ⟨rs, f', hr⟩ := exists_performAll (hs.symm ▸ ha) us
      exact ⟨(rs, f'), hr⟩

theorem planting_succeeds_default :
    (∃ r, ((Plot.ofGround 80 5 10).place 301 (.ofSeed 7)).value = .ok r) ∧
    (default : Settings).validate = .ok () ∧
    ∃ f, (generate default).run.value = .ok f ∧ ∀ us, ∃ r, (f.performAll us).value = .ok r := by
  have hv : (default : Settings).validate = .ok () := rfl
  obtain ⟨hp, hs⟩ := planting_succeeds_iff 80 5 10 301 (.ofSeed 7) default hv
  exact ⟨hp.mpr (.inr (by decide +kernel)), hv, hs.mpr (by decide +kernel)⟩

theorem planting_faults_wide :
    (∀ r, ((Plot.ofGround 3e38 0 0).place 1 (.ofSeed 1)).value ≠ .ok r) ∧
    { (default : Settings) with groundHalfSize := 3e38, edgeMargin := 0 }.validate = .ok () ∧
    ∀ f, (generate { (default : Settings) with groundHalfSize := 3e38, edgeMargin := 0 }).run.value ≠ .ok f := by
  have hw : ¬(Plot.ofGround 3e38 0 0).halfExtent ≤ Single.widest := by decide +kernel
  have hv : { (default : Settings) with groundHalfSize := 3e38, edgeMargin := 0 }.validate = .ok () :=
    (Settings.validate_eq_ok_iff _).mpr ⟨by decide, by decide +kernel, by decide +kernel, by decide +kernel,
      by decide +kernel, rfl⟩
  refine ⟨fun r hr => ?_, hv, fun f hf => ?_⟩
  · have h := (Plot.exists_place_iff _ _ _).mp ⟨r, hr⟩
    rw [Plot.isOk_axis_iff (Plot.isFinite_ofGround _ _ _)] at h
    exact h.elim (by decide) hw
  · exact ((exists_generate_iff hv).mp ⟨f, hf⟩).elim (by decide) hw

end Forest

end Woodland
