import Mathlib.Tactic
import Woodland.Forest.Settings
import Woodland.Proofs.Planting.Sites
import Woodland.Proofs.Planting.ValidShapes

/-! Settings that are accepted, and what the plots that they give are like. -/

namespace Woodland

lemma Shape.iterations_le {s : Shape Float32} (h : s.validate = .ok ()) : s.iterations ≤ maxIterations := by
  have hc := mapError_ok_iff.mp h
  unfold check at hc
  rw [guard_ok_iff] at hc
  exact Nat.le_of_not_lt hc.1

namespace Settings

lemma validate_eq_ok_iff (s : Settings) :
    s.validate = .ok () ↔
      s.targetCount ≤ maxTargetCount ∧
      (s.groundHalfSize.isFinite = true ∧ ¬s.groundHalfSize ≤ 0) ∧
      (s.edgeMargin.isFinite = true ∧ ¬s.edgeMargin < 0) ∧
      ¬s.placementHalfSize ≤ 0 ∧
      (s.minSeparation.isFinite = true ∧ ¬s.minSeparation < 0) ∧
      s.shape.validate = .ok () := by
  unfold validate
  simp only [guard_ok_iff, not_or, Nat.not_lt, Bool.not_eq_true', Bool.not_eq_false]

variable {s : Settings} {e : Error}

lemma exists_refusal (h : s.validate = .error e) : ∃ r, e = .invalid r := by
  unfold validate at h
  simp only [guard_error_iff] at h
  rcases h with ⟨-, rfl⟩ | ⟨-, ⟨-, rfl⟩ | ⟨-, ⟨-, rfl⟩ | ⟨-, ⟨-, rfl⟩ | ⟨-, ⟨-, rfl⟩ | ⟨-, h⟩⟩⟩⟩⟩
  · exact ⟨_, rfl⟩
  · exact ⟨_, rfl⟩
  · exact ⟨_, rfl⟩
  · exact ⟨_, rfl⟩
  · exact ⟨_, rfl⟩
  · rw [Shape.validate] at h
    cases hc : s.shape.check with
    | ok _ => simp [hc, Except.mapError] at h
    | error v =>
      rw [hc] at h
      cases h
      exact ⟨_, rfl⟩

lemma validate_shape_of_valid (h : s.validate = .ok ()) : s.shape.validate = .ok () := by
  obtain ⟨-, -, -, -, -, hs⟩ := s.validate_eq_ok_iff.mp h
  exact hs

lemma placementHalfSize_pos (h : s.validate = .ok ()) : 0 < s.placementHalfSize := by
  obtain ⟨-, ⟨hg, -⟩, ⟨hm, -⟩, hp, -⟩ := s.validate_eq_ok_iff.mp h
  exact Single.pos_of_not_le_zero hp (Single.isNaN_sub hg hm)

lemma within_of_reaches (h : s.validate = .ok ()) {x : Float32} (hx : (Plot.ofSettings s).Reaches x) :
    -s.placementHalfSize ≤ x ∧ x ≤ s.placementHalfSize := by
  have hp := placementHalfSize_pos h
  by_cases hf : s.placementHalfSize.isFinite = true
  · have he : (Plot.ofSettings s).halfExtent = s.placementHalfSize := by
      change (if s.placementHalfSize.isFinite = true then Scalar.atLeast 0 s.placementHalfSize else 0) = _
      rw [if_pos hf]
      exact if_pos hp
    rw [Plot.Reaches, he, if_pos ⟨hf, hp⟩] at hx
    exact hx
  · have he : (Plot.ofSettings s).halfExtent = 0 := if_neg hf
    have hz : ¬((0 : Float32).isFinite = true ∧ (0 : Float32) < 0) := by decide
    rw [Plot.Reaches, he, if_neg hz] at hx
    rw [hx]
    exact Single.zero_between_of_not_finite hp (by simpa using hf)

lemma validate_withShape (h : s.validate = .ok ()) {shape : Shape Float32} (hs : shape.validate = .ok ()) :
    (s.withShape shape).validate = .ok () := by
  obtain ⟨ht, hg, hm, hp, hd, -⟩ := s.validate_eq_ok_iff.mp h
  exact (validate_eq_ok_iff _).mpr ⟨ht, hg, hm, hp, hd, hs⟩

lemma validate_withTargetCount (h : s.validate = .ok ()) (n : ℕ) :
    (s.withTargetCount n).validate =
      if maxTargetCount < n then .error (.invalid (.targetAbove n)) else .ok () := by
  by_cases hn : maxTargetCount < n
  · rw [if_pos hn, validate]
    exact if_pos hn
  · obtain ⟨-, hr⟩ := s.validate_eq_ok_iff.mp h
    rw [if_neg hn]
    exact (validate_eq_ok_iff _).mpr ⟨Nat.le_of_not_lt hn, hr⟩

lemma careful_edit (name : String) (x : Float) : (edit name x).Careful := by
  unfold edit
  split
  · exact (Edit.reads_ofExcept _).bind_careful fun n => Edit.careful_modify _
  · exact (Shape.careful_edit name x).within fun _ => rfl

lemma set_trees (s : Settings) (x : Float) : s.set treesName x = (treesOf x).map s.withTargetCount := by
  rw [set, Edit.onCopy, edit, if_pos rfl, Edit.run_bind, Edit.run_ofExcept]
  cases treesOf x <;> rfl

lemma set_proportion (s : Settings) {name : String} (hn : name ≠ treesName) (x : Float) :
    s.set name x = (s.shape.set name x).map s.withShape := by
  rw [set, Edit.onCopy, edit, if_neg hn, Edit.run_within, Shape.set, Edit.onCopy]
  rcases (Shape.edit name x).run s.shape with ⟨e | u, t⟩ <;> rfl

end Settings

end Woodland
