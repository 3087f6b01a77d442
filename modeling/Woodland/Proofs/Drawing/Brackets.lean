import Mathlib.Tactic
import Woodland.Proofs.Drawing.Depth

/-!
The bracket counts of a drawing, read off its word: the closes that found nothing open are the largest excess of
closes over opens in a beginning of the word.
-/

namespace Woodland

variable {α : Type} [Scalar α]

namespace Turtle

variable (s : Shape α)

lemma unmatched_step_cases (t : Turtle α) (c : Char) :
    (t.step s c).unmatched = t.unmatched ∨
      (t.step s c).unmatched = t.unmatched + 1 ∧ (t.step s c).saved = [] := by
  by_cases h : [c].count ']' ≤ t.saved.length
  · exact Or.inl (unmatched_step s h)
  · have hc : c = ']' := by
      by_contra hc
      simp [hc] at h
    subst hc
    have hs : t.saved = [] := by simpa using h
    rw [step_close_nil s hs]
    exact Or.inr ⟨rfl, by rw [saved_hang, hs]⟩

lemma unmatched_le_walk (t : Turtle α) (w : Word) : t.unmatched ≤ (t.walk s w).unmatched := by
  induction w generalizing t with
  | nil => exact le_rfl
  | cons c w ih =>
    have hrest := ih (t.step s c)
    rw [walk_cons]
    rcases unmatched_step_cases s t c with h | ⟨h, -⟩ <;> omega

lemma exists_prefix_saved_eq_nil {t : Turtle α} (h : t.saved = []) (w : Word) :
    ∃ u, u <+: w ∧ (t.walk s u).saved = [] ∧ (t.walk s u).unmatched = (t.walk s w).unmatched := by
  induction w using List.reverseRecOn with
  | nil => exact ⟨[], List.prefix_rfl, h, rfl⟩
  | append_singleton w c ih =>
    have hwalk : t.walk s (w ++ [c]) = (t.walk s w).step s c := by rw [walk_append, walk_cons, walk_nil]
    rcases unmatched_step_cases s (t.walk s w) c with hc | ⟨-, hs⟩
    · obtain ⟨u, hu, hs, he⟩ := ih
      exact ⟨u, hu.trans (List.prefix_append w [c]), hs, by rw [hwalk, hc, he]⟩
    · exact ⟨w ++ [c], List.prefix_rfl, by rw [hwalk, hs], rfl⟩

end Turtle

namespace Drawing

variable (s : Shape α) (clusters : List (Cluster α)) (origin : Mat4 α) (w : Word)

lemma count_le_of_prefix {u : Word} (hu : u <+: w) :
    u.count ']' ≤ u.count '[' + (ofWord s clusters origin w).unmatchedCloses := by
  obtain ⟨v, rfl⟩ := hu
  have hd := openBranches_add_closes s clusters origin u
  have hv : (ofWord s clusters origin u).unmatchedCloses ≤ (ofWord s clusters origin (u ++ v)).unmatchedCloses := by
    change _ ≤ ((Turtle.start s clusters origin).walk s (u ++ v)).unmatched
    rw [Turtle.walk_append]
    exact Turtle.unmatched_le_walk s _ v
  omega

lemma exists_prefix_count_eq :
    ∃ u, u <+: w ∧ u.count ']' = u.count '[' + (ofWord s clusters origin w).unmatchedCloses := by
  obtain ⟨u, hu, hs, he⟩ :=
    Turtle.exists_prefix_saved_eq_nil s (t := Turtle.start s clusters origin) rfl w
  have hd := openBranches_add_closes s clusters origin u
  have ho : (ofWord s clusters origin u).openBranches = 0 := congrArg List.length hs
  have hc : (ofWord s clusters origin u).unmatchedCloses = (ofWord s clusters origin w).unmatchedCloses := he
  exact ⟨u, hu, by omega⟩

lemma brackets_eq_zero_iff :
    (ofWord s clusters origin w).unmatchedCloses = 0 ∧ (ofWord s clusters origin w).openBranches = 0 ↔
      WellNested w := by
  have hd := openBranches_add_closes s clusters origin w
  constructor
  · rintro ⟨hu, ho⟩
    refine ⟨fun u hw => ?_, by omega⟩
    have hle := count_le_of_prefix s clusters origin w hw
    omega
  · intro h
    have hu := h.rooted.unmatchedCloses s clusters origin
    have heq := h.count_eq
    exact ⟨hu, by omega⟩

theorem isGreatest_unmatchedCloses :
    IsGreatest { k : ℤ | ∃ u, u <+: w ∧ k = u.count ']' - u.count '[' }
      (ofWord s clusters origin w).unmatchedCloses ∧
    ((ofWord s clusters origin w).openBranches : ℤ) =
      w.count '[' - w.count ']' + (ofWord s clusters origin w).unmatchedCloses ∧
    ((ofWord s clusters origin w).unmatchedCloses = 0 ∧ (ofWord s clusters origin w).openBranches = 0 ↔
      WellNested w) := by
  refine ⟨⟨?_, ?_⟩, ?_, brackets_eq_zero_iff s clusters origin w⟩
  · obtain ⟨u, hu, hc⟩ := exists_prefix_count_eq s clusters origin w
    exact ⟨u, hu, by omega⟩
  · rintro k ⟨u, hu, rfl⟩
    have hle := count_le_of_prefix s clusters origin w hu
    omega
  · have hd := openBranches_add_closes s clusters origin w
    omega

end Drawing

end Woodland
