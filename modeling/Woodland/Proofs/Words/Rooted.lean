import Mathlib.Data.List.Infix
import Mathlib.Tactic
import Woodland.Proofs.Words.Nesting

/-! Words that close no bracket which they did not open, and the groups of well nested words. -/

namespace Woodland

def Rooted (w : Word) : Prop := ∀ u, u <+: w → u.count ']' ≤ u.count '['

def Word.enclosed (m : Word) : Word := '[' :: m ++ [']']

variable {u v w m m' : Word}

lemma Word.enclosed_append (m v : Word) : m.enclosed ++ v = '[' :: (m ++ ']' :: v) := by simp [enclosed]

@[simp] lemma Word.length_enclosed (m : Word) : m.enclosed.length = m.length + 2 := by simp [enclosed]

lemma prefix_append_cases (h : w <+: u ++ v) : w <+: u ∨ ∃ t, w = u ++ t ∧ t <+: v := by
  obtain ⟨r, hr⟩ := h
  rcases List.append_eq_append_iff.mp hr with ⟨a, rfl, -⟩ | ⟨a, rfl, rfl⟩
  · exact Or.inl (List.prefix_append w a)
  · exact Or.inr ⟨a, rfl, List.prefix_append a r⟩

lemma Rooted.of_prefix (h : Rooted w) (hu : u <+: w) : Rooted u := fun t ht => h t (ht.trans hu)

lemma WellNested.rooted (h : WellNested w) : Rooted w := h.count_le

lemma wellNested_iff_rooted : WellNested w ↔ Rooted w ∧ w.count '[' = w.count ']' :=
  ⟨fun h => ⟨h.rooted, h.count_eq⟩, fun h => ⟨h.1, h.2⟩⟩

lemma wellNested_nil : WellNested [] := by decide

lemma wellNested_plain (c : Plain) : WellNested [c.1] := by
  obtain ⟨c, ho, hc⟩ := c
  refine ⟨?_, by simp [ho, hc]⟩
  intro u hu
  have hle := hu.count_le ']'
  simp [hc] at hle
  omega

lemma Rooted.append (hu : WellNested u) (hv : Rooted v) : Rooted (u ++ v) := by
  intro t ht
  rcases prefix_append_cases ht with ht | ⟨r, rfl, hr⟩
  · exact hu.count_le t ht
  · have heq := hu.count_eq
    have hle := hv r hr
    simp only [List.count_append]
    omega

lemma WellNested.append (hu : WellNested u) (hv : WellNested v) : WellNested (u ++ v) := by
  refine wellNested_iff_rooted.mpr ⟨hv.rooted.append hu, ?_⟩
  rw [List.count_append, List.count_append, hu.count_eq, hv.count_eq]

lemma Rooted.opened (h : Rooted w) : Rooted ('[' :: w) := by
  intro t ht
  rcases List.prefix_cons_iff.mp ht with rfl | ⟨r, rfl, hr⟩
  · simp
  · have hle := h r hr
    simp
    omega

lemma WellNested.enclosed (h : WellNested m) : WellNested m.enclosed := by
  refine ⟨?_, by simp [Word.enclosed, h.count_eq]⟩
  intro t ht
  rcases List.prefix_concat_iff.mp ht with rfl | ht
  · simp [h.count_eq]
  · exact h.rooted.opened t ht

lemma WellNested.rooted_of_append (hu : WellNested u) (h : Rooted (u ++ v)) : Rooted v := by
  intro t ht
  have hc := hu.count_eq
  have hut := h (u ++ t) ((List.prefix_append_right_inj u).mpr ht)
  simp only [List.count_append] at hut
  omega

lemma exists_of_not_rooted (h : ¬Rooted w) : ∃ m v, WellNested m ∧ w = m ++ ']' :: v := by
  -- from the end, so that the close is the last symbol where what stands before it is still rooted
  induction w using List.reverseRecOn with
  | nil => exact absurd wellNested_nil.rooted h
  | append_singleton w c ih =>
    by_cases hw : Rooted w
    · obtain ⟨t, ht, hn⟩ := by simpa only [Rooted, not_forall, exists_prop, not_le] using h
      rcases List.prefix_concat_iff.mp ht with rfl | ht
      · have hle := hw w List.prefix_rfl
        rw [List.count_append, List.count_append, List.count_singleton, List.count_singleton] at hn
        have hc : c = ']' := by
          by_contra hc
          simp [hc] at hn
          omega
        subst hc
        refine ⟨w, [], wellNested_iff_rooted.mpr ⟨hw, ?_⟩, rfl⟩
        simp at hn
        omega
      · exact absurd (hw t ht) (by omega)
    · obtain ⟨m, v, hm, rfl⟩ := ih hw
      exact ⟨m, v ++ [c], hm, by simp⟩

lemma length_le_of_closed (h : m.count '[' ≤ m.count ']') (hr : Rooted m') (he : m' ++ v = m ++ ']' :: u) :
    m'.length ≤ m.length := by
  by_contra hlt
  have hw : m ++ [']'] <+: m' ++ v := ⟨u, by rw [he, List.append_assoc]; rfl⟩
  have hp : m ++ [']'] <+: m' := by
    apply List.prefix_of_prefix_length_le hw (List.prefix_append m' v)
    simp
    omega
  have hle := hr _ hp
  simp at hle
  omega

lemma not_rooted_of_closed (h : m.count '[' ≤ m.count ']') (v : Word) : ¬Rooted (m ++ ']' :: v) := by
  intro hr
  have hl := length_le_of_closed h hr (List.append_nil _)
  simp at hl

end Woodland
