import Mathlib.Tactic
import Woodland.Proofs.Words.CappedExpansion

/-!
Grammars that replace no symbol by nothing. Their words never become shorter, so that the last generation decides
whether all of them fit a bound; only the pass that the bound cuts can end with fewer symbols than it was given.
-/

namespace Woodland.Grammar

def Propagating (g : Grammar) : Prop := ∀ r ∈ g.rules, r.2 ≠ []

instance (g : Grammar) : Decidable g.Propagating := inferInstanceAs (Decidable (∀ r ∈ g.rules, r.2 ≠ []))

variable {g : Grammar} {limit : ℕ}

lemma Propagating.image_length_pos (h : g.Propagating) (c : Char) : 0 < (g.image c).length := by
  cases hr : g.rule? c with
  | none =>
    rw [image_of_rule?_eq_none hr]
    exact Nat.one_pos
  | some u =>
    rw [image, hr]
    exact List.length_pos_iff.mpr (h _ (mem_rules_of_rule? hr))

lemma Propagating.length_le_rewrite (h : g.Propagating) (w : Word) : w.length ≤ (g.rewrite w).length := by
  induction w with
  | nil => exact Nat.zero_le _
  | cons c w ih =>
    have hc := h.image_length_pos c
    rw [rewrite_cons, List.length_append, List.length_cons]
    omega

lemma Propagating.monotone_length_generation (h : g.Propagating) : Monotone fun k => (g.generation k).length := by
  apply monotone_nat_of_le_succ
  intro k
  rw [generation_succ]
  exact h.length_le_rewrite (g.generation k)

lemma Propagating.truncated_expandWithin_iff (h : g.Propagating) (passes limit : ℕ) :
    (g.expandWithin passes limit).value.truncated = false ↔ (g.generation passes).length ≤ limit := by
  rw [truncated_expandWithin_eq_false_iff]
  exact ⟨fun hall => hall passes le_rfl, fun hle k hk => (h.monotone_length_generation hk).trans hle⟩

lemma value_expandWithin_of_truncated {m n : ℕ} (hmn : m ≤ n)
    (ht : (g.expandWithin m limit).value.truncated = true) :
    (g.expandWithin n limit).value = (g.expandWithin m limit).value := by
  rcases g.fits_or_overflow m limit with hall | hs | ⟨k, hk, hfit, hover⟩
  · rw [value_expandWithin_of_fits hall] at ht
    cases ht
  · rw [value_expandWithin_of_start n hs, value_expandWithin_of_start m hs]
  · obtain ⟨p, hp, he⟩ := value_expandWithin_of_overflow hk hfit hover
    obtain ⟨p', hp', he'⟩ := value_expandWithin_of_overflow (hk.trans_le hmn) hfit hover
    rw [he, he', hp.unique hp']

lemma exists_cut_of_truncated {m n : ℕ} (hm : (g.expandWithin m limit).value.truncated = false)
    (hn : (g.expandWithin n limit).value.truncated = true) :
    ∃ k p c, m ≤ k ∧ k < n ∧ p ++ [c] <+: g.generation k ∧ (g.expandWithin n limit).value.symbols = g.rewrite p ∧
      limit < (g.rewrite p).length + (g.image c).length := by
  have hall := (g.truncated_expandWithin_eq_false_iff m limit).mp hm
  rcases g.fits_or_overflow n limit with hfit | hs | ⟨k, hk, hfit, hover⟩
  · rw [value_expandWithin_of_fits hfit] at hn
    cases hn
  · exact absurd (hall 0 (Nat.zero_le m)) (Nat.not_le.mpr hs)
  · obtain ⟨p, hp, he⟩ := value_expandWithin_of_overflow hk hfit hover
    have hmk : m ≤ k := by
      by_contra hlt
      exact absurd (hall (k + 1) (by omega)) (Nat.not_le.mpr hover)
    rw [generation_succ] at hover
    obtain ⟨c, hc, hroom⟩ := hp.exists_next hover
    exact ⟨k, p, c, hmk, hk, hc, by rw [he], hroom⟩

theorem Propagating.length_expandWithin_le_or_cut (h : g.Propagating) (limit : ℕ) {m n : ℕ} (hmn : m ≤ n) :
    let e := (g.expandWithin m limit).value
    let e' := (g.expandWithin n limit).value
    (e'.truncated = false → e.length ≤ e'.length) ∧
    (e.truncated = true → e' = e) ∧
    (e.truncated = false → e'.truncated = true →
      ∃ k p c, m ≤ k ∧ k < n ∧ p ++ [c] <+: g.generation k ∧ e'.symbols = g.rewrite p ∧
        e.length ≤ limit ∧ limit < e'.length + (g.image c).length) := by
  intro e e'
  refine ⟨?_, value_expandWithin_of_truncated hmn, ?_⟩
  · intro ht
    have hlen := h.monotone_length_generation hmn
    have htm : e.truncated = false :=
      (h.truncated_expandWithin_iff m limit).mpr (hlen.trans ((h.truncated_expandWithin_iff n limit).mp ht))
    have hm : e = ⟨g.generation m, false⟩ := value_expandWithin_of_not_truncated htm
    have hn : e' = ⟨g.generation n, false⟩ := value_expandWithin_of_not_truncated ht
    rw [hm, hn]
    exact hlen
  · intro ht ht'
    obtain ⟨k, p, c, hmk, hkn, hc, hs, hroom⟩ := exists_cut_of_truncated ht ht'
    refine ⟨k, p, c, hmk, hkn, hc, hs, g.length_expandWithin_le m limit, ?_⟩
    rwa [Expansion.length, hs]

theorem length_expandWithin_le_or_cut_pair :
    let g : Grammar := ⟨['A', 'B'], [('B', ['B', 'B', 'B'])]⟩
    g.Propagating ∧
      ∃ k p c, 0 ≤ k ∧ k < 2 ∧ p ++ [c] <+: g.generation k ∧ (g.expandWithin 2 3).value.symbols = g.rewrite p ∧
        (g.expandWithin 0 3).value.length ≤ 3 ∧ 3 < (g.expandWithin 2 3).value.length + (g.image c).length := by
  intro g
  have h : g.Propagating := by decide
  exact ⟨h, (h.length_expandWithin_le_or_cut 3 (Nat.zero_le 2)).2.2 (by decide) (by decide)⟩

theorem length_expandWithin_cut_lt :
    let g : Grammar := ⟨['F'], [('F', ['F', 'F'])]⟩
    g.Propagating ∧ (g.expandWithin 1 1).value.length < (g.expandWithin 0 1).value.length := by
  decide

end Woodland.Grammar
