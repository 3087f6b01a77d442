import Mathlib.Tactic
import Woodland.Grammar.Species
import Woodland.Proofs.Words.CappedExpansion
import Woodland.Proofs.Words.Rooted

/-!
Grammars of well nested words that leave brackets alone. Every generation is well nested, and a cut one is the
beginning of such a generation.
-/

namespace Woodland.Grammar

structure Balanced (g : Grammar) : Prop where
  start : WellNested g.start
  replacement : ∀ r ∈ g.rules, WellNested r.2
  keepsOpen : g.rule? '[' = none
  keepsClose : g.rule? ']' = none

instance (g : Grammar) : Decidable g.Balanced :=
  decidable_of_iff (WellNested g.start ∧ (∀ r ∈ g.rules, WellNested r.2) ∧
      g.rule? '[' = none ∧ g.rule? ']' = none)
    ⟨fun h => ⟨h.1, h.2.1, h.2.2.1, h.2.2.2⟩,
      fun h => ⟨h.start, h.replacement, h.keepsOpen, h.keepsClose⟩⟩

variable {g : Grammar}

lemma Balanced.image_plain (h : g.Balanced) (c : Plain) : WellNested (g.image c) := by
  cases hr : g.rule? c with
  | none =>
    rw [image_of_rule?_eq_none hr]
    exact wellNested_plain c
  | some w =>
    rw [image, hr]
    exact h.replacement _ (mem_rules_of_rule? hr)

lemma Balanced.wellNested_rewrite_word (h : g.Balanced) (n : Nesting) : WellNested (g.rewrite n.word) := by
  induction n with
  | done => exact wellNested_nil
  | symbol c rest ih =>
    rw [Nesting.word, rewrite_cons]
    exact (h.image_plain c).append ih
  | group body rest ihb ihr =>
    have hw : g.rewrite (Nesting.group body rest).word =
        (g.rewrite body.word).enclosed ++ g.rewrite rest.word := by
      simp [Nesting.word, Word.enclosed, image_of_rule?_eq_none h.keepsOpen, image_of_rule?_eq_none h.keepsClose]
    rw [hw]
    exact ihb.enclosed.append ihr

lemma Balanced.wellNested_rewrite (h : g.Balanced) {w : Word} (hw : WellNested w) : WellNested (g.rewrite w) := by
  obtain ⟨n, hn⟩ := hw.exists_parse?
  rw [← Nesting.word_of_parse? hn]
  exact h.wellNested_rewrite_word n

lemma Balanced.wellNested_generation (h : g.Balanced) (k : ℕ) : WellNested (g.generation k) := by
  induction k with
  | zero => exact h.start
  | succ k ih =>
    rw [generation_succ]
    exact h.wellNested_rewrite ih

lemma exists_generation_prefix (g : Grammar) (passes limit : ℕ) :
    ∃ k, (g.expandWithin passes limit).value.symbols <+: g.generation k := by
  rcases g.fits_or_overflow passes limit with hall | hs | ⟨k, hk, hfit, hover⟩
  · rw [value_expandWithin_of_fits hall]
    exact ⟨passes, List.prefix_rfl⟩
  · rw [value_expandWithin_of_start passes hs]
    exact ⟨0, List.take_prefix limit g.start⟩
  · obtain ⟨p, hp, he⟩ := value_expandWithin_of_overflow hk hfit hover
    rw [he]
    obtain ⟨r, hr⟩ := hp.beginning
    refine ⟨k + 1, ?_⟩
    rw [generation_succ, ← hr, rewrite_append]
    exact List.prefix_append _ _

lemma Balanced.rooted_expandWithin (h : g.Balanced) (passes limit : ℕ) :
    Rooted (g.expandWithin passes limit).value.symbols := by
  obtain ⟨k, hk⟩ := g.exists_generation_prefix passes limit
  exact (h.wellNested_generation k).rooted.of_prefix hk

lemma Balanced.wellNested_expandWithin (h : g.Balanced) {passes limit : ℕ}
    (ht : (g.expandWithin passes limit).value.truncated = false) :
    WellNested (g.expandWithin passes limit).value.symbols := by
  rw [value_expandWithin_of_not_truncated ht]
  exact h.wellNested_generation passes

lemma balanced_species (s : Species) : s.grammar.Balanced := by
  cases s <;> decide

end Woodland.Grammar
