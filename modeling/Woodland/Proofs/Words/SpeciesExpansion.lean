import Mathlib.Tactic
import Woodland.Proofs.Words.BalancedGrammar
import Woodland.Proofs.Words.ExpansionLength
import Woodland.Proofs.Words.SpeciesSymbols

/-! Which words of a species a bound lets through, and what symbols these hold, by the number of passes. -/

namespace Woodland.Species

def tips : Species → ℕ → ℕ
  | minimal3d, n => 3 ^ n
  | simple3d, _ | basic3d, _ => 0

lemma propagating (s : Species) : s.grammar.Propagating := by
  cases s <;> decide

lemma truncated_expandWithin_iff (s : Species) (n limit : ℕ) :
    (s.grammar.expandWithin n limit).value.truncated = false ↔ s.wordLength n ≤ limit := by
  rw [s.propagating.truncated_expandWithin_iff, length_generation]

lemma count_opens (s : Species) (n : ℕ) : (s.grammar.generation n).count '[' = s.closes n := by
  rw [((Grammar.balanced_species s).wellNested_generation n).count_eq, count_closes]

lemma count_tips (s : Species) (n : ℕ) : (s.grammar.generation n).count 'X' = s.tips n := by
  cases s with
  | minimal3d =>
    have hb : minimal3d.shoot.count minimal3d.bud = 3 := by decide
    have hg := (buds minimal3d).count_generation n
    rw [hb] at hg
    exact hg
  | simple3d | basic3d =>
    induction n with
    | zero => rfl
    | succ n ih =>
      rw [(buds _).count_generation_succ (by decide), ih]
      rfl

theorem expandWithin_closed_form (s : Species) (n limit : ℕ) :
    let e := (s.grammar.expandWithin n limit).value
    (e.truncated = false ↔ s.wordLength n ≤ limit) ∧
    (e.truncated = false → e.length = s.wordLength n ∧ e.count 'F' = s.segments n ∧ e.count '[' = s.closes n ∧
      e.count ']' = s.closes n ∧ e.count 'X' = s.tips n) ∧
    (n ≤ Shape.maxIterations → (s.grammar.expand n).value.truncated = false) := by
  intro e
  refine ⟨s.truncated_expandWithin_iff n limit, ?_, ?_⟩
  · intro ht
    have he : e = ⟨s.grammar.generation n, false⟩ := Grammar.value_expandWithin_of_not_truncated ht
    rw [he]
    exact ⟨s.length_generation n, s.count_segments n, s.count_opens n, s.count_closes n, s.count_tips n⟩
  · intro hn
    exact (s.truncated_expandWithin_iff n Grammar.defaultLimit).mpr (s.wordLength_le hn)

end Woodland.Species
