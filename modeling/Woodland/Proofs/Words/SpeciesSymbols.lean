import Mathlib.Tactic
import Woodland.Proofs.Words.SpeciesGrowth

/-! How many segments and branches the words of a species have, by the number of passes. -/

namespace Woodland

namespace Grammar

variable {g : Grammar} {x c : Char} {shoot : Word}

lemma Buds.count_rewrite_of_ne (h : g.Buds x shoot) (hc : c ≠ x) (w : Word) :
    (g.rewrite w).count c = w.count c + w.count x * shoot.count c := by
  induction w with
  | nil => simp
  | cons d w ih =>
    rw [rewrite_cons, List.count_append, ih]
    by_cases hd : d = x
    · subst hd
      rw [h.shoot, List.count_cons_of_ne hc.symm, List.count_cons_self, Nat.add_mul]
      omega
    · rw [h.rest d hd, List.count_cons_of_ne hd, ← List.singleton_append (l := w), List.count_append]
      omega

lemma Buds.count_generation_succ (h : g.Buds x shoot) (hc : c ≠ x) (n : ℕ) :
    (g.generation (n + 1)).count c = (g.generation n).count c + shoot.count x ^ n * shoot.count c := by
  rw [generation_succ, h.count_rewrite_of_ne hc, h.count_generation]

end Grammar

namespace Species

def segments : Species → ℕ → ℕ
  | simple3d, n => 5 ^ n
  | minimal3d, n => (3 ^ n - 1) / 2
  | basic3d, n => 5 ^ n

def closes : Species → ℕ → ℕ
  | simple3d, n => 5 ^ n - 1
  | minimal3d, n => 3 * (3 ^ n - 1) / 2
  | basic3d, n => 3 * (5 ^ n - 1) / 4

lemma count_segments (s : Species) (n : ℕ) : (s.grammar.generation n).count 'F' = s.segments n := by
  cases s with
  | simple3d =>
    have hb : simple3d.shoot.count simple3d.bud = 5 := by decide
    have hg := (buds simple3d).count_generation n
    rw [hb] at hg
    exact hg
  | basic3d =>
    have hb : basic3d.shoot.count basic3d.bud = 5 := by decide
    have hg := (buds basic3d).count_generation n
    rw [hb] at hg
    exact hg
  | minimal3d =>
    induction n with
    | zero => rfl
    | succ n ih =>
      have hs := (buds minimal3d).count_generation_succ (c := 'F') (by decide) n
      have hb : minimal3d.shoot.count minimal3d.bud = 3 := by decide
      have hf : minimal3d.shoot.count 'F' = 1 := by decide
      have h3 : 0 < 3 ^ n := by positivity
      rw [hs, ih, hb, hf]
      simp only [segments, pow_succ]
      omega

lemma count_closes (s : Species) (n : ℕ) : (s.grammar.generation n).count ']' = s.closes n := by
  induction n with
  | zero => cases s <;> rfl
  | succ n ih =>
    have hc : ']' ≠ s.bud := by cases s <;> decide
    rw [s.buds.count_generation_succ hc, ih]
    have h5 : 0 < 5 ^ n := by positivity
    have h3 : 0 < 3 ^ n := by positivity
    cases s
    · have hb : simple3d.shoot.count simple3d.bud = 5 := by decide
      have hl : simple3d.shoot.count ']' = 4 := by decide
      simp only [hb, hl, closes, pow_succ]
      omega
    · have hb : minimal3d.shoot.count minimal3d.bud = 3 := by decide
      have hl : minimal3d.shoot.count ']' = 3 := by decide
      simp only [hb, hl, closes, pow_succ]
      omega
    · have hb : basic3d.shoot.count basic3d.bud = 5 := by decide
      have hl : basic3d.shoot.count ']' = 3 := by decide
      have hd : 4 ∣ 5 ^ n - 1 := by simpa using Nat.sub_dvd_pow_sub_pow 5 1 n
      simp only [hb, hl, closes, pow_succ]
      omega

lemma count_expand (s : Species) {n : ℕ} (h : n ≤ Shape.maxIterations) :
    (s.grammar.expand n).value.count 'F' = s.segments n ∧ (s.grammar.expand n).value.count ']' = s.closes n := by
  rw [s.value_expand h]
  exact ⟨s.count_segments n, s.count_closes n⟩

lemma segments_add_leaves_le (s : Species) {n leaves : ℕ} (h : n ≤ Shape.maxIterations)
    (hl : leaves ≤ Shape.leavesAtFullDensity) : s.segments n + leaves * s.closes n ≤ 140617 := by
  have hn : ∀ k ≤ Shape.maxIterations, s.segments k + Shape.leavesAtFullDensity * s.closes k ≤ 140617 := by
    cases s <;> decide
  calc s.segments n + leaves * s.closes n
      ≤ s.segments n + Shape.leavesAtFullDensity * s.closes n := by gcongr
    _ ≤ 140617 := hn n h

end Species

end Woodland
