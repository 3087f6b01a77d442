import Mathlib
import Woodland.Grammar.Species
import Woodland.Proofs.Words.CappedExpansion
import Woodland.Tree.Shape

/-! Every species rewrites one symbol only, so its words grow by a closed law and stay within the usual bound. -/

namespace Woodland

namespace Grammar

structure Buds (g : Grammar) (x : Char) (shoot : Word) : Prop where
  start : g.start = [x]
  shoot : g.image x = shoot
  rest : ∀ c, c ≠ x → g.image c = [c]

variable {g : Grammar} {x : Char} {shoot : Word}

lemma Buds.count_rewrite (h : g.Buds x shoot) (w : Word) :
    (g.rewrite w).count x = w.count x * shoot.count x := by
  induction w with
  | nil => simp
  | cons c w ih =>
    by_cases hc : c = x
    · subst hc
      simp [h.shoot, ih, Nat.add_mul, Nat.add_comm]
    · simp [h.rest c hc, ih, hc]

lemma Buds.length_rewrite (h : g.Buds x shoot) (w : Word) :
    (g.rewrite w).length + w.count x = w.length + w.count x * shoot.length := by
  induction w with
  | nil => simp
  | cons c w ih =>
    by_cases hc : c = x
    · subst hc
      simp only [rewrite_cons, List.length_append, h.shoot, List.count_cons_self, List.length_cons, Nat.add_mul]
      omega
    · simp only [rewrite_cons, List.length_append, h.rest c hc, List.count_cons_of_ne hc, List.length_cons,
        List.length_nil]
      omega

lemma Buds.count_generation (h : g.Buds x shoot) (n : ℕ) : (g.generation n).count x = shoot.count x ^ n := by
  induction n with
  | zero => simp [h.start]
  | succ n ih => rw [generation_succ, h.count_rewrite, ih, pow_succ]

lemma Buds.length_generation_succ (h : g.Buds x shoot) (n : ℕ) :
    (g.generation (n + 1)).length + shoot.count x ^ n =
      (g.generation n).length + shoot.count x ^ n * shoot.length := by
  rw [generation_succ, ← h.count_generation n, h.length_rewrite]

end Grammar

namespace Species

def bud : Species → Char
  | simple3d | basic3d => 'F'
  | minimal3d => 'X'

def shoot : Species → Word
  | simple3d => "F[+F][-F][/F][\\F]".toList
  | minimal3d => "F[+X][-X][/X]".toList
  | basic3d => "FF[+F][-F][\\F]".toList

lemma buds (s : Species) : s.grammar.Buds s.bud s.shoot := by
  cases s with
  | simple3d | basic3d =>
    refine ⟨rfl, rfl, ?_⟩
    intro c hc
    have hb : (c == 'F') = false := beq_false_of_ne hc
    simp [Grammar.image, Grammar.rule?, grammar, Grammar.withRule, Grammar.ofStart, Grammar.insertRule,
      List.lookup, hb]
  | minimal3d =>
    refine ⟨rfl, rfl, ?_⟩
    intro c hc
    have hb : (c == 'X') = false := beq_false_of_ne hc
    have hr : minimal3d.grammar.rules = [('F', ['F']), ('X', minimal3d.shoot)] := rfl
    by_cases hf : c = 'F'
    · simp [Grammar.image, Grammar.rule?, hr, hf]
    · have hf' : (c == 'F') = false := beq_false_of_ne hf
      simp [Grammar.image, Grammar.rule?, hr, List.lookup, hb, hf']

def wordLength : Species → ℕ → ℕ
  | simple3d, n => 4 * 5 ^ n - 3
  | minimal3d, n => 6 * 3 ^ n - 5
  | basic3d, n => 1 + 13 * (5 ^ n - 1) / 4

lemma length_generation (s : Species) (n : ℕ) : (s.grammar.generation n).length = s.wordLength n := by
  induction n with
  | zero => cases s <;> rfl
  | succ n ih =>
    have hs := s.buds.length_generation_succ n
    rw [ih] at hs
    have h5 : 0 < 5 ^ n := by positivity
    have h3 : 0 < 3 ^ n := by positivity
    cases s
    · have hc : simple3d.shoot.count simple3d.bud = 5 := by decide
      have hl : simple3d.shoot.length = 17 := by decide
      simp only [hc, hl, wordLength, pow_succ] at hs ⊢
      omega
    · have hc : minimal3d.shoot.count minimal3d.bud = 3 := by decide
      have hl : minimal3d.shoot.length = 13 := by decide
      simp only [hc, hl, wordLength, pow_succ] at hs ⊢
      omega
    · have hc : basic3d.shoot.count basic3d.bud = 5 := by decide
      have hl : basic3d.shoot.length = 14 := by decide
      simp only [hc, hl, wordLength, pow_succ] at hs ⊢
      omega

lemma wordLength_le (s : Species) {n : ℕ} (h : n ≤ Shape.maxIterations) : s.wordLength n ≤ Grammar.defaultLimit := by
  have hn : ∀ k ≤ Shape.maxIterations, s.wordLength k ≤ Grammar.defaultLimit := by cases s <;> decide
  exact hn n h

lemma value_expand (s : Species) {n : ℕ} (h : n ≤ Shape.maxIterations) :
    (s.grammar.expand n).value = ⟨s.grammar.generation n, false⟩ := by
  apply Grammar.value_expandWithin_of_fits
  intro k hk
  rw [length_generation]
  exact s.wordLength_le (hk.trans h)

end Species

end Woodland
