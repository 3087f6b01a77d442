import Mathlib.Data.List.Infix
import Mathlib.Tactic
import Woodland.Grammar.Basic

/-! Replacement of all symbols of a word at once, and its repetition without a bound. -/

namespace Woodland.Grammar

def rewrite (g : Grammar) (w : Word) : Word := w.flatMap g.image

def generation (g : Grammar) (k : ℕ) : Word := g.rewrite^[k] g.start

variable {g : Grammar}

lemma mem_rules_of_rule? {c : Char} {w : Word} (h : g.rule? c = some w) : (c, w) ∈ g.rules := by
  obtain ⟨l₁, l₂, hr, -⟩ := List.lookup_eq_some_iff.mp h
  rw [hr]
  simp

lemma image_of_rule?_eq_none {c : Char} (h : g.rule? c = none) : g.image c = [c] := by rw [image, h, Option.getD_none]

variable (g)

@[simp] lemma rewrite_nil : g.rewrite [] = [] := rfl

@[simp] lemma rewrite_cons (c : Char) (w : Word) : g.rewrite (c :: w) = g.image c ++ g.rewrite w := rfl

@[simp] lemma rewrite_append (u v : Word) : g.rewrite (u ++ v) = g.rewrite u ++ g.rewrite v :=
  List.flatMap_append

@[simp] lemma generation_zero : g.generation 0 = g.start := rfl

lemma generation_succ (k : ℕ) : g.generation (k + 1) = g.rewrite (g.generation k) :=
  Function.iterate_succ_apply' _ _ _

end Woodland.Grammar
