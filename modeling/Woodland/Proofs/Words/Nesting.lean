import Mathlib.Data.List.Infix
import Mathlib.Tactic
import Woodland.Grammar.Basic

/-! Words whose brackets nest, taken apart into groups. -/

namespace Woodland

structure WellNested (w : Word) : Prop where
  count_le : ∀ u, u <+: w → u.count ']' ≤ u.count '['
  count_eq : w.count '[' = w.count ']'

instance (w : Word) : Decidable (WellNested w) :=
  decidable_of_iff ((∀ u ∈ w.inits, u.count ']' ≤ u.count '[') ∧ w.count '[' = w.count ']')
    ⟨fun h => ⟨fun u hu => h.1 u (List.mem_inits u w |>.mpr hu), h.2⟩,
      fun h => ⟨fun u hu => h.1 u (List.mem_inits u w |>.mp hu), h.2⟩⟩

abbrev Plain := { c : Char // c ≠ '[' ∧ c ≠ ']' }

/-- Symbols in their order, and groups, each with what stands between its brackets and what follows it. -/
inductive Nesting where
  | done
  | symbol (c : Plain) (rest : Nesting)
  | group (body rest : Nesting)
deriving DecidableEq

namespace Nesting

def word : Nesting → Word
  | done => []
  | symbol c rest => c :: rest.word
  | group body rest => '[' :: body.word ++ ']' :: rest.word

def closes : Nesting → ℕ
  | done => 0
  | symbol _ rest => rest.closes
  | group body rest => body.closes + 1 + rest.closes

/-- Reads a word from its end on. A close starts the body of a group, and what was read before waits for the
open that ends this body. -/
def read : Word → Option (Nesting × List Nesting)
  | [] => some (done, [])
  | c :: w => do
    let (body, waiting) ← read w
    if hc : c = ']' then return (done, body :: waiting)
    else if ho : c = '[' then
      match waiting with
      | [] => none
      | rest :: waiting => return (group body rest, waiting)
    else return (symbol ⟨c, ho, hc⟩ body, waiting)

def parse? (w : Word) : Option Nesting :=
  match read w with
  | some (n, []) => some n
  | _ => none

lemma word_of_read {w : Word} {n : Nesting} {waiting : List Nesting} (h : read w = some (n, waiting)) :
    w = n.word ++ waiting.flatMap fun m => ']' :: m.word := by
  induction w generalizing n waiting with
  | nil =>
    obtain ⟨rfl, rfl⟩ := by simpa [read] using h
    rfl
  | cons c w ih =>
    simp only [read, Option.bind_eq_bind, Option.bind_eq_some_iff] at h
    obtain ⟨⟨body, waiting'⟩, hr, h⟩ := h
    have hw := ih hr
    by_cases hc : c = ']'
    · obtain ⟨rfl, rfl⟩ := by simpa [hc] using h
      simp [hc, hw, word]
    · by_cases ho : c = '['
      · cases waiting' with
        | nil => simp [ho] at h
        | cons rest waiting' =>
          obtain ⟨rfl, rfl⟩ := by simpa [ho] using h
          simp [ho, hw, word]
      · obtain ⟨rfl, rfl⟩ := by simpa [hc, ho] using h
        simp [hw, word]

lemma word_of_parse? {w : Word} {n : Nesting} (h : parse? w = some n) : n.word = w := by
  unfold parse? at h
  split at h
  · rename_i m hr
    obtain rfl := Option.some.inj h
    simpa using (word_of_read hr).symm
  · cases h

lemma exists_read (w : Word) (h : ∀ v, v <:+ w → v.count '[' ≤ v.count ']') :
    ∃ n waiting, read w = some (n, waiting) ∧ waiting.length + w.count '[' = w.count ']' := by
  induction w with
  | nil => exact ⟨done, [], rfl, rfl⟩
  | cons c w ih =>
    obtain ⟨body, waiting, hr, hlen⟩ := ih fun v hv => h v (hv.trans (List.suffix_cons c w))
    have hcount := h (c :: w) List.suffix_rfl
    by_cases hc : c = ']'
    · subst hc
      refine ⟨done, body :: waiting, by simp [read, hr], ?_⟩
      simp
      omega
    · by_cases ho : c = '['
      · subst ho
        cases waiting with
        | nil =>
          simp at hcount hlen
          omega
        | cons rest waiting =>
          refine ⟨group body rest, waiting, by simp [read, hr], ?_⟩
          simp at hlen ⊢
          omega
      · refine ⟨symbol ⟨c, ho, hc⟩ body, waiting, by simp [read, hr, ho, hc], ?_⟩
        simpa [List.count_cons, ho, hc] using hlen

end Nesting

lemma WellNested.count_le_of_suffix {w v : Word} (h : WellNested w) (hv : v <:+ w) :
    v.count '[' ≤ v.count ']' := by
  obtain ⟨u, rfl⟩ := hv
  have hu := h.count_le u (List.prefix_append u v)
  have hw := h.count_eq
  simp only [List.count_append] at hw
  omega

lemma WellNested.exists_parse? {w : Word} (h : WellNested w) : ∃ n, Nesting.parse? w = some n := by
  obtain ⟨n, waiting, hr, hlen⟩ := Nesting.exists_read w fun v hv => h.count_le_of_suffix hv
  have hw : waiting = [] := List.eq_nil_of_length_eq_zero (by have := h.count_eq; omega)
  exact ⟨n, by simp [Nesting.parse?, hr, hw]⟩

end Woodland
