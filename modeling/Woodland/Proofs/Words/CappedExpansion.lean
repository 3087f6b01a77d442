import Mathlib.Tactic
import Woodland.Grammar.Expansion
import Woodland.Proofs.Words.Rewriting

/-!
Expansion within a bound against its unbounded generations: it is the last generation if all fit, and otherwise
it ends with the first one that does not, cut after the last image that fits whole.
-/

namespace Woodland.Grammar

structure LongestFit (g : Grammar) (limit : ℕ) (w p : Word) : Prop where
  beginning : p <+: w
  fits : (g.rewrite p).length ≤ limit
  longest : ∀ q, q <+: w → (g.rewrite q).length ≤ limit → q.length ≤ p.length

variable (g : Grammar) (limit : ℕ)

lemma longestFit_nil (c : Char) (w : Word) (h : limit < (g.image c).length) : g.LongestFit limit (c :: w) [] := by
  refine ⟨List.nil_prefix, by simp, ?_⟩
  intro q hq hfit
  cases q with
  | nil => simp
  | cons d q =>
    obtain ⟨rfl, -⟩ := List.cons_prefix_cons.mp hq
    simp only [rewrite_cons, List.length_append] at hfit
    omega

variable {g limit}

lemma LongestFit.cons {c : Char} {w p : Word} (hc : (g.image c).length ≤ limit)
    (h : g.LongestFit (limit - (g.image c).length) w p) : g.LongestFit limit (c :: w) (c :: p) := by
  refine ⟨List.cons_prefix_cons.mpr ⟨rfl, h.beginning⟩, ?_, ?_⟩
  · have := h.fits
    simp only [rewrite_cons, List.length_append]
    omega
  · intro q hq hfit
    cases q with
    | nil => simp
    | cons d q =>
      obtain ⟨rfl, hq'⟩ := List.cons_prefix_cons.mp hq
      simp only [rewrite_cons, List.length_append] at hfit
      simpa using h.longest q hq' (by omega)

lemma LongestFit.unique {w p p' : Word} (h : g.LongestFit limit w p) (h' : g.LongestFit limit w p') : p = p' := by
  have hl : p.length = p'.length :=
    le_antisymm (h'.longest p h.beginning h.fits) (h.longest p' h'.beginning h'.fits)
  exact (List.prefix_of_prefix_length_le h.beginning h'.beginning hl.le).eq_of_length hl

lemma LongestFit.exists_next {w p : Word} (h : g.LongestFit limit w p) (ho : limit < (g.rewrite w).length) :
    ∃ c, p ++ [c] <+: w ∧ limit < (g.rewrite p).length + (g.image c).length := by
  obtain ⟨rest, rfl⟩ := h.beginning
  cases rest with
  | nil =>
    rw [List.append_nil] at ho
    exact absurd h.fits (by omega)
  | cons c rest =>
    have hp : p ++ [c] <+: p ++ c :: rest := ⟨rest, by simp⟩
    refine ⟨c, hp, ?_⟩
    by_contra hle
    have hlen := h.longest (p ++ [c]) hp (by simpa using hle)
    simp at hlen

lemma replaceOnto_of_fits (done : Array Char) {room : ℕ} {w : Word} (h : (g.rewrite w).length ≤ room) :
    g.replaceOnto done room w = ⟨done.toList ++ g.rewrite w, false⟩ := by
  induction w generalizing done room with
  | nil => simp [replaceOnto]
  | cons c w ih =>
    simp only [rewrite_cons, List.length_append] at h
    rw [replaceOnto, if_pos (by omega), ih _ (by omega)]
    simp

lemma replaceOnto_of_overflow (done : Array Char) (room : ℕ) {w : Word} (h : room < (g.rewrite w).length) :
    ∃ p, g.LongestFit room w p ∧ g.replaceOnto done room w = ⟨done.toList ++ g.rewrite p, true⟩ := by
  induction w generalizing done room with
  | nil => simp at h
  | cons c w ih =>
    simp only [rewrite_cons, List.length_append] at h
    by_cases hc : (g.image c).length ≤ room
    · obtain ⟨p, hp, he⟩ := ih (done ++ g.image c) (room - (g.image c).length) (by omega)
      refine ⟨c :: p, hp.cons hc, ?_⟩
      rw [replaceOnto, if_pos hc, he]
      simp
    · refine ⟨[], longestFit_nil g room c w (by omega), ?_⟩
      rw [replaceOnto, if_neg hc]
      simp

lemma pass_of_fits (total left : ℕ) (w : Word) (h : ∀ k < left, (g.rewrite^[k + 1] w).length ≤ limit) :
    (g.pass limit total left ⟨w, false⟩).value = ⟨g.rewrite^[left] w, false⟩ := by
  induction left generalizing w with
  | zero => rfl
  | succ left ih =>
    have hr : g.replaceAll limit w = ⟨g.rewrite w, false⟩ :=
      replaceOnto_of_fits #[] (h 0 (by omega))
    simp only [pass, hr, Bool.false_eq_true, if_false, Function.iterate_succ_apply]
    exact ih (g.rewrite w) fun k hk => h (k + 1) (by omega)

lemma pass_of_overflow (total : ℕ) {left k : ℕ} {w : Word} (hk : k < left)
    (h : ∀ j < k, (g.rewrite^[j + 1] w).length ≤ limit) (ho : limit < (g.rewrite^[k + 1] w).length) :
    ∃ p, g.LongestFit limit (g.rewrite^[k] w) p ∧
      (g.pass limit total left ⟨w, false⟩).value = ⟨g.rewrite p, true⟩ := by
  induction left generalizing w k with
  | zero => omega
  | succ left ih =>
    cases k with
    | zero =>
      obtain ⟨p, hp, he⟩ := replaceOnto_of_overflow #[] limit ho
      have hr : g.replaceAll limit w = ⟨g.rewrite p, true⟩ := he
      exact ⟨p, hp, by simp [pass, hr]⟩
    | succ k =>
      have hr : g.replaceAll limit w = ⟨g.rewrite w, false⟩ :=
        replaceOnto_of_fits #[] (h 0 (by omega))
      obtain ⟨p, hp, he⟩ := ih (w := g.rewrite w) (k := k) (by omega) (fun j hj => h (j + 1) (by omega)) ho
      refine ⟨p, hp, ?_⟩
      simpa only [pass, hr, Bool.false_eq_true, if_false] using he

lemma value_expandWithin_of_fits {passes : ℕ} (h : ∀ k ≤ passes, (g.generation k).length ≤ limit) :
    (g.expandWithin passes limit).value = ⟨g.generation passes, false⟩ := by
  have hs : g.start.length ≤ limit := h 0 (by omega)
  have hp := pass_of_fits passes passes g.start fun k hk => h (k + 1) hk
  simpa [expandWithin, generation, List.take_of_length_le hs, Nat.not_lt.mpr hs] using hp

lemma value_expandWithin_of_start (passes : ℕ) (h : limit < g.start.length) :
    (g.expandWithin passes limit).value = ⟨g.start.take limit, true⟩ := by
  cases passes <;> simp [expandWithin, pass, h]

lemma value_expandWithin_of_overflow {passes k : ℕ} (hk : k < passes)
    (h : ∀ j ≤ k, (g.generation j).length ≤ limit) (ho : limit < (g.generation (k + 1)).length) :
    ∃ p, g.LongestFit limit (g.generation k) p ∧
      (g.expandWithin passes limit).value = ⟨g.rewrite p, true⟩ := by
  have hs : g.start.length ≤ limit := h 0 (by omega)
  obtain ⟨p, hp, he⟩ := pass_of_overflow passes hk (fun j hj => h (j + 1) hj) ho
  refine ⟨p, hp, ?_⟩
  simpa [expandWithin, List.take_of_length_le hs, Nat.not_lt.mpr hs] using he

lemma fits_or_overflow (g : Grammar) (passes limit : ℕ) :
    (∀ k ≤ passes, (g.generation k).length ≤ limit) ∨ limit < g.start.length ∨
      ∃ k < passes, (∀ j ≤ k, (g.generation j).length ≤ limit) ∧ limit < (g.generation (k + 1)).length := by
  induction passes with
  | zero =>
    rcases Nat.lt_or_ge limit g.start.length with hs | hs
    · exact Or.inr (Or.inl hs)
    · exact Or.inl fun k hk => by obtain rfl : k = 0 := by omega
                                  exact hs
  | succ n ih =>
    rcases ih with hall | hs | ⟨k, hk, hfit, hover⟩
    · rcases Nat.lt_or_ge limit (g.generation (n + 1)).length with ho | ho
      · exact Or.inr (Or.inr ⟨n, by omega, hall, ho⟩)
      · refine Or.inl fun k hk => ?_
        rcases Nat.lt_or_eq_of_le hk with hlt | rfl
        · exact hall k (by omega)
        · exact ho
    · exact Or.inr (Or.inl hs)
    · exact Or.inr (Or.inr ⟨k, by omega, hfit, hover⟩)

lemma length_expandWithin_le (g : Grammar) (passes limit : ℕ) :
    (g.expandWithin passes limit).value.length ≤ limit := by
  rcases g.fits_or_overflow passes limit with hall | hs | ⟨k, hk, hfit, hover⟩
  · rw [value_expandWithin_of_fits hall]
    exact hall passes (le_refl _)
  · rw [value_expandWithin_of_start passes hs]
    exact List.length_take_le limit g.start
  · obtain ⟨p, hp, he⟩ := value_expandWithin_of_overflow hk hfit hover
    rw [he]
    exact hp.fits

lemma truncated_expandWithin_eq_false_iff (g : Grammar) (passes limit : ℕ) :
    (g.expandWithin passes limit).value.truncated = false ↔ ∀ k ≤ passes, (g.generation k).length ≤ limit := by
  constructor
  · intro ht
    rcases g.fits_or_overflow passes limit with hall | hs | ⟨k, hk, hfit, hover⟩
    · exact hall
    · rw [value_expandWithin_of_start passes hs] at ht
      cases ht
    · obtain ⟨p, -, he⟩ := value_expandWithin_of_overflow hk hfit hover
      rw [he] at ht
      cases ht
  · intro hall
    rw [value_expandWithin_of_fits hall]

lemma value_expandWithin_of_not_truncated {passes : ℕ}
    (ht : (g.expandWithin passes limit).value.truncated = false) :
    (g.expandWithin passes limit).value = ⟨g.generation passes, false⟩ :=
  value_expandWithin_of_fits ((g.truncated_expandWithin_eq_false_iff passes limit).mp ht)

theorem expandWithin_eq_generation_or_cut (g : Grammar) (passes limit : ℕ) :
    (g.expandWithin passes limit).value.length ≤ limit ∧
    ((∀ k ≤ passes, (g.generation k).length ≤ limit) →
      (g.expandWithin passes limit).value = ⟨g.generation passes, false⟩) ∧
    (limit < (g.generation 0).length → (g.expandWithin passes limit).value = ⟨g.start.take limit, true⟩) ∧
    ∀ k < passes, (∀ j ≤ k, (g.generation j).length ≤ limit) → limit < (g.generation (k + 1)).length →
      ∃ p, g.LongestFit limit (g.generation k) p ∧
        (g.expandWithin passes limit).value = ⟨g.rewrite p, true⟩ := by
  refine ⟨g.length_expandWithin_le passes limit, value_expandWithin_of_fits,
    value_expandWithin_of_start passes, ?_⟩
  intro k hk hfit hover
  exact value_expandWithin_of_overflow hk hfit hover

example :
    (Grammar.expandWithin ⟨['F'], [('F', "FFF".toList)]⟩ 3 10).value = ⟨"FFFFFFFFF".toList, true⟩ := by decide

end Woodland.Grammar
