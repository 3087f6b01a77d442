import Mathlib.Tactic
import Woodland.Proofs.Words.CappedExpansion

/-!
What an expansion reports: the pass that cuts it, if there is one, and in the end its length. A start word that is
cut goes unreported.
-/

namespace Woodland.Grammar

variable {g : Grammar} {limit total left k : ℕ} {w : Word}

lemma events_pass_of_truncated (total left : ℕ) (w : Word) : (g.pass limit total left ⟨w, true⟩).events = [] := by
  cases left with
  | zero => rfl
  | succ left =>
    rw [pass, if_pos rfl]
    rfl

lemma events_pass_of_fits (total : ℕ) (h : ∀ k < left, (g.rewrite^[k + 1] w).length ≤ limit) :
    (g.pass limit total left ⟨w, false⟩).events = [] := by
  induction left generalizing w with
  | zero => rfl
  | succ left ih =>
    have hr : g.replaceAll limit w = ⟨g.rewrite w, false⟩ := replaceOnto_of_fits #[] (h 0 (by omega))
    simp only [pass, hr, Bool.false_eq_true, if_false]
    exact ih fun k hk => h (k + 1) (by omega)

lemma events_pass_of_overflow (hl : left ≤ total) (hk : k < left)
    (h : ∀ j < k, (g.rewrite^[j + 1] w).length ≤ limit) (ho : limit < (g.rewrite^[k + 1] w).length) :
    (g.pass limit total left ⟨w, false⟩).events =
      [.truncated (g.pass limit total left ⟨w, false⟩).value.length (total - left + (k + 1)) total] := by
  induction left generalizing w k with
  | zero => omega
  | succ left ih =>
    cases k with
    | zero =>
      obtain ⟨p, -, he⟩ := replaceOnto_of_overflow #[] limit ho
      have hr : g.replaceAll limit w = ⟨g.rewrite p, true⟩ := he
      have hn : total - left = total - (left + 1) + (0 + 1) := by omega
      simp only [pass, hr, Bool.false_eq_true, if_false, if_true, ← hn]
      rfl
    | succ k =>
      have hr : g.replaceAll limit w = ⟨g.rewrite w, false⟩ := replaceOnto_of_fits #[] (h 0 (by omega))
      have hn : total - left + (k + 1) = total - (left + 1) + (k + 1 + 1) := by omega
      have hrest := ih (w := g.rewrite w) (k := k) (by omega) (by omega) (fun j hj => h (j + 1) (by omega)) ho
      simpa only [pass, hr, Bool.false_eq_true, if_false, hn] using hrest

lemma events_expandWithin (g : Grammar) (passes limit : ℕ) : (g.expandWithin passes limit).events =
    (g.pass limit passes passes ⟨g.start.take limit, decide (limit < g.start.length)⟩).events ++
      [.expanded g.start passes (g.expandWithin passes limit).value.length] := rfl

lemma events_expandWithin_of_start (passes : ℕ) (h : limit < g.start.length) : (g.expandWithin passes limit).events =
    [.expanded g.start passes (g.expandWithin passes limit).value.length] := by
  rw [events_expandWithin, decide_eq_true h, events_pass_of_truncated, List.nil_append]

lemma events_expandWithin_of_fits {passes : ℕ} (h : ∀ k ≤ passes, (g.generation k).length ≤ limit) :
    (g.expandWithin passes limit).events =
      [.expanded g.start passes (g.expandWithin passes limit).value.length] := by
  have hs : g.start.length ≤ limit := h 0 (by omega)
  rw [events_expandWithin, decide_eq_false (by omega), List.take_of_length_le hs,
    events_pass_of_fits passes fun k hk => h (k + 1) hk, List.nil_append]

lemma events_expandWithin_of_overflow {passes : ℕ} (hk : k < passes) (h : ∀ j ≤ k, (g.generation j).length ≤ limit)
    (ho : limit < (g.generation (k + 1)).length) : (g.expandWithin passes limit).events =
      [.truncated (g.expandWithin passes limit).value.length (k + 1) passes,
        .expanded g.start passes (g.expandWithin passes limit).value.length] := by
  have hs : g.start.length ≤ limit := h 0 (by omega)
  have hv : (g.expandWithin passes limit).value = (g.pass limit passes passes ⟨g.start, false⟩).value := by
    change (g.pass limit passes passes ⟨g.start.take limit, decide (limit < g.start.length)⟩).value = _
    rw [decide_eq_false (by omega), List.take_of_length_le hs]
  have hp := events_pass_of_overflow le_rfl hk (fun j hj => h (j + 1) hj) ho
  rw [Nat.sub_self, Nat.zero_add] at hp
  rw [events_expandWithin, decide_eq_false (by omega), List.take_of_length_le hs, hp, hv]
  rfl

theorem warns_of_cut_pass (g : Grammar) (passes limit : ℕ) :
    let x := g.expandWithin passes limit
    let closing := Journal.Event.expanded g.start passes x.value.length
    (x.value.truncated = false → x.events = [closing]) ∧
    (limit < g.start.length → x.value.truncated = true ∧ x.events = [closing]) ∧
    (∀ k < passes, (∀ j ≤ k, (g.generation j).length ≤ limit) → limit < (g.generation (k + 1)).length →
      x.value.truncated = true ∧ x.events = [.truncated x.value.length (k + 1) passes, closing]) ∧
    x.events.countP (·.level = .warn) = if x.value.truncated ∧ g.start.length ≤ limit then 1 else 0 := by
  intro x closing
  have hfit (h : ∀ k ≤ passes, (g.generation k).length ≤ limit) : x.value.truncated = false ∧ x.events = [closing] :=
    ⟨congrArg Expansion.truncated (value_expandWithin_of_fits h), events_expandWithin_of_fits h⟩
  have hstart (h : limit < g.start.length) : x.value.truncated = true ∧ x.events = [closing] :=
    ⟨congrArg Expansion.truncated (value_expandWithin_of_start passes h), events_expandWithin_of_start passes h⟩
  have hcut (k : ℕ) (hk : k < passes) (h : ∀ j ≤ k, (g.generation j).length ≤ limit)
      (ho : limit < (g.generation (k + 1)).length) :
      x.value.truncated = true ∧ x.events = [.truncated x.value.length (k + 1) passes, closing] := by
    obtain ⟨p, -, hv⟩ := value_expandWithin_of_overflow hk h ho
    exact ⟨congrArg Expansion.truncated hv, events_expandWithin_of_overflow hk h ho⟩
  refine ⟨fun ht => (hfit ((g.truncated_expandWithin_eq_false_iff passes limit).mp ht)).2, hstart, hcut, ?_⟩
  rcases g.fits_or_overflow passes limit with hall | hs | ⟨k, hk, h, ho⟩
  · obtain ⟨ht, he⟩ := hfit hall
    rw [he, ht, if_neg (by simp)]
    rfl
  · obtain ⟨-, he⟩ := hstart hs
    rw [he, if_neg (by omega)]
    rfl
  · obtain ⟨ht, he⟩ := hcut k hk h ho
    have hs : g.start.length ≤ limit := h 0 (by omega)
    rw [he, ht, if_pos ⟨rfl, hs⟩]
    rfl

theorem cut_start_unreported :
    let x := Grammar.expandWithin ⟨"FF".toList, []⟩ 1 1
    x.value = ⟨['F'], true⟩ ∧ x.events.countP (·.level = .warn) = 0 ∧
      ¬∀ (g : Grammar) (passes limit : ℕ), (g.expandWithin passes limit).value.truncated = true →
        (g.expandWithin passes limit).events.countP (·.level = .warn) = 1 := by
  refine ⟨by decide, rfl, ?_⟩
  intro h
  have hone := h ⟨"FF".toList, []⟩ 1 1 (by decide)
  cases hone

end Woodland.Grammar
