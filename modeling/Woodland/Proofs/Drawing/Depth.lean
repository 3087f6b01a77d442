import Mathlib.Tactic
import Woodland.Proofs.Drawing.Stepping
import Woodland.Proofs.Words.BalancedGrammar

/-!
How many poses are saved along a word, and how many closes found none. Trees of balanced grammars close nothing
that is not open, and leave nothing open unless they were cut.
-/

namespace Woodland

variable {α : Type} [Scalar α]

lemma symbol_cases (c : Char) : c = '[' ∨ c = ']' ∨ ∃ p : Plain, c = p := by
  by_cases ho : c = '['
  · exact Or.inl ho
  · by_cases hc : c = ']'
    · exact Or.inr (Or.inl hc)
    · exact Or.inr (Or.inr ⟨⟨c, ho, hc⟩, rfl⟩)

namespace Turtle

variable (s : Shape α)

lemma step_close_nil {t : Turtle α} (h : t.saved = []) :
    t.step s ']' = { t.hang with unmatched := t.unmatched + 1 } := by
  rw [step_close, hang_eq, restore, h]

lemma step_close_cons {t : Turtle α} {p : Pose α} {rest : List (Pose α)} (h : t.saved = p :: rest) :
    t.step s ']' = { t.hang with pose := p, saved := rest } := by
  rw [step_close, hang_eq, restore, h]

@[simp] lemma saved_hang (t : Turtle α) : t.hang.saved = t.saved := by rw [hang_eq]

@[simp] lemma pose_hang (t : Turtle α) : t.hang.pose = t.pose := by rw [hang_eq]

@[simp] lemma unmatched_hang (t : Turtle α) : t.hang.unmatched = t.unmatched := by rw [hang_eq]

lemma depth_step (t : Turtle α) (c : Char) :
    (t.step s c).saved.length + [c].count ']' + t.unmatched =
      t.saved.length + [c].count '[' + (t.step s c).unmatched := by
  obtain rfl | rfl | ⟨p, rfl⟩ := symbol_cases c
  · simp [step, Command.ofSymbol?, execute, push]
  · cases h : t.saved with
    | nil =>
      rw [step_close_nil s h]
      simp [h]
      omega
    | cons q rest =>
      rw [step_close_cons s h]
      simp
  · rw [step_plain]
    simp [p.2.1, p.2.2]

lemma unmatched_step {t : Turtle α} {c : Char} (h : [c].count ']' ≤ t.saved.length) :
    (t.step s c).unmatched = t.unmatched := by
  obtain rfl | rfl | ⟨p, rfl⟩ := symbol_cases c
  · rfl
  · cases hs : t.saved with
    | nil => simp [hs] at h
    | cons q rest =>
      rw [step_close_cons s hs]
      simp
  · rw [step_plain]

lemma depth_walk (t : Turtle α) (w : Word) :
    (t.walk s w).saved.length + w.count ']' + t.unmatched =
      t.saved.length + w.count '[' + (t.walk s w).unmatched := by
  induction w generalizing t with
  | nil => simp
  | cons c w ih =>
    have hstep := depth_step s t c
    have hrest := ih (t.step s c)
    rw [walk_cons, ← List.singleton_append, List.count_append, List.count_append]
    omega

lemma unmatched_walk {t : Turtle α} {w : Word} (h : ∀ u, u <+: w → u.count ']' ≤ t.saved.length + u.count '[') :
    (t.walk s w).unmatched = t.unmatched := by
  induction w generalizing t with
  | nil => rfl
  | cons c w ih =>
    have hc : (t.step s c).unmatched = t.unmatched := by
      apply unmatched_step
      have hfirst := h [c] (by simp)
      by_cases ho : c = '['
      · simp [ho]
      · simpa [List.count_singleton, ho] using hfirst
    have hdepth := depth_step s t c
    rw [walk_cons, ih, hc]
    intro u hu
    have hcu := h (c :: u) (List.cons_prefix_cons.mpr ⟨rfl, hu⟩)
    rw [← List.singleton_append, List.count_append, List.count_append] at hcu
    omega

end Turtle

lemma Drawing.openBranches_add_closes (s : Shape α) (clusters : List (Cluster α)) (origin : Mat4 α) (w : Word) :
    (ofWord s clusters origin w).openBranches + w.count ']' =
      w.count '[' + (ofWord s clusters origin w).unmatchedCloses := by
  have hd := Turtle.depth_walk s (Turtle.start s clusters origin) w
  change ((Turtle.start s clusters origin).walk s w).saved.length + w.count ']' =
    w.count '[' + ((Turtle.start s clusters origin).walk s w).unmatched
  simpa [Turtle.start] using hd

lemma Rooted.unmatchedCloses {w : Word} (h : Rooted w) (s : Shape α) (clusters : List (Cluster α))
    (origin : Mat4 α) : (Drawing.ofWord s clusters origin w).unmatchedCloses = 0 := by
  apply Turtle.unmatched_walk s
  intro u hu
  have hle := h u hu
  omega

lemma Rooted.openBranches {w : Word} (h : Rooted w) (s : Shape α) (clusters : List (Cluster α))
    (origin : Mat4 α) : (Drawing.ofWord s clusters origin w).openBranches + w.count ']' = w.count '[' := by
  have hd := Drawing.openBranches_add_closes s clusters origin w
  rwa [h.unmatchedCloses s clusters origin] at hd

theorem Grammar.Balanced.drawing_expandWithin {g : Grammar} (h : g.Balanced) (passes limit : ℕ) (s : Shape α)
    (clusters : List (Cluster α)) (origin : Mat4 α) :
    let e := (g.expandWithin passes limit).value
    let d := Drawing.ofWord s clusters origin e.symbols
    d.unmatchedCloses = 0 ∧ e.count ']' ≤ e.count '[' ∧ d.openBranches = e.count '[' - e.count ']' ∧
      (e.truncated = false → d.openBranches = 0) := by
  intro e d
  have hr : Rooted e.symbols := h.rooted_expandWithin passes limit
  have ho : d.openBranches + e.count ']' = e.count '[' := hr.openBranches s clusters origin
  refine ⟨hr.unmatchedCloses s clusters origin, by omega, by omega, ?_⟩
  intro ht
  have hc : e.count '[' = e.count ']' := (h.wellNested_expandWithin ht).count_eq
  omega

theorem drawing_expandWithin_cut :
    let e := (Species.simple3d.grammar.expandWithin 2 20).value
    let d := Drawing.ofWord (default : Shape Float32) [] Mat4.identity e.symbols
    e.symbols = "F[+F][-F][/F][\\F][+".toList ∧ e.truncated = true ∧ d.unmatchedCloses = 0 ∧ d.openBranches = 1 := by
  intro e d
  obtain ⟨hu, -, ho, -⟩ := (Grammar.balanced_species .simple3d).drawing_expandWithin 2 20
    (default : Shape Float32) [] Mat4.identity
  exact ⟨by decide, by decide, hu, ho.trans (by decide)⟩

end Woodland
