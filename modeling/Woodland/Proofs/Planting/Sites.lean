import Mathlib.Tactic
import Woodland.Forest.Plot
import Woodland.Proofs.Random.Ranges
import Woodland.Proofs.Results

/-! Sites that are taken on a plot stand apart, and where the plot reaches. -/

namespace Woodland

def Site.Apart (separation : Float32) (earlier later : Site) : Prop :=
  ¬later.distance earlier < separation

namespace Plot

def Reaches (p : Plot) (x : Float32) : Prop :=
  if p.halfExtent.isFinite ∧ 0 < p.halfExtent then -p.halfExtent ≤ x ∧ x ≤ p.halfExtent else x = 0

lemma reaches_axis {p : Plot} {d : Draw Float32} (h : p.axis = .ok d) (g : Generator) : p.Reaches (d.run g).1 := by
  unfold axis at h
  unfold Reaches
  split at h
  case isTrue hp =>
    rw [if_pos hp]
    exact Draw.closed_within h g
  case isFalse hp =>
    rw [if_neg hp]
    obtain rfl := Except.ok.inj h
    rfl

lemma run_search_succ (p : Plot) (axis : Draw Float32) (target left : ℕ) (taken : List Site) (g : Generator) :
    (p.search axis target (left + 1) taken).run g =
      if target ≤ taken.length then ((taken, left + 1), g)
      else
        let x := axis.run g
        let z := axis.run x.2
        if taken.any (p.tooClose x.1 z.1) then (p.search axis target left taken).run z.2
        else
          let yaw := (Draw.halfOpen 0.0 fullTurn).run z.2
          (p.search axis target left (⟨x.1, z.1, yaw.1⟩ :: taken)).run yaw.2 := by
  rw [search]
  split
  · rfl
  · change ((if taken.any (p.tooClose (axis.run g).1 (axis.run (axis.run g).2).1) then p.search axis target left taken
      else do
        let yaw ← Draw.halfOpen 0.0 fullTurn
        p.search axis target left (⟨(axis.run g).1, (axis.run (axis.run g).2).1, yaw⟩ :: taken)).run _) = _
    dsimp only
    split <;> rfl

lemma search_keeps (p : Plot) (axis : Draw Float32) (target : ℕ) {P : List Site → Prop}
    (step : ∀ taken g g' yaw, P taken → taken.length < target →
      taken.any (p.tooClose (axis.run g).1 (axis.run g').1) = false →
      P (⟨(axis.run g).1, (axis.run g').1, yaw⟩ :: taken))
    (left : ℕ) {taken : List Site} (h : P taken) (g : Generator) :
    P ((p.search axis target left taken).run g).1.1 := by
  induction left generalizing taken g with
  | zero => exact h
  | succ left ih =>
    rw [run_search_succ]
    split
    · exact h
    · rename_i hlen
      dsimp only
      split
      · exact ih h _
      · rename_i hfree
        exact ih (step taken _ _ _ h (by omega) (by simpa using hfree)) _

structure Laid (p : Plot) (target : ℕ) (sites : List Site) : Prop where
  length_le : sites.length ≤ target
  apart : sites.Pairwise (Site.Apart p.minSeparation)
  reached : ∀ site ∈ sites, p.Reaches site.x ∧ p.Reaches site.z

lemma laid_nil (p : Plot) (target : ℕ) : p.Laid target [] := ⟨by simp, by simp, by simp⟩

lemma laid_search {p : Plot} {axis : Draw Float32} (h : p.axis = .ok axis) (target left : ℕ) (g : Generator) :
    p.Laid target ((p.search axis target left []).run g).1.1.reverse := by
  apply p.search_keeps axis target (P := fun taken => p.Laid target taken.reverse)
  · intro taken g g' yaw ht hlen hfree
    rw [List.reverse_cons]
    refine ⟨by simpa using hlen, ?_, ?_⟩
    · rw [List.pairwise_append]
      refine ⟨ht.apart, List.pairwise_singleton _ _, ?_⟩
      intro earlier he later hl
      obtain rfl := List.mem_singleton.mp hl
      have hd := List.any_eq_false.mp hfree earlier (by simpa using he)
      exact fun hc => hd (decide_eq_true hc)
    · intro site hs
      rcases List.mem_append.mp hs with hs | hs
      · exact ht.reached site hs
      · obtain rfl := List.mem_singleton.mp hs
        exact ⟨reaches_axis h g, reaches_axis h g'⟩
  · exact p.laid_nil target

lemma laid_sites {p : Plot} {target : ℕ} {d : Draw (List Site × ℕ)} (h : p.sites target = .ok d) (g : Generator) :
    p.Laid target (d.run g).1.1 := by
  unfold sites at h
  by_cases ht : target = 0
  · rw [if_pos ht] at h
    obtain rfl := Except.ok.inj h
    exact p.laid_nil target
  · rw [if_neg ht] at h
    obtain ⟨axis, ha, rfl⟩ := map_ok_iff.mp h
    exact laid_search ha target _ g

lemma value_place (p : Plot) (target : ℕ) (g : Generator) :
    (p.place target g).value =
      (p.sites (min target maxTargetCount)).map fun d => ((d.run g).1.1, (d.run g).2) := by
  unfold place
  dsimp only
  cases p.sites (min target maxTargetCount) with
  | error fault => split_ifs <;> rfl
  | ok d =>
    rcases hr : d.run g with ⟨⟨sites, attempts⟩, g'⟩
    simp only [hr, Except.map]
    split_ifs <;> rfl

lemma laid_place {p : Plot} {target : ℕ} {g g' : Generator} {sites : List Site}
    (h : (p.place target g).value = .ok (sites, g')) : p.Laid (min target maxTargetCount) sites := by
  rw [value_place] at h
  obtain ⟨d, hd, he⟩ := map_ok_iff.mp h
  obtain ⟨rfl, -⟩ := Prod.mk.inj he
  exact laid_sites hd g

lemma exists_place {p : Plot} (h : p.axis.isOk = true) (target : ℕ) (g : Generator) :
    ∃ r, (p.place target g).value = .ok r := by
  cases ha : p.axis with
  | error fault =>
    rw [ha] at h
    cases h
  | ok axis =>
    rw [value_place, sites]
    split
    · exact ⟨_, rfl⟩
    · rw [ha]
      exact ⟨_, rfl⟩

end Plot

end Woodland
