import Mathlib.Tactic
import Woodland.Proofs.Planting.Sites

/-!
What is drawn while sites are searched. Every candidate is taken or stands too close to one taken before it, and
only a search that has used up its attempts ends short of its target.
-/

namespace Woodland

/-- A point that was drawn, and the yaw drawn after it if the point was taken. -/
structure Candidate where
  x : Float32
  z : Float32
  yaw? : Option Float32

namespace Candidate

def site? (c : Candidate) : Option Site := c.yaw?.map fun yaw => ⟨c.x, c.z, yaw⟩

def taken (cs : List Candidate) : List Site := cs.filterMap site?

lemma taken_refused (cs : List Candidate) (x z : Float32) : taken (cs ++ [⟨x, z, none⟩]) = taken cs := by
  simp [taken, site?]

lemma taken_accepted (cs : List Candidate) (x z yaw : Float32) :
    taken (cs ++ [⟨x, z, some yaw⟩]) = taken cs ++ [⟨x, z, yaw⟩] := by
  simp [taken, site?]

lemma mem_taken {cs : List Candidate} {c : Candidate} {yaw : Float32} (hc : c ∈ cs) (hy : c.yaw? = some yaw) :
    ⟨c.x, c.z, yaw⟩ ∈ taken cs :=
  List.mem_filterMap.mpr ⟨c, hc, by rw [site?, hy]; rfl⟩

end Candidate

namespace Plot

open Candidate

/-- `p.Tries g cs g'`: from `g` on the candidates `cs` are drawn one after the other, and `g'` is left. -/
inductive Tries (p : Plot) (g : Generator) : List Candidate → Generator → Prop where
  | start : p.Tries g [] g
  | refused {cs : List Candidate} {g₁ : Generator} {axis : Draw Float32} (h : p.Tries g cs g₁) (ha : p.axis = .ok axis)
      (hc : (taken cs).any (p.tooClose (axis.run g₁).1 (axis.run (axis.run g₁).2).1) = true) :
      p.Tries g (cs ++ [⟨(axis.run g₁).1, (axis.run (axis.run g₁).2).1, none⟩]) (axis.run (axis.run g₁).2).2
  | accepted {cs : List Candidate} {g₁ : Generator} {axis : Draw Float32} (h : p.Tries g cs g₁) (ha : p.axis = .ok axis)
      (hc : (taken cs).any (p.tooClose (axis.run g₁).1 (axis.run (axis.run g₁).2).1) = false) :
      p.Tries g
        (cs ++ [⟨(axis.run g₁).1, (axis.run (axis.run g₁).2).1,
          some ((Draw.halfOpen 0.0 fullTurn).run (axis.run (axis.run g₁).2).2).1⟩])
        ((Draw.halfOpen 0.0 fullTurn).run (axis.run (axis.run g₁).2).2).2

variable {p : Plot} {g g' g₁ : Generator} {cs : List Candidate}

lemma last_or_before {before after : List Candidate} {c d : Candidate} (h : cs ++ [d] = before ++ c :: after) :
    cs = before ∧ d = c ∨ ∃ rest, cs = before ++ c :: rest := by
  rcases List.eq_nil_or_concat after with rfl | ⟨rest, last, rfl⟩
  · obtain ⟨rfl, hl⟩ := List.append_inj' h rfl
    exact .inl ⟨rfl, (List.cons_eq_cons.mp hl).1⟩
  · rw [List.concat_eq_append, ← List.cons_append, ← List.append_assoc] at h
    exact .inr ⟨rest, (List.append_inj' h rfl).1⟩

lemma Tries.exists_close (h : p.Tries g cs g') {before after : List Candidate} {c : Candidate}
    (hs : cs = before ++ c :: after) (hy : c.yaw? = none) :
    ∃ site ∈ taken before, site.distanceFrom c.x c.z < p.minSeparation := by
  induction h generalizing after with
  | start => simp at hs
  | refused _ _ hc ih =>
    obtain ⟨rfl, rfl⟩ | ⟨rest, hr⟩ := last_or_before hs
    · obtain ⟨site, hm, hd⟩ := List.any_eq_true.mp hc
      exact ⟨site, hm, of_decide_eq_true hd⟩
    · exact ih hr
  | accepted _ _ _ ih =>
    obtain ⟨-, rfl⟩ | ⟨rest, hr⟩ := last_or_before hs
    · cases hy
    · exact ih hr

lemma tries_search {axis : Draw Float32} (ha : p.axis = .ok axis) (target left : ℕ) (h : p.Tries g cs g₁) :
    ∃ cs' left' g', (p.search axis target left (taken cs).reverse).run g₁ = (((taken cs').reverse, left'), g') ∧
      p.Tries g cs' g' ∧ cs'.length + left' = cs.length + left ∧ ((taken cs').length < target → left' = 0) := by
  induction left generalizing cs g₁ with
  | zero => exact ⟨cs, 0, g₁, rfl, h, rfl, fun _ => rfl⟩
  | succ left ih =>
    rw [run_search_succ, List.length_reverse]
    by_cases hl : target ≤ (taken cs).length
    · rw [if_pos hl]
      exact ⟨cs, left + 1, g₁, rfl, h, rfl, fun hlt => absurd hlt (by omega)⟩
    · rw [if_neg hl]
      dsimp only
      rw [List.any_reverse]
      cases hc : (taken cs).any (p.tooClose (axis.run g₁).1 (axis.run (axis.run g₁).2).1) with
      | true =>
        obtain ⟨cs', left', g', hr, ht, hn, hs⟩ := ih (.refused h ha hc)
        rw [taken_refused] at hr
        rw [List.length_append, List.length_singleton] at hn
        exact ⟨cs', left', g', hr, ht, by omega, hs⟩
      | false =>
        obtain ⟨cs', left', g', hr, ht, hn, hs⟩ := ih (.accepted h ha hc)
        rw [taken_accepted, List.reverse_append] at hr
        rw [List.length_append, List.length_singleton] at hn
        exact ⟨cs', left', g', hr, ht, by omega, hs⟩

lemma tries_sites {target : ℕ} {d : Draw (List Site × ℕ)} (h : p.sites target = .ok d) (g : Generator) :
    ∃ cs, p.Tries g cs (d.run g).2 ∧ (d.run g).1 = (taken cs, cs.length) ∧ cs.length ≤ target * attemptsPerTree ∧
      ((taken cs).length < target → cs.length = target * attemptsPerTree) := by
  unfold sites at h
  by_cases ht : target = 0
  · rw [if_pos ht] at h
    obtain rfl := Except.ok.inj h
    exact ⟨[], .start, rfl, Nat.zero_le _, fun hl => absurd hl (by omega)⟩
  · rw [if_neg ht] at h
    obtain ⟨axis, ha, hd⟩ := map_ok_iff.mp h
    obtain ⟨cs, left, g', hr, hc, hn, hs⟩ := tries_search ha target (target * attemptsPerTree) (.start (g := g))
    rw [List.length_nil, Nat.zero_add] at hn
    have hd : d.run g = ((taken cs, cs.length), g') := by
      rw [← hd]
      change (let r := (p.search axis target (target * attemptsPerTree) (taken []).reverse).run g
        ((r.1.1.reverse, target * attemptsPerTree - r.1.2), r.2)) = _
      dsimp only
      rw [hr, List.reverse_reverse, ← hn, Nat.add_sub_cancel]
    rw [hd]
    refine ⟨cs, hc, rfl, by omega, fun hl => ?_⟩
    have hleft : left = 0 := hs hl
    omega

/-- For a target of `n`, every one of the candidates `cs` that stands free when it is drawn is among `sites`. -/
structure Greedy (p : Plot) (n : ℕ) (cs : List Candidate) (sites : List Site) : Prop where
  length_le : sites.length ≤ n
  attempts_le : cs.length ≤ 10 * n
  apart : sites.Pairwise (Site.Apart p.minSeparation)
  taken_or_close : ∀ before c after, cs = before ++ c :: after →
    (∃ yaw, ⟨c.x, c.z, yaw⟩ ∈ sites) ∨ ∃ site ∈ taken before, site.distanceFrom c.x c.z < p.minSeparation
  exhausted : sites.length < n → cs.length = 10 * n

def report (p : Plot) (n attempts : ℕ) (sites : List Site) : Journal.Event :=
  if sites.length < n then .crowded sites.length n attempts p.minSeparation else .placed sites.length attempts

lemma events_place (p : Plot) {target : ℕ} {d : Draw (List Site × ℕ)} (h : p.sites (min target maxTargetCount) = .ok d)
    (g : Generator) :
    (p.place target g).events.getLast? =
      some (p.report (min target maxTargetCount) (d.run g).1.2 (d.run g).1.1) := by
  unfold place report
  dsimp only
  rw [h]
  rcases hr : d.run g with ⟨⟨sites, attempts⟩, g'⟩
  simp only [hr]
  split_ifs <;> rfl

theorem place_greedy (p : Plot) (target : ℕ) (g : Generator)
    (h : ∀ fault, (p.place target g).value ≠ .error fault) :
    ∃ sites g' cs, (p.place target g).value = .ok (sites, g') ∧
      (p.place target g).events.getLast? = some (p.report (min target 300) cs.length sites) ∧
      p.Tries g cs g' ∧ sites = taken cs ∧ p.Greedy (min target 300) cs sites := by
  cases hv : (p.place target g).value with
  | error fault => exact absurd hv (h fault)
  | ok r =>
    obtain ⟨sites, g'⟩ := r
    have hl := laid_place hv
    rw [value_place] at hv
    obtain ⟨d, hd, he⟩ := map_ok_iff.mp hv
    obtain ⟨cs, hc, hr, hle, hex⟩ := tries_sites hd g
    obtain ⟨rfl, rfl⟩ := Prod.mk.inj he
    have hev := p.events_place hd g
    rw [hr] at hl hev ⊢
    refine ⟨_, _, cs, rfl, hev, hc, rfl, hl.length_le, ?_, hl.apart, ?_, ?_⟩
    · exact hle.trans_eq (Nat.mul_comm _ _)
    · intro before c after hs
      cases hy : c.yaw? with
      | none => exact .inr (hc.exists_close hs hy)
      | some yaw => exact .inl ⟨yaw, mem_taken (hs ▸ by simp) hy⟩
    · exact fun hlt => (hex hlt).trans (Nat.mul_comm _ _)

theorem place_greedy_default :
    ∃ sites g' cs, ((ofSettings default).place 301 (.ofSeed 7)).value = .ok (sites, g') ∧
      ((ofSettings default).place 301 (.ofSeed 7)).events.getLast? =
        some ((ofSettings default).report (min 301 300) cs.length sites) ∧
      (ofSettings default).Tries (.ofSeed 7) cs g' ∧ sites = taken cs ∧
      (ofSettings default).Greedy (min 301 300) cs sites := by
  apply place_greedy
  obtain ⟨r, hr⟩ := exists_place (p := ofSettings default) (by decide +kernel) 301 (.ofSeed 7)
  rw [hr]
  exact fun fault hf => nomatch hf

end Plot

end Woodland
