import Mathlib.Tactic
import Woodland.Proofs.Planting.Candidates
import Woodland.Proofs.Planting.Faults

/-!
Two targets on one plot and from one state. All candidates that can be drawn there are beginnings of one sequence,
so the sites for the smaller target come first among the sites for the larger one.
-/

namespace Woodland.Plot

open Candidate

variable {p : Plot} {g g₁ g₂ : Generator} {cs cs' : List Candidate}

lemma Tries.unique (h : p.Tries g cs g₁) (h' : p.Tries g cs' g₂) (hl : cs.length = cs'.length) :
    cs = cs' ∧ g₁ = g₂ := by
  induction h generalizing cs' g₂ with
  | start =>
    cases h' with
    | start => exact ⟨rfl, rfl⟩
    | refused | accepted => simp at hl
  | refused _ ha hc ih =>
    cases h' with
    | start => simp at hl
    | refused h' ha' _ =>
      obtain ⟨rfl, rfl⟩ := ih h' (by simpa using hl)
      obtain rfl := Except.ok.inj (ha.symm.trans ha')
      exact ⟨rfl, rfl⟩
    | accepted h' ha' hc' =>
      obtain ⟨rfl, rfl⟩ := ih h' (by simpa using hl)
      obtain rfl := Except.ok.inj (ha.symm.trans ha')
      exact absurd (hc.symm.trans hc') (by decide)
  | accepted _ ha hc ih =>
    cases h' with
    | start => simp at hl
    | refused h' ha' hc' =>
      obtain ⟨rfl, rfl⟩ := ih h' (by simpa using hl)
      obtain rfl := Except.ok.inj (ha.symm.trans ha')
      exact absurd (hc.symm.trans hc') (by decide)
    | accepted h' ha' _ =>
      obtain ⟨rfl, rfl⟩ := ih h' (by simpa using hl)
      obtain rfl := Except.ok.inj (ha.symm.trans ha')
      exact ⟨rfl, rfl⟩

lemma Tries.exists_of_prefix (h : p.Tries g cs g₁) (hp : cs' <+: cs) : ∃ g', p.Tries g cs' g' := by
  induction h with
  | start =>
    obtain rfl := List.prefix_nil.mp hp
    exact ⟨g, .start⟩
  | refused h ha hc ih =>
    rcases List.prefix_concat_iff.mp hp with rfl | hp
    · exact ⟨_, .refused h ha hc⟩
    · exact ih hp
  | accepted h ha hc ih =>
    rcases List.prefix_concat_iff.mp hp with rfl | hp
    · exact ⟨_, .accepted h ha hc⟩
    · exact ih hp

lemma Tries.prefix_of_length_le (h : p.Tries g cs g₁) (h' : p.Tries g cs' g₂) (hl : cs.length ≤ cs'.length) :
    cs <+: cs' := by
  have hp : cs'.take cs.length <+: cs' := List.take_prefix cs.length cs'
  obtain ⟨g₃, ht⟩ := h'.exists_of_prefix hp
  obtain ⟨he, -⟩ := h.unique ht (by rw [List.length_take, Nat.min_eq_left hl])
  exact he ▸ hp

lemma taken_prefix (h : cs <+: cs') : taken cs <+: taken cs' := h.filterMap site?

lemma sites_prefix {n m : ℕ} (hnm : n ≤ m) {d e : Draw (List Site × ℕ)} (hd : p.sites n = .ok d)
    (he : p.sites m = .ok e) (g : Generator) : (d.run g).1.1 <+: (e.run g).1.1 := by
  obtain ⟨cs, hc, hr, hle, -⟩ := tries_sites hd g
  obtain ⟨cs', hc', hr', -, hex⟩ := tries_sites he g
  have hn : (taken cs).length ≤ n := by
    have hlen := (laid_sites hd g).length_le
    rwa [hr] at hlen
  rw [hr, hr']
  rcases Nat.le_total cs.length cs'.length with hl | hl
  · exact taken_prefix (hc.prefix_of_length_le hc' hl)
  · -- no more attempts for the larger target than for the smaller one: both found the same sites
    have hp : taken cs' <+: taken cs := taken_prefix (hc'.prefix_of_length_le hc hl)
    have hlen : (taken cs).length ≤ (taken cs').length := by
      by_contra hlt
      have hall : cs'.length = m * attemptsPerTree := hex (by omega)
      have hmul : n * attemptsPerTree ≤ m * attemptsPerTree := Nat.mul_le_mul_right _ hnm
      obtain ⟨rfl, -⟩ := hc.unique hc' (by omega)
      exact hlt le_rfl
    rw [hp.eq_of_length_le hlen]

theorem place_prefix (p : Plot) {n m : ℕ} (hnm : n ≤ m) (g : Generator)
    (h : ∀ fault, (p.place m g).value ≠ .error fault) :
    ∃ sites g₁ sites' g₂, (p.place n g).value = .ok (sites, g₁) ∧ (p.place m g).value = .ok (sites', g₂) ∧
      sites <+: sites' := by
  obtain ⟨⟨sites', g₂⟩, hm⟩ : ∃ r, (p.place m g).value = .ok r := by
    cases hv : (p.place m g).value with
    | error fault => exact absurd hv (h fault)
    | ok r => exact ⟨r, rfl⟩
  have hok : n = 0 ∨ p.axis.isOk = true :=
    ((p.exists_place_iff m g).mp ⟨_, hm⟩).imp_left fun hz => by omega
  obtain ⟨⟨sites, g₁⟩, hn⟩ := (p.exists_place_iff n g).mpr hok
  refine ⟨sites, g₁, sites', g₂, hn, hm, ?_⟩
  rw [value_place] at hn hm
  obtain ⟨d, hd, hsn⟩ := map_ok_iff.mp hn
  obtain ⟨e, he, hsm⟩ := map_ok_iff.mp hm
  obtain ⟨rfl, -⟩ := Prod.mk.inj hsn
  obtain ⟨rfl, -⟩ := Prod.mk.inj hsm
  exact sites_prefix (by omega) hd he g

theorem place_prefix_crowded :
    ∃ sites g₁ sites' g₂, ((ofGround 3 1 3).place 50 (.ofSeed 1)).value = .ok (sites, g₁) ∧
      ((ofGround 3 1 3).place 301 (.ofSeed 1)).value = .ok (sites', g₂) ∧ sites <+: sites' := by
  apply place_prefix _ (by decide)
  obtain ⟨r, hr⟩ := exists_place (p := ofGround 3 1 3) (by decide +kernel) 301 (.ofSeed 1)
  rw [hr]
  exact fun fault hf => nomatch hf

end Woodland.Plot
