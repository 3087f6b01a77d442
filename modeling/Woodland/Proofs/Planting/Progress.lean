import Mathlib.Tactic
import Woodland.Proofs.Planting.Changes
import Woodland.Proofs.Planting.Sites

/-! On a plot that sites can be drawn from every history of updates comes to its end. -/

namespace Woodland.Forest

lemma exists_planted {s : Settings} (h : (Plot.ofSettings s).axis.isOk = true) (g : Generator) :
    ∃ f, planted s g = .ok f ∧ f.settings = s := by
  obtain ⟨⟨sites, g'⟩, hp⟩ := Plot.exists_place h s.targetCount g
  rw [planted, hp]
  exact ⟨_, rfl, rfl⟩

variable {f : Forest}

/-- No update moves the plot, so that one fault would have to be there from the start. -/
lemma exists_carryOut (h : (Plot.ofSettings f.settings).axis.isOk = true) {p : Plan} (hp : f.Admits p) :
    ∃ f', p.carryOut f = .ok f' ∧ Plot.ofSettings f'.settings = Plot.ofSettings f.settings := by
  cases hp with
  | anew g =>
    obtain ⟨f', hf, hs⟩ := exists_planted h g
    exact ⟨f', hf, by rw [hs]⟩
  | seeded seed g =>
    obtain ⟨f', hf, hs⟩ := exists_planted (s := f.settings.withSeed seed) h g
    exact ⟨f', hf, by rw [hs]; rfl⟩
  | @targeted n _ g =>
    obtain ⟨f', hf, hs⟩ := exists_planted (s := f.settings.withTargetCount n) h g
    exact ⟨f', hf, by rw [hs]; rfl⟩
  | shaped _ => exact ⟨_, rfl, rfl⟩

lemma exists_perform (h : (Plot.ofSettings f.settings).axis.isOk = true) (u : Update) :
    ∃ r f', (f.perform u).value = .ok (r, f') ∧ Plot.ofSettings f'.settings = Plot.ofSettings f.settings := by
  rw [value_perform]
  cases hp : f.plan u with
  | error e => exact ⟨.error e, f, rfl, rfl⟩
  | ok p =>
    obtain ⟨f', hc, hs⟩ := exists_carryOut h (admits_plan hp)
    refine ⟨.ok (), f', ?_, hs⟩
    rw [decided, hc]
    rfl

lemma exists_performAll (h : (Plot.ofSettings f.settings).axis.isOk = true) (us : List Update) :
    ∃ rs f', (f.performAll us).value = .ok (rs, f') := by
  induction us generalizing f with
  | nil => exact ⟨[], f, rfl⟩
  | cons u us ih =>
    obtain ⟨r, f₁, hu, hs⟩ := exists_perform h u
    obtain ⟨rs, f', hus⟩ := ih (hs ▸ h)
    exact ⟨r :: rs, f', performAll_cons.mpr ⟨r, f₁, rs, hu, hus, rfl⟩⟩

lemma exists_generate {s : Settings} (hv : s.validate = .ok ()) (h : (Plot.ofSettings s).axis.isOk = true) :
    ∃ f, (generate s).run.value = .ok f ∧ f.settings = s := by
  obtain ⟨f, hf, hs⟩ := exists_planted h (.ofSeed s.seed)
  exact ⟨f, generate_ok_iff.mpr ⟨hv, hf⟩, hs⟩

end Woodland.Forest
