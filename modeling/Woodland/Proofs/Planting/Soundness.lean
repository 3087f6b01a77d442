import Mathlib.Tactic
import Woodland.Proofs.Planting.Progress
import Woodland.Proofs.Planting.Trees
import Woodland.Proofs.Planting.ValidSettings

/-! What holds of every forest that updates lead to, whether they are accepted or refused. -/

namespace Woodland

structure Settings.Scatters (s : Settings) (sites : List Site) : Prop where
  length_le : sites.length ≤ s.targetCount
  apart : sites.Pairwise (Site.Apart s.minSeparation)
  within : ∀ site ∈ sites,
    (-s.placementHalfSize ≤ site.x ∧ site.x ≤ s.placementHalfSize) ∧
      -s.placementHalfSize ≤ site.z ∧ site.z ≤ s.placementHalfSize

lemma Settings.Scatters.withShape {s : Settings} {sites : List Site} (h : s.Scatters sites) (shape : Shape Float32) :
    (s.withShape shape).Scatters sites :=
  ⟨h.length_le, h.apart, h.within⟩

namespace Forest

structure Sound (f : Forest) : Prop where
  valid : f.settings.validate = .ok ()
  target_le : f.settings.targetCount ≤ maxTargetCount
  length_le : f.trees.length ≤ f.settings.targetCount
  grown : ∀ t ∈ f.trees, t.Grown f.settings.shape
  apart : f.trees.Pairwise fun earlier later => earlier.site.Apart f.settings.minSeparation later.site
  within : ∀ t ∈ f.trees,
    (-f.settings.placementHalfSize ≤ t.site.x ∧ t.site.x ≤ f.settings.placementHalfSize) ∧
      -f.settings.placementHalfSize ≤ t.site.z ∧ t.site.z ≤ f.settings.placementHalfSize

variable {s : Settings} {f f' : Forest}

lemma scatters_place (h : s.validate = .ok ()) {g g' : Generator} {sites : List Site}
    (hp : ((Plot.ofSettings s).place s.targetCount g).value = .ok (sites, g')) : s.Scatters sites := by
  have hl := Plot.laid_place hp
  refine ⟨hl.length_le.trans (min_le_left _ _), hl.apart, ?_⟩
  intro site hs
  obtain ⟨hx, hz⟩ := hl.reached site hs
  exact ⟨Settings.within_of_reaches h hx, Settings.within_of_reaches h hz⟩

lemma Sound.scatters (hf : f.Sound) : f.settings.Scatters (f.trees.map Tree.site) := by
  refine ⟨?_, List.pairwise_map.mpr hf.apart, ?_⟩
  · rw [List.length_map]
    exact hf.length_le
  · intro site hs
    obtain ⟨t, ht, rfl⟩ := List.mem_map.mp hs
    exact hf.within t ht

lemma sound_of_grown (h : s.validate = .ok ()) {trees : List Tree} (hs : s.Scatters (trees.map Tree.site))
    (hg : ∀ t ∈ trees, t.Grown s.shape) (g : Generator) : Sound ⟨s, g, trees⟩ where
  valid := h
  target_le := (s.validate_eq_ok_iff.mp h).1
  length_le := by simpa only [List.length_map] using hs.length_le
  grown := hg
  apart := List.pairwise_map.mp hs.apart
  within t ht := hs.within t.site (List.mem_map_of_mem ht)

lemma iterations_le_of_valid (h : s.validate = .ok ()) : s.shape.iterations ≤ Shape.maxIterations :=
  Shape.iterations_le (Settings.validate_shape_of_valid h)

lemma sound_planted (h : s.validate = .ok ()) {g : Generator} (hp : planted s g = .ok f) : f.Sound := by
  obtain ⟨⟨sites, g'⟩, hl, rfl⟩ := map_ok_iff.mp hp
  obtain ⟨hm, hg⟩ := Tree.grown_mapM id (Tree.grown_random (iterations_le_of_valid h)) sites g'
  rw [List.map_id] at hm
  refine sound_of_grown h ?_ hg _
  rw [hm]
  exact scatters_place h hl

lemma Sound.reshaped (hf : f.Sound) {shape : Shape Float32} (h : shape.validate = .ok ()) :
    (f.reshaped shape).Sound := by
  have hv := Settings.validate_withShape hf.valid h
  obtain ⟨hm, hg⟩ := Tree.grown_mapM Tree.site
    (fun t g => ⟨rfl, Tree.grown_grow (Shape.iterations_le h) t.site t.species g⟩) f.trees f.generator
  refine sound_of_grown hv ?_ hg _
  rw [hm]
  exact hf.scatters.withShape shape

lemma Sound.carryOut (hf : f.Sound) {p : Plan} (h : f.Admits p) (hc : p.carryOut f = .ok f') : f'.Sound := by
  cases h with
  | anew g => exact sound_planted hf.valid hc
  | seeded seed g => exact sound_planted (s := f.settings.withSeed seed) hf.valid hc
  | targeted h g => exact sound_planted h hc
  | shaped h =>
    obtain rfl := Except.ok.inj hc
    exact hf.reshaped h

lemma Sound.perform (hf : f.Sound) {u : Update} {r : Except Error Unit} (h : (f.perform u).value = .ok (r, f')) :
    f'.Sound := by
  rcases perform_cases h with ⟨e, -, rfl⟩ | ⟨-, p, hp, hc⟩
  · exact hf
  · exact hf.carryOut (admits_plan hp) hc

lemma Sound.performAll (hf : f.Sound) {us : List Update} {rs : List (Except Error Unit)}
    (h : (f.performAll us).value = .ok (rs, f')) : f'.Sound := by
  induction us generalizing f rs with
  | nil =>
    obtain ⟨-, rfl⟩ := Prod.mk.inj (Except.ok.inj h)
    exact hf
  | cons u us ih =>
    obtain ⟨r, f₁, rs', hu, hus, -⟩ := performAll_cons.mp h
    exact ih (hf.perform hu) hus

lemma sound_generate (h : (generate s).run.value = .ok f) : f.Sound := by
  obtain ⟨hv, hp⟩ := generate_ok_iff.mp h
  exact sound_planted hv hp

theorem sound_of_history (s : Settings) (f f' : Forest) (us : List Update) (rs : List (Except Error Unit))
    (h : (generate s).run.value = .ok f) (hr : (f.performAll us).value = .ok (rs, f')) : f'.Sound :=
  (sound_generate h).performAll hr

theorem sound_of_history_default :
    ∃ f rs f', (generate default).run.value = .ok f ∧
      (f.performAll [.reseed 7, .retarget 301, .set "iterations" 4.0, .set "num_trees" 12.0]).value = .ok (rs, f') ∧
      f'.Sound := by
  obtain ⟨f, hf, hs⟩ := exists_generate (s := default) rfl (by decide +kernel)
  obtain ⟨rs, f', hr⟩ := exists_performAll (f := f) (by rw [hs]; decide +kernel)
    [.reseed 7, .retarget 301, .set "iterations" 4.0, .set "num_trees" 12.0]
  exact ⟨f, rs, f', hf, hr, sound_of_history default f f' _ rs hf hr⟩

end Forest

end Woodland
