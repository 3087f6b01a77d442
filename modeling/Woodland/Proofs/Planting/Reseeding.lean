import Mathlib.Tactic
import Woodland.Proofs.Planting.Soundness

/-! Seeding a forest anew forgets how it came about: what follows is what follows on a forest just planted. -/

namespace Woodland.Forest

lemma value_generate_of_valid {s : Settings} (h : s.validate = .ok ()) :
    (generate s).run.value = (planted s (.ofSeed s.seed)).mapError .range := by
  rw [value_generate, h]

lemma value_perform_reseed (f : Forest) (seed : UInt64) :
    (f.perform (.reseed seed)).value =
      (planted (f.settings.withSeed seed) (.ofSeed seed)).map fun g => (.ok (), g) := by
  rw [value_perform]
  rfl

lemma value_performAll_cons (f : Forest) (u : Update) (us : List Update) :
    (f.performAll (u :: us)).value =
      (f.perform u).value.bind fun (r, g) => (g.performAll us).value.map fun (rs, g') => (r :: rs, g') := by
  rw [performAll, Logged.value_bind]
  cases (f.perform u).value with
  | error fault => rfl
  | ok p => rfl

theorem reseed_erases_history (s : Settings) (f f' : Forest) (us : List Update) (rs : List (Except Error Unit))
    (seed : UInt64) (h : (generate s).run.value = .ok f) (hr : (f.performAll us).value = .ok (rs, f')) :
    ∃ fresh : Except RangeFault Forest,
      (generate (f'.settings.withSeed seed)).run.value = fresh.mapError .range ∧
      (f'.perform (.reseed seed)).value = fresh.map (fun g => (.ok (), g)) ∧
      ∀ later, (f'.performAll (.reseed seed :: later)).value =
        fresh.bind fun g => (g.performAll later).value.map fun (rs, g') => (.ok () :: rs, g') := by
  have hv : f'.settings.validate = .ok () := ((sound_generate h).performAll hr).valid
  have hs : (f'.settings.withSeed seed).validate = .ok () := hv
  refine ⟨planted (f'.settings.withSeed seed) (.ofSeed seed), ?_, ?_, ?_⟩
  · exact value_generate_of_valid hs
  · exact value_perform_reseed f' seed
  · intro later
    rw [value_performAll_cons, value_perform_reseed]
    cases planted (f'.settings.withSeed seed) (.ofSeed seed) <;> rfl

theorem reseed_erases_history_regrown :
    ∃ f rs f' g,
      (generate default).run.value = .ok f ∧
      (f.performAll [.retarget 301, .set "iterations" 4.0, .regenerate]).value = .ok (rs, f') ∧
      (generate (f'.settings.withSeed 7)).run.value = .ok g ∧
      (f'.perform (.reseed 7)).value = .ok (.ok (), g) := by
  obtain ⟨f, hf, hs⟩ := exists_generate (s := default) rfl (by decide +kernel)
  obtain ⟨_, f₄, hr⟩ := exists_performAll (f := f) (by rw [hs]; decide +kernel)
    [.retarget 301, .set "iterations" 4.0, .regenerate, .reseed 7]
  obtain ⟨r₁, f₁, _, h₁, hr, -⟩ := performAll_cons.mp hr
  obtain ⟨r₂, f₂, _, h₂, hr, -⟩ := performAll_cons.mp hr
  obtain ⟨r₃, f₃, _, h₃, hr, -⟩ := performAll_cons.mp hr
  obtain ⟨r₄, g, _, h₄, -, -⟩ := performAll_cons.mp hr
  have hd : (f₃.performAll []).value = .ok ([], f₃) := rfl
  have hl₃ := performAll_cons.mpr ⟨_, _, _, h₃, hd, rfl⟩
  have hl₂ := performAll_cons.mpr ⟨_, _, _, h₂, hl₃, rfl⟩
  have hl := performAll_cons.mpr ⟨_, _, _, h₁, hl₂, rfl⟩
  obtain ⟨fresh, hg, hp, -⟩ := reseed_erases_history default f f₃ _ _ 7 hf hl
  obtain ⟨g', rfl, he⟩ := map_ok_iff.mp (hp.symm.trans h₄)
  obtain ⟨-, rfl⟩ := Prod.mk.inj he
  exact ⟨f, _, f₃, g', hf, hl, hg, hp⟩

end Woodland.Forest
