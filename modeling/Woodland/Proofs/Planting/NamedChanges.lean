import Mathlib.Tactic
import Woodland.Proofs.Planting.Faults
import Woodland.Proofs.Planting.NamedValues
import Woodland.Proofs.Planting.Soundness

/-!
Changing a forest by a name and a number. It comes to one of the two changes that take settings themselves, and is
refused just where settings refuse the number.
-/

namespace Woodland

namespace Tree

def identity (t : Tree) : Site × Species := (t.site, t.species)

lemma identity_mapM_regrow (s : Shape Float32) (trees : List Tree) (g : Generator) :
    ((Growing.quiet (trees.mapM (regrow · s))).run g).1.map identity = trees.map identity := by
  rw [Growing.quiet_mapM]
  exact Draw.map_mapM (fun _ _ => rfl) trees g

end Tree

namespace Forest

variable {f f' : Forest} {c : Settings} {shape : Shape Float32} {name : String} {x : Float}

def Update.typed (name : String) (c : Settings) : Update :=
  if name = "num_trees" then .retarget c.targetCount else .reshape c.shape

lemma perform_set_of_error {e : Error} (h : f.settings.set name x = .error e) :
    (f.perform (.set name x)).value = .ok (.error e, f) := by
  rw [value_perform, plan, h]
  rfl

lemma perform_set_of_ok (h : f.settings.set name x = .ok c) :
    (f.perform (.set name x)).value = (f.perform (.typed name c)).value := by
  have hp : f.plan (.set name x) = f.plan (.typed name c) := by
    rw [plan, h, Update.typed]
    change (if name = "num_trees" then _ else _) = _
    split_ifs <;> rfl
  rw [value_perform, value_perform, hp]

lemma perform_retarget_of_valid {n : ℕ} (h : (f.settings.withTargetCount n).validate = .ok ()) :
    (f.perform (.retarget n)).value =
      (planted (f.settings.withTargetCount n) f.generator).map fun f' => (.ok (), f') := by
  rw [value_perform, plan, planRetarget, h]
  rfl

lemma perform_reshape_of_valid (h : shape.validate = .ok ()) :
    (f.perform (.reshape shape)).value = .ok (.ok (), f.reshaped shape) := by
  rw [value_perform, plan, planReshape, h]
  rfl

lemma identity_perform_reshape {r : Except Error Unit} (h : (f.perform (.reshape shape)).value = .ok (r, f')) :
    f'.trees.map Tree.identity = f.trees.map Tree.identity := by
  rcases perform_cases h with ⟨e, -, rfl⟩ | ⟨-, p, hp, hc⟩
  · rfl
  · obtain ⟨_, -, rfl⟩ := map_ok_iff.mp hp
    obtain rfl := Except.ok.inj hc
    exact Tree.identity_mapM_regrow shape f.trees f.generator

lemma perform_typed_trees (hf : f.Sound) (h : f.settings.set "num_trees" x = .ok c) :
    (f.perform (.typed "num_trees" c)).value = (planted c f.generator).map fun f' => (.ok (), f') := by
  have hv := Settings.validate_of_set hf.valid h
  obtain ⟨n, -, rfl⟩ := Settings.set_trees_ok_iff.mp h
  exact perform_retarget_of_valid hv

lemma perform_typed_proportion (hn : name ≠ "num_trees") (h : f.settings.set name x = .ok c) :
    (f.perform (.typed name c)).value = .ok (.ok (), f.reshaped c.shape) ∧ (f.reshaped c.shape).settings = c := by
  obtain ⟨shape, hset, rfl⟩ := (Settings.set_proportion_ok_iff hn).mp h
  obtain ⟨-, -, -, hv⟩ := Shape.set_ok_iff.mp hset
  rw [Update.typed, if_neg hn]
  exact ⟨perform_reshape_of_valid hv, rfl⟩

lemma exists_perform_typed_iff (hf : f.Sound) (h : f.settings.set name x = .ok c) :
    (∃ f', (f.perform (.typed name c)).value = .ok (.ok (), f')) ↔
      (name = "num_trees" → c.targetCount = 0 ∨ (Plot.ofSettings f.settings).halfExtent ≤ Single.widest) := by
  by_cases hn : name = "num_trees"
  · subst hn
    rw [perform_typed_trees hf h]
    obtain ⟨n, -, rfl⟩ := Settings.set_trees_ok_iff.mp h
    have hp := exists_planted_iff (f.settings.withTargetCount n) f.generator
    simp only [map_ok_iff, forall_const]
    rw [show Plot.ofSettings f.settings = Plot.ofSettings (f.settings.withTargetCount n) from rfl, ← hp]
    constructor
    · rintro ⟨f', g, hg, -⟩
      exact ⟨g, hg⟩
    · rintro ⟨g, hg⟩
      exact ⟨g, g, hg, rfl⟩
  · exact iff_of_true ⟨_, (perform_typed_proportion hn h).1⟩ fun hc => absurd hc hn

lemma perform_typed_ends (hf : f.Sound) (h : f.settings.set name x = .ok c) {r : Except Error Unit}
    (hr : (f.perform (.typed name c)).value = .ok (r, f')) : r = .ok () ∧ f'.settings = c := by
  by_cases hn : name = "num_trees"
  · subst hn
    rw [perform_typed_trees hf h] at hr
    obtain ⟨g, hg, he⟩ := map_ok_iff.mp hr
    obtain ⟨rfl, rfl⟩ := Prod.mk.inj he
    exact ⟨rfl, settings_planted hg⟩
  · obtain ⟨hv, hs⟩ := perform_typed_proportion hn h
    obtain ⟨rfl, rfl⟩ := Prod.mk.inj (Except.ok.inj (hv.symm.trans hr))
    exact ⟨rfl, hs⟩

theorem perform_set_eq_typed (s : Settings) (f f' : Forest) (us : List Update) (rs : List (Except Error Unit))
    (h : (generate s).run.value = .ok f) (hr : (f.performAll us).value = .ok (rs, f')) (name : String) (x : Float) :
    (∀ e, f'.settings.set name x = .error e → (f'.perform (.set name x)).value = .ok (.error e, f')) ∧
    (∀ c, f'.settings.set name x = .ok c →
      (f'.perform (.set name x)).value =
        (f'.perform (if name = "num_trees" then .retarget c.targetCount else .reshape c.shape)).value ∧
      ((∃ g, (f'.perform (.set name x)).value = .ok (.ok (), g)) ↔
        (name = "num_trees" → c.targetCount = 0 ∨ (Plot.ofSettings f'.settings).halfExtent ≤ Single.widest)) ∧
      ∀ r g, (f'.perform (.set name x)).value = .ok (r, g) → r = .ok () ∧ g.settings = c) ∧
    (name ≠ "num_trees" → ∀ r g, (f'.perform (.set name x)).value = .ok (r, g) →
      g.trees.map Tree.identity = f'.trees.map Tree.identity) ∧
    ∀ shape r g, (f'.perform (.reshape shape)).value = .ok (r, g) →
      g.trees.map Tree.identity = f'.trees.map Tree.identity := by
  have hf : f'.Sound := (sound_generate h).performAll hr
  refine ⟨fun e he => perform_set_of_error he, fun c hc => ⟨perform_set_of_ok hc, ?_, ?_⟩, ?_,
    fun shape r g hg => identity_perform_reshape hg⟩
  · rw [perform_set_of_ok hc]
    exact exists_perform_typed_iff hf hc
  · rw [perform_set_of_ok hc]
    exact fun r g hg => perform_typed_ends hf hc hg
  · intro hn r g hg
    cases hc : f'.settings.set name x with
    | error e =>
      rw [perform_set_of_error hc] at hg
      obtain ⟨-, rfl⟩ := Prod.mk.inj (Except.ok.inj hg)
      rfl
    | ok c =>
      rw [perform_set_of_ok hc, Update.typed, if_neg hn] at hg
      exact identity_perform_reshape hg

theorem perform_set_eq_typed_default :
    ∃ f g, (generate default).run.value = .ok f ∧
      (f.performAll [.retarget 301]).value = .ok ([.error (.invalid (.targetAbove 301))], f) ∧
      (f.perform (.set "num_trees" 12.0)).value = .ok (.ok (), g) ∧
      (f.perform (.set "num_trees" 12.0)).value = (f.perform (.retarget 12)).value ∧
      g.settings = (default : Settings).withTargetCount 12 ∧
      (f.perform (.set "wind" 1.0)).value = .ok (.error (.unknownParameter "wind"), f) := by
  obtain ⟨f, hf, hs⟩ := exists_generate (s := default) rfl (by decide +kernel)
  have hr : (f.perform (.retarget 301)).value = .ok (.error (.invalid (.targetAbove 301)), f) := by
    rw [value_perform, plan, planRetarget, hs]
    rfl
  have hall := performAll_cons.mpr ⟨_, _, _, hr, show (f.performAll []).value = .ok ([], f) from rfl, rfl⟩
  have hc : f.settings.set "num_trees" 12.0 = .ok ((default : Settings).withTargetCount 12) := by
    rw [hs]
    rfl
  obtain ⟨-, ht, -⟩ := perform_set_eq_typed default f f _ _ hf hall "num_trees" 12.0
  obtain ⟨htyped, hexists, hends⟩ := ht _ hc
  obtain ⟨g, hg⟩ := hexists.mpr fun _ => .inr (by rw [hs]; decide +kernel)
  obtain ⟨hw, -⟩ := perform_set_eq_typed default f f _ _ hf hall "wind" 1.0
  exact ⟨f, g, hf, hall, hg, htyped, (hends _ _ hg).2, hw _ (by rw [hs]; rfl)⟩

/-- No tree is asked for at first, so that only the first one that is shows the ground to be too wide. -/
theorem perform_set_faults_wide :
    let s := { (default : Settings) with targetCount := 0, groundHalfSize := 3e38, edgeMargin := 0 }
    ∃ f, (generate s).run.value = .ok f ∧ (∃ c, f.settings.set "num_trees" 1.0 = .ok c) ∧
      ∀ r, (f.perform (.set "num_trees" 1.0)).value ≠ .ok r := by
  intro s
  have hshape : (default : Shape Float32).validate = .ok () := rfl
  have hv : s.validate = .ok () := (Settings.validate_eq_ok_iff _).mpr
    ⟨by decide, by decide +kernel, by decide +kernel, by decide +kernel, by decide +kernel, hshape⟩
  have hw : ¬(Plot.ofSettings s).halfExtent ≤ Single.widest := by decide +kernel
  obtain ⟨f, hf⟩ := (exists_generate_iff hv).mpr (.inl rfl)
  have hs := settings_generate hf
  have hc : f.settings.set "num_trees" 1.0 = .ok (s.withTargetCount 1) := by
    rw [hs]
    rfl
  refine ⟨f, hf, ⟨_, hc⟩, ?_⟩
  rintro ⟨r, g⟩ hr
  rw [perform_set_of_ok hc] at hr
  obtain ⟨rfl, -⟩ := perform_typed_ends (sound_generate hf) hc hr
  have hn := (exists_perform_typed_iff (sound_generate hf) hc).mp ⟨g, hr⟩ rfl
  rw [hs] at hn
  exact hn.elim one_ne_zero hw

end Forest

end Woodland
