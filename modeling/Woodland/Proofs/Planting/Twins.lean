import Mathlib.Tactic
import Woodland.Proofs.Frames.Rendering
import Woodland.Proofs.Planting.Changes
import Woodland.Proofs.Planting.Progress
import Woodland.Proofs.Planting.Trees
import Woodland.Proofs.Planting.ValidSettings
import Woodland.Proofs.Planting.ValidShapes

/-!
Two forests that differ only in the lengths, widths and turns of their branches. Nothing that is drawn at random
depends on those, so the same updates keep the forests alike in all else.
-/

namespace Woodland

namespace Shape

/-- Accepted shapes with the same number of passes and the same leaves. -/
structure Twins (s s' : Shape Float32) : Prop where
  iterations : s.iterations = s'.iterations
  leafDensity : s.leafDensity = s'.leafDensity
  valid : s.validate = .ok () ∧ s'.validate = .ok ()

namespace Twins

variable {s s' : Shape Float32}

lemma leavesPerCluster_eq (h : s.Twins s') : s.leavesPerCluster = s'.leavesPerCluster := by
  rw [leavesPerCluster, leavesPerCluster, h.leafDensity]

lemma grow_eq (h : s.Twins s') (site : Site) (species : Species) :
    Tree.grow site species s = Tree.grow site species s' := by
  rw [Tree.grow, Tree.grow, h.iterations, h.leavesPerCluster_eq]

lemma write (h : s.Twins s') (p : Parameter) (x : Float) :
    Agree (fun t t' => t.iterations = t'.iterations ∧ t.leafDensity = t'.leafDensity ∧ t.judge p = t'.judge p)
      (s.write p x) (s'.write p x) := by
  cases p with
  | iterations =>
    simp only [Shape.write]
    split
    · split_ifs
      · exact .ok ⟨rfl, h.leafDensity, rfl⟩
      · exact .error _
    · exact .error _
  | leafDensity => exact .ok ⟨h.iterations, rfl, rfl⟩
  | angle | length | trunkScale | taper | branchScale => exact .ok ⟨h.iterations, h.leafDensity, rfl⟩

lemma set (h : s.Twins s') (name : String) (x : Float) : Agree Twins (s.set name x) (s'.set name x) := by
  cases hp : Parameter.ofName? name with
  | none =>
    rw [set_unknown hp, set_unknown hp]
    exact .error _
  | some p =>
    rw [set_known hp, set_known hp]
    refine ((h.write p x).mapError Error.invalid).bind ?_
    rintro t t' ht ht' ⟨hi, hd, hj⟩
    have hv : t.validate = t'.validate := by
      rw [validate_write h.valid.1 (mapError_ok_iff.mp ht), validate_write h.valid.2 (mapError_ok_iff.mp ht'), hj]
    rw [← hv]
    cases hvt : t.validate with
    | error e => exact .error e
    | ok u => exact .ok ⟨hi, hd, hvt, hv ▸ hvt⟩

end Twins

end Shape

namespace Settings

structure Twins (s s' : Settings) : Prop where
  rest : s' = s.withShape s'.shape
  shape : s.shape.Twins s'.shape
  valid : s.validate = .ok () ∧ s'.validate = .ok ()

variable {s s' : Settings}

namespace Twins

lemma withSeed (h : s.Twins s') (seed : UInt64) : (s.withSeed seed).Twins (s'.withSeed seed) where
  rest := congrArg (Settings.withSeed · seed) h.rest
  shape := h.shape
  valid := h.valid

lemma withTargetCount (h : s.Twins s') {n : ℕ} (hn : ¬maxTargetCount < n) :
    (s.withTargetCount n).Twins (s'.withTargetCount n) where
  rest := congrArg (Settings.withTargetCount · n) h.rest
  shape := h.shape
  valid := by
    rw [validate_withTargetCount h.valid.1, validate_withTargetCount h.valid.2, if_neg hn]
    exact ⟨rfl, rfl⟩

lemma withShape (h : s.Twins s') {t t' : Shape Float32} (ht : t.Twins t') : (s.withShape t).Twins (s'.withShape t') where
  rest := by
    rw [h.rest]
    rfl
  shape := ht
  valid := ⟨validate_withShape h.valid.1 ht.valid.1, validate_withShape h.valid.2 ht.valid.2⟩

lemma plot_eq (h : s.Twins s') : Plot.ofSettings s = Plot.ofSettings s' := by
  rw [h.rest]
  rfl

lemma targetCount_eq (h : s.Twins s') : s.targetCount = s'.targetCount := by
  rw [h.rest]
  rfl

end Twins

end Settings

namespace Forest

inductive Update.Twins : Update → Update → Prop where
  | same (u : Update) : Twins u u
  | reshape {s s' : Shape Float32} (h : s.Twins s') : Twins (.reshape s) (.reshape s')

structure Twins (f f' : Forest) : Prop where
  settings : f.settings.Twins f'.settings
  generator : f.generator = f'.generator
  trees : f.trees = f'.trees

inductive Plan.Twins : Plan → Plan → Prop where
  | replant {s s' : Settings} (h : s.Twins s') (g : Generator) : Twins (.replant s g) (.replant s' g)
  | regrow {s s' : Shape Float32} (h : s.Twins s') : Twins (.regrow s) (.regrow s')

variable {f f' : Forest}

lemma agree_planted {s s' : Settings} (h : s.Twins s') (g : Generator) :
    Agree Twins (planted s g) (planted s' g) := by
  have hr (site : Site) : Tree.random site s.shape = Tree.random site s'.shape := by
    simp only [Tree.random, h.shape.grow_eq]
  rw [planted, planted, h.plot_eq, h.targetCount_eq]
  simp only [hr]
  cases ((Plot.ofSettings s').place s'.targetCount g).value with
  | error fault => exact .error fault
  | ok r => exact .ok ⟨h, rfl, rfl⟩

lemma Twins.reshaped (h : Twins f f') {s s' : Shape Float32} (hs : s.Twins s') :
    Twins (f.reshaped s) (f'.reshaped s') := by
  have hr (t : Tree) : t.regrow s = t.regrow s' := hs.grow_eq t.site t.species
  simp only [Forest.reshaped, hr, h.trees, h.generator]
  exact ⟨h.settings.withShape hs, rfl, rfl⟩

lemma agree_carryOut (h : Twins f f') {p p' : Plan} (hp : p.Twins p') :
    Agree Twins (p.carryOut f) (p'.carryOut f') := by
  cases hp with
  | replant hs g => exact agree_planted hs g
  | regrow hs => exact .ok (h.reshaped hs)

lemma agree_planReshape {s s' : Shape Float32} (h : s.Twins s') : Agree Plan.Twins (planReshape s) (planReshape s') := by
  rw [planReshape, planReshape, h.valid.1, h.valid.2]
  exact .ok (.regrow h)

lemma agree_planRetarget (h : Twins f f') (n : ℕ) : Agree Plan.Twins (f.planRetarget n) (f'.planRetarget n) := by
  rw [planRetarget, planRetarget, Settings.validate_withTargetCount h.settings.valid.1,
    Settings.validate_withTargetCount h.settings.valid.2, h.generator]
  split_ifs with hn
  · exact .error _
  · exact .ok (.replant (h.settings.withTargetCount hn) _)

lemma agree_planSet (h : Twins f f') (name : String) (x : Float) :
    Agree Plan.Twins (f.plan (.set name x)) (f'.plan (.set name x)) := by
  rw [plan, plan]
  by_cases hn : name = Settings.treesName
  · subst hn
    rw [Settings.set_trees, Settings.set_trees]
    cases Settings.treesOf x with
    | error e => exact .error e
    | ok n => exact agree_planRetarget h n
  · rw [Settings.set_proportion _ hn, Settings.set_proportion _ hn]
    simp only [if_neg hn]
    -- of the settings that come of it only the shapes are used
    have hs := (h.settings.shape.set name x).map (S := fun t t' : Settings => t.shape.Twins t'.shape)
      (k := f.settings.withShape) (l := f'.settings.withShape) fun _ _ ht => ht
    exact hs.bind fun _ _ _ _ ht => agree_planReshape ht

lemma agree_plan (h : Twins f f') {u u' : Update} (hu : u.Twins u') : Agree Plan.Twins (f.plan u) (f'.plan u') := by
  cases hu with
  | reshape hs => exact agree_planReshape hs
  | same u =>
    cases u with
    | regenerate =>
      rw [plan, plan, h.generator]
      exact .ok (.replant h.settings _)
    | reseed seed => exact .ok (.replant (h.settings.withSeed seed) _)
    | reshape s =>
      rw [plan, plan, planReshape]
      cases hv : s.validate with
      | error e => exact .error e
      | ok u => exact .ok (.regrow ⟨rfl, rfl, hv, hv⟩)
    | retarget n => exact agree_planRetarget h n
    | set name x => exact agree_planSet h name x

def Paired {α : Type} (a b : α × Forest) : Prop := a.1 = b.1 ∧ Twins a.2 b.2

lemma agree_perform (h : Twins f f') {u u' : Update} (hu : u.Twins u') :
    Agree Paired (f.perform u).value (f'.perform u').value := by
  rw [value_perform, value_perform]
  obtain ⟨e, hp, hp'⟩ | ⟨p, p', hp, hp', ht⟩ := (agree_plan h hu).error_or_ok
  · rw [hp, hp']
    exact .ok ⟨rfl, h⟩
  · rw [hp, hp']
    exact (agree_carryOut h ht).map fun _ _ hg => ⟨rfl, hg⟩

lemma agree_performAll (h : Twins f f') {us us' : List Update} (hu : List.Forall₂ Update.Twins us us') :
    Agree Paired (f.performAll us).value (f'.performAll us').value := by
  induction hu generalizing f f' with
  | nil => exact .ok ⟨rfl, h⟩
  | cons hu _ ih =>
    rw [performAll, performAll, Logged.value_bind, Logged.value_bind]
    obtain ⟨fault, hp, hp'⟩ | ⟨⟨r, g⟩, ⟨r', g'⟩, hp, hp', rfl, hg⟩ := (agree_perform h hu).error_or_ok
    · rw [hp, hp']
      exact .error fault
    · rw [hp, hp']
      exact (ih hg).map fun _ _ hr => ⟨congrArg (r :: ·) hr.1, hr.2⟩

lemma agree_generate {s s' : Settings} (h : s.Twins s') :
    Agree Twins (generate s).run.value (generate s').run.value := by
  have hs : s.seed = s'.seed := by
    rw [h.rest]
    rfl
  rw [value_generate, value_generate, h.valid.1, h.valid.2, hs]
  exact (agree_planted h _).mapError PlantingFault.range

structure SameDraws (f f' : Forest) : Prop where
  trees : f.trees = f'.trees
  generator : f.generator = f'.generator
  meshes : f.meshes = f'.meshes

lemma Twins.sameDraws (h : Twins f f') : f.SameDraws f' where
  trees := h.trees
  generator := h.generator
  meshes := by simp only [meshes_eq, h.trees, Tree.drawing, Drawing.mesh_instructions]

def seededSites (seed : UInt64) (target : ℕ) (halfSize margin separation : Float32) :
    Except RangeFault (List Site) :=
  ((Plot.ofGround halfSize margin separation).place target (.ofSeed seed)).value.map Prod.fst

lemma sites_mapM_random (s : Shape Float32) (sites : List Site) (g : Generator) :
    ((Growing.quiet (sites.mapM (Tree.random · s))).run g).1.map Tree.site = sites := by
  rw [Growing.quiet_mapM, Draw.map_mapM (fun site => Tree.site_random site s) sites g, List.map_id']

lemma sites_planted (s : Settings) (seed : UInt64) :
    (planted s (.ofSeed seed)).map (fun f => f.trees.map Tree.site) =
      seededSites seed s.targetCount s.groundHalfSize s.edgeMargin s.minSeparation := by
  rw [planted, seededSites, Plot.ofSettings]
  cases ((Plot.ofGround s.groundHalfSize s.edgeMargin s.minSeparation).place s.targetCount (.ofSeed seed)).value with
  | error fault => rfl
  | ok r => exact congrArg Except.ok (sites_mapM_random s.shape r.1 r.2)

lemma sites_generate {s : Settings} (h : s.validate = .ok ()) :
    (generate s).run.value.map (fun f => f.trees.map Tree.site) =
      (seededSites s.seed s.targetCount s.groundHalfSize s.edgeMargin s.minSeparation).mapError .range := by
  rw [value_generate, h, ← sites_planted]
  cases planted s (.ofSeed s.seed) <;> rfl

lemma sites_reseed (f : Forest) (seed : UInt64) :
    (f.perform (.reseed seed)).value.map (fun r => r.2.trees.map Tree.site) =
      seededSites seed f.settings.targetCount f.settings.groundHalfSize f.settings.edgeMargin
        f.settings.minSeparation := by
  rw [value_perform, plan, decided, Plan.carryOut]
  refine Eq.trans ?_ (sites_planted (f.settings.withSeed seed) seed)
  cases planted (f.settings.withSeed seed) (.ofSeed seed) <;> rfl

theorem draws_apart_from_shapes (s s' : Settings) (f : Forest) (us us' : List Update) (h : s.Twins s')
    (hf : (generate s).run.value = .ok f) (hu : List.Forall₂ Update.Twins us us') :
    (∃ f', (generate s').run.value = .ok f' ∧ f.SameDraws f' ∧
      ∀ k rs g, (f.performAll (us.take k)).value = .ok (rs, g) →
        ∃ g', (f'.performAll (us'.take k)).value = .ok (rs, g') ∧ g.SameDraws g') ∧
    (∀ t : Settings, t.validate = .ok () → (generate t).run.value.map (fun f => f.trees.map Tree.site) =
      (seededSites t.seed t.targetCount t.groundHalfSize t.edgeMargin t.minSeparation).mapError .range) ∧
    ∀ (g : Forest) (seed : UInt64), (g.perform (.reseed seed)).value.map (fun r => r.2.trees.map Tree.site) =
      seededSites seed g.settings.targetCount g.settings.groundHalfSize g.settings.edgeMargin
        g.settings.minSeparation := by
  refine ⟨?_, fun t => sites_generate, sites_reseed⟩
  obtain ⟨f', hf', ht⟩ := (agree_generate h).exists_ok hf
  refine ⟨f', hf', ht.sameDraws, ?_⟩
  intro k rs g hg
  obtain ⟨⟨_, g'⟩, hg', rfl, hgt⟩ := (agree_performAll ht (List.forall₂_take k hu)).exists_ok hg
  exact ⟨g', hg', hgt.sameDraws⟩

theorem draws_apart_from_shapes_tall :
    ∃ f f' rs g g',
      (generate default).run.value = .ok f ∧
      (generate ((default : Settings).withShape { (default : Shape Float32) with length := 2.0 })).run.value = .ok f' ∧
      (f.performAll [.reshape default, .reseed 7, .set "taper" 0.5, .retarget 301]).value = .ok (rs, g) ∧
      (f'.performAll [.reshape { (default : Shape Float32) with angle := 40.0 }, .reseed 7, .set "taper" 0.5,
        .retarget 301]).value = .ok (rs, g') ∧
      g.SameDraws g' := by
  have hl : (default : Settings).Twins
      ((default : Settings).withShape { (default : Shape Float32) with length := 2.0 }) :=
    ⟨rfl, ⟨rfl, rfl, rfl, rfl⟩, rfl, rfl⟩
  have ha : (default : Shape Float32).Twins { (default : Shape Float32) with angle := 40.0 } := ⟨rfl, rfl, rfl, rfl⟩
  have hu : List.Forall₂ Update.Twins [.reshape default, .reseed 7, .set "taper" 0.5, .retarget 301]
      [.reshape { (default : Shape Float32) with angle := 40.0 }, .reseed 7, .set "taper" 0.5, .retarget 301] :=
    .cons (.reshape ha) (.cons (.same _) (.cons (.same _) (.cons (.same _) .nil)))
  obtain ⟨f, hf, hs⟩ := exists_generate (s := default) rfl (by decide +kernel)
  obtain ⟨rs, g, hg⟩ := exists_performAll (f := f) (by rw [hs]; decide +kernel)
    [.reshape default, .reseed 7, .set "taper" 0.5, .retarget 301]
  obtain ⟨⟨f', hf', -, hsteps⟩, -, -⟩ := draws_apart_from_shapes default _ f _ _ hl hf hu
  obtain ⟨g', hg', hd⟩ := hsteps 4 rs g hg
  exact ⟨f, f', rs, g, g', hf, hf', hg, hg', hd⟩

end Forest

end Woodland
