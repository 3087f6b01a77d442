import Mathlib.Tactic
import Woodland.Forest.Update
import Woodland.Proofs.Random.Draws
import Woodland.Proofs.Results

/-!
What an update comes to. Every update decides from the forest as it was whether it is refused, and what is
planted or grown otherwise; nothing is written before it has decided.
-/

namespace Woodland

namespace Change

variable {α β : Type}

def outcome (c : Change α) (f : Forest) : Except PlantingFault α × Forest :=
  (StateT.run (ExceptT.run c) f).value

lemma outcome_bind (c : Change α) (k : α → Change β) (f : Forest) :
    outcome (c >>= k) f =
      match outcome c f with
      | (.ok a, f') => outcome (k a) f'
      | (.error e, f') => (.error e, f') := by
  have hb : outcome (c >>= k) f =
    (StateT.run (ExceptT.bindCont k (outcome c f).1) (outcome c f).2).value := rfl
  rw [hb]
  rcases outcome c f with ⟨r, f'⟩
  cases r <;> rfl

@[simp] lemma outcome_get (f : Forest) : outcome get f = (.ok f, f) := rfl

@[simp] lemma outcome_modify (h : Forest → Forest) (f : Forest) : outcome (modify h) f = (.ok (), h f) := rfl

@[simp] lemma outcome_logged (x : Logged α) (f : Forest) : outcome (x : Change α) f = (.ok x.value, f) := rfl

@[simp] lemma outcome_ofExcept (x : Except Error α) (f : Forest) :
    outcome (ofExcept x) f = (x.mapError .refused, f) := by
  cases x <;> rfl

lemma outcome_sites (f : Forest) :
    outcome sites f =
      match ((Plot.ofSettings f.settings).place f.settings.targetCount f.generator).value with
      | .error fault => (.error (.range fault), f)
      | .ok (sites, g) => (.ok sites, { f with generator := g }) := by
  simp only [sites, outcome_bind, outcome_get, outcome_logged]
  cases ((Plot.ofSettings f.settings).place f.settings.targetCount f.generator).value with
  | error fault => rfl
  | ok r => rfl

end Change
namespace Forest

def planted (s : Settings) (g : Generator) : Except RangeFault Forest :=
  ((Plot.ofSettings s).place s.targetCount g).value.map fun (sites, g) =>
    let grown := (Growing.quiet (sites.mapM (Tree.random · s.shape))).run g
    ⟨s, grown.2, grown.1⟩

lemma settings_planted {s : Settings} {g : Generator} {f : Forest} (h : planted s g = .ok f) : f.settings = s := by
  obtain ⟨r, -, rfl⟩ := map_ok_iff.mp h
  rfl

def reshaped (f : Forest) (shape : Shape Float32) : Forest :=
  let grown := (Growing.quiet (f.trees.mapM (Tree.regrow · shape))).run f.generator
  ⟨f.settings.withShape shape, grown.2, grown.1⟩

lemma outcome_regenerate (f : Forest) :
    Change.outcome regenerate f =
      match planted f.settings f.generator with
      | .ok f' => (.ok (), f')
      | .error fault => (.error (.range fault), f) := by
  simp only [regenerate, planted, Change.outcome_bind, Change.outcome_sites]
  cases h : ((Plot.ofSettings f.settings).place f.settings.targetCount f.generator).value with
  | error fault => rfl
  | ok r => rfl

lemma value_generate (s : Settings) :
    (generate s).run.value =
      match s.validate with
      | .ok () => (planted s (.ofSeed s.seed)).mapError .range
      | .error e => .error (.refused e) := by
  rw [generate]
  cases s.validate with
  | error e => rfl
  | ok u =>
    let f : Forest := ⟨s, .ofSeed s.seed, []⟩
    change ((Change.outcome regenerate f).1.map fun () => (Change.outcome regenerate f).2) = _
    rw [outcome_regenerate]
    cases planted s (.ofSeed s.seed) <;> rfl

lemma generate_ok_iff {s : Settings} {f : Forest} :
    (generate s).run.value = .ok f ↔ s.validate = .ok () ∧ planted s (.ofSeed s.seed) = .ok f := by
  rw [value_generate]
  cases s.validate with
  | error e => exact iff_of_false (by rintro ⟨⟩) (by rintro ⟨⟨⟩, -⟩)
  | ok u => exact mapError_ok_iff.trans (and_iff_right rfl).symm

lemma outcome_reseed (f : Forest) (seed : UInt64) :
    Change.outcome (reseed seed) f =
      Change.outcome regenerate { f with settings := f.settings.withSeed seed, generator := .ofSeed seed } := by
  simp only [reseed, Change.outcome_bind, Change.outcome_modify]

lemma outcome_reshape (f : Forest) (shape : Shape Float32) :
    Change.outcome (reshape shape) f =
      match shape.validate with
      | .ok () => (.ok (), f.reshaped shape)
      | .error e => (.error (.refused e), f) := by
  simp only [reshape, Change.outcome_bind, Change.outcome_ofExcept]
  cases shape.validate with
  | error e => rfl
  | ok u => rfl

lemma outcome_retarget (f : Forest) (n : ℕ) :
    Change.outcome (retarget n) f =
      match (f.settings.withTargetCount n).validate with
      | .ok () => Change.outcome regenerate { f with settings := f.settings.withTargetCount n }
      | .error e => (.error (.refused e), f) := by
  simp only [retarget, Change.outcome_bind, Change.outcome_get, Change.outcome_ofExcept]
  cases (f.settings.withTargetCount n).validate with
  | error e => rfl
  | ok u => simp [Except.mapError]

lemma outcome_set (f : Forest) (name : String) (x : Float) :
    Change.outcome (set name x) f =
      match f.settings.set name x with
      | .ok s =>
        if name = Settings.treesName then Change.outcome (retarget s.targetCount) f
        else Change.outcome (reshape s.shape) f
      | .error e => (.error (.refused e), f) := by
  simp only [set, Change.outcome_bind, Change.outcome_get, Change.outcome_ofExcept]
  cases f.settings.set name x with
  | error e => rfl
  | ok s => simp only [Except.mapError, apply_ite (Change.outcome · f)]

inductive Plan where
  | replant (s : Settings) (g : Generator)
  | regrow (shape : Shape Float32)

def Plan.carryOut (f : Forest) : Plan → Except RangeFault Forest
  | replant s g => planted s g
  | regrow shape => .ok (f.reshaped shape)

def planReshape (shape : Shape Float32) : Except Error Plan :=
  shape.validate.map fun () => .regrow shape

def planRetarget (f : Forest) (n : ℕ) : Except Error Plan :=
  (f.settings.withTargetCount n).validate.map fun () => .replant (f.settings.withTargetCount n) f.generator

def plan (f : Forest) : Update → Except Error Plan
  | .regenerate => .ok (.replant f.settings f.generator)
  | .reseed seed => .ok (.replant (f.settings.withSeed seed) (.ofSeed seed))
  | .reshape shape => planReshape shape
  | .retarget n => f.planRetarget n
  | .set name x =>
    (f.settings.set name x).bind fun s =>
      if name = Settings.treesName then f.planRetarget s.targetCount else planReshape s.shape

inductive Admits (f : Forest) : Plan → Prop where
  | anew (g : Generator) : f.Admits (.replant f.settings g)
  | seeded (seed : UInt64) (g : Generator) : f.Admits (.replant (f.settings.withSeed seed) g)
  | targeted {n : ℕ} (h : (f.settings.withTargetCount n).validate = .ok ()) (g : Generator) :
      f.Admits (.replant (f.settings.withTargetCount n) g)
  | shaped {shape : Shape Float32} (h : shape.validate = .ok ()) : f.Admits (.regrow shape)

lemma admits_planReshape {f : Forest} {shape : Shape Float32} {p : Plan} (h : planReshape shape = .ok p) :
    f.Admits p := by
  obtain ⟨_, hs, rfl⟩ := map_ok_iff.mp h
  exact .shaped hs

lemma admits_planRetarget {f : Forest} {n : ℕ} {p : Plan} (h : f.planRetarget n = .ok p) : f.Admits p := by
  obtain ⟨_, hs, rfl⟩ := map_ok_iff.mp h
  exact .targeted hs f.generator

lemma admits_plan {f : Forest} {u : Update} {p : Plan} (h : f.plan u = .ok p) : f.Admits p := by
  cases u with
  | regenerate =>
    obtain rfl := Except.ok.inj h
    exact .anew f.generator
  | reseed seed =>
    obtain rfl := Except.ok.inj h
    exact .seeded seed (.ofSeed seed)
  | reshape shape => exact admits_planReshape h
  | retarget n => exact admits_planRetarget h
  | set name x =>
    obtain ⟨s, -, h⟩ := bind_ok_iff.mp h
    split_ifs at h
    · exact admits_planRetarget h
    · exact admits_planReshape h

def decided (f : Forest) : Except Error Plan → Except RangeFault (Except Error Unit × Forest)
  | .ok p => (p.carryOut f).map fun f' => (.ok (), f')
  | .error e => .ok (.error e, f)

lemma settle_regenerate (f : Forest) :
    settle (Change.outcome regenerate f) = f.decided (.ok (.replant f.settings f.generator)) := by
  rw [outcome_regenerate, decided, Plan.carryOut]
  cases planted f.settings f.generator <;> rfl

lemma settle_reshape (f : Forest) (shape : Shape Float32) :
    settle (Change.outcome (reshape shape) f) = f.decided (planReshape shape) := by
  rw [outcome_reshape, planReshape]
  cases shape.validate <;> rfl

lemma settle_retarget (f : Forest) (n : ℕ) :
    settle (Change.outcome (retarget n) f) = f.decided (f.planRetarget n) := by
  rw [outcome_retarget, planRetarget]
  cases (f.settings.withTargetCount n).validate with
  | error e => rfl
  | ok u => exact settle_regenerate { f with settings := f.settings.withTargetCount n }

/-- An update is decided before it changes anything, and a refused one leaves the forest as it was. -/
lemma value_perform (f : Forest) (u : Update) : (f.perform u).value = f.decided (f.plan u) := by
  change settle (u.change.outcome f) = f.decided (f.plan u)
  cases u with
  | regenerate => exact settle_regenerate f
  | reseed seed =>
    rw [Update.change, outcome_reseed, settle_regenerate]
    rfl
  | reshape shape => exact settle_reshape f shape
  | retarget n => exact settle_retarget f n
  | set name x =>
    rw [Update.change, outcome_set, plan]
    cases f.settings.set name x with
    | error e => rfl
    | ok s =>
      by_cases hn : name = Settings.treesName
      · simpa only [hn, if_true, Except.bind] using settle_retarget f s.targetCount
      · simpa only [hn, if_false, Except.bind] using settle_reshape f s.shape

lemma perform_cases {f f' : Forest} {u : Update} {r : Except Error Unit} (h : (f.perform u).value = .ok (r, f')) :
    (∃ e, r = .error e ∧ f' = f) ∨ r = .ok () ∧ ∃ p, f.plan u = .ok p ∧ p.carryOut f = .ok f' := by
  rw [value_perform] at h
  cases hp : f.plan u with
  | error e =>
    rw [hp] at h
    obtain ⟨rfl, rfl⟩ := Prod.mk.inj (Except.ok.inj h)
    exact Or.inl ⟨e, rfl, rfl⟩
  | ok p =>
    rw [hp] at h
    obtain ⟨f₁, hc, he⟩ := map_ok_iff.mp h
    obtain ⟨rfl, rfl⟩ := Prod.mk.inj he
    exact Or.inr ⟨rfl, p, rfl, hc⟩

lemma performAll_cons {f f' : Forest} {u : Update} {us : List Update} {rs : List (Except Error Unit)} :
    (f.performAll (u :: us)).value = .ok (rs, f') ↔
      ∃ r f₁ rs', (f.perform u).value = .ok (r, f₁) ∧ (f₁.performAll us).value = .ok (rs', f') ∧ rs = r :: rs' := by
  rw [performAll, Logged.value_bind]
  rcases (f.perform u).value with fault | ⟨r, f₁⟩
  · simp
  · simp only [Except.ok.injEq, Prod.mk.injEq]
    rcases h : (f₁.performAll us).value with fault | ⟨rs', f₂⟩
    · simp [h, Except.map]
    · simp [h, Except.map, eq_comm, and_comm]

end Forest

end Woodland
