import Mathlib
import Woodland.Proofs.CommandLine.ParameterOrder
import Woodland.Proofs.Numbers.Quotients

/-!
Values that are set by their names. Which numbers a name takes and what becomes of them is told for each name on its
own, so that it does not depend on the settings that it is set in.
-/

namespace Woodland

namespace Binary.Value

def toRat? : Value → Option ℚ
  | .finite negative m e => some ((if negative then -1 else 1) * m * 2 ^ e)
  | _ => none

lemma toRat?_finite (negative : Bool) (m : ℕ) (e : ℤ) {x : ℚ} :
    (finite negative m e).toRat? = some x ↔ (if negative then -1 else 1) * m * 2 ^ e = x := Option.some_inj

lemma natural?_finite (negative : Bool) (m : ℕ) (e : ℤ) {n : ℕ} :
    (finite negative m e).natural? = some n ↔ (m * 2 ^ e : ℚ) = n ∧ (negative = false ∨ m = 0) := by
  obtain ⟨a, d, hl⟩ : ∃ a d, lower m 1 (-e) = (a, d) := ⟨_, _, rfl⟩
  have hd : 0 < d := by simpa [hl] using lower_pos (n := m) one_pos (-e)
  have hq : (d : ℚ) ≠ 0 := by exact_mod_cast hd.ne'
  have hu : (2 : ℚ) ^ e ≠ 0 := by positivity
  have hr : (a : ℚ) / d = m * 2 ^ e := by simpa [hl] using ratio_lower m 1 (-e)
  have hn : a % d = 0 ∧ a / d = n ↔ (m * 2 ^ e : ℚ) = n := by
    rw [← hr, div_eq_iff hq, ← Nat.cast_mul, Nat.cast_inj]
    constructor
    · rintro ⟨h₀, rfl⟩
      exact (Nat.div_mul_cancel (Nat.dvd_of_mod_eq_zero h₀)).symm
    · rintro rfl
      exact ⟨Nat.mul_mod_left n d, Nat.mul_div_cancel n hd⟩
  have hz : a = 0 ↔ m = 0 := by
    have h : (a : ℚ) / d = 0 ↔ (m * 2 ^ e : ℚ) = 0 := by rw [hr]
    simpa [hq, hu] using h
  simp only [natural?, hl]
  rw [← hn, ← hz]
  split_ifs with h
  · simp [h]
  · simp only [false_iff]
    exact fun hc => h ⟨hc.1.1, hc.2⟩

lemma natural?_eq_some_iff {v : Value} {n : ℕ} : v.natural? = some n ↔ v.toRat? = some (n : ℚ) := by
  cases v with
  | nan | infinite negative => simp [natural?, toRat?]
  | finite negative m e =>
    rw [natural?_finite, toRat?_finite]
    cases negative with
    | false => simp
    | true =>
      have hu : (2 : ℚ) ^ e ≠ 0 := by positivity
      have hm : (0 : ℚ) ≤ m * 2 ^ e := by positivity
      have hn : (0 : ℚ) ≤ n := by positivity
      simp only [reduceCtorEq, false_or, if_true, neg_mul, one_mul]
      constructor
      · rintro ⟨h, rfl⟩
        simpa using h
      · intro h
        have h₀ : (m * 2 ^ e : ℚ) = 0 := by linarith
        exact ⟨by linarith, by simpa [hu] using h₀⟩

end Binary.Value

namespace Single

open Float.Model (UnpackedFloat)

lemma not_lt_zero_iff {x : Float32} (h : x.isFinite = true) : ¬x < 0 ↔ 0 ≤ x := by
  rw [lt_iff, le_iff, unpacked_zero]
  change (unpacked x).isFinite = true at h
  cases hx : unpacked x with
  | notANumber | infinity s => simp [hx, UnpackedFloat.isFinite] at h
  | zero s => simp [UnpackedFloat.lt, UnpackedFloat.le, UnpackedFloat.compare]
  | finite s m e hm => cases s <;> simp [UnpackedFloat.lt, UnpackedFloat.le, UnpackedFloat.compare]

end Single

namespace Shape

def InRange (s : Shape Float32) : Parameter → Prop
  | .iterations => s.iterations ≤ maxIterations
  | .angle => s.angle.isFinite = true
  | .length => s.length.isFinite = true ∧ 0 < s.length
  | .trunkScale => s.trunkScale.isFinite = true ∧ 0 < s.trunkScale
  | .taper => s.taper.isFinite = true ∧ 0 ≤ s.taper
  | .branchScale => s.branchScale.isFinite = true ∧ 0 < s.branchScale
  | .leafDensity => 0 ≤ s.leafDensity ∧ s.leafDensity ≤ 1

variable {s s' t : Shape Float32} {p : Parameter} {x : Float} {name : String}

lemma checkPositive_ok_iff {y : Float32} : checkPositive p y = .ok () ↔ y.isFinite = true ∧ 0 < y := by
  unfold checkPositive
  split_ifs with h
  · exact iff_of_true rfl h
  · exact iff_of_false nofun h

lemma judge_ok_iff : s.judge p = .ok () ↔ s.InRange p := by
  cases p with
  | iterations =>
    simp only [judge, InRange]
    split_ifs with h
    · exact iff_of_false (by rintro ⟨⟩) (Nat.not_le.mpr h)
    · exact iff_of_true rfl (Nat.not_lt.mp h)
  | angle =>
    change (if (!s.angle.isFinite) = true then Except.error Violation.angleNotFinite else .ok ()) = .ok () ↔
      s.angle.isFinite = true
    cases s.angle.isFinite <;> simp
  | length | trunkScale | branchScale => exact checkPositive_ok_iff
  | taper =>
    simp only [judge, InRange]
    split_ifs with h
    · refine iff_of_false (by rintro ⟨⟩) ?_
      rintro ⟨hf, hn⟩
      rcases h with h | h
      · have hs : (!s.taper.isFinite) = true := h
        rw [hf] at hs
        cases hs
      · exact (Single.not_lt_zero_iff hf).mpr hn h
    · obtain ⟨hi, hn⟩ := not_or.mp h
      have hs : ¬(!s.taper.isFinite) = true := hi
      have hf : s.taper.isFinite = true := by simpa using hs
      exact iff_of_true rfl ⟨hf, (Single.not_lt_zero_iff hf).mp hn⟩
  | leafDensity =>
    simp only [judge, InRange]
    split_ifs with h
    · exact iff_of_true rfl h
    · exact iff_of_false (by rintro ⟨⟩) h

lemma Parameter.ofName?_name (p : Parameter) : ofName? p.name = some p := by cases p <;> rfl

lemma set_name_ok_iff (hs : s.validate = .ok ()) :
    s.set p.name x = .ok t ↔ s.write p x = .ok t ∧ t.InRange p := by
  simp only [set_ok_iff, p.ofName?_name, Option.some.injEq, exists_eq_left']
  refine and_congr_right fun hw => ?_
  rw [validate_write_ok_iff hs hw, judge_ok_iff]

lemma agree_write (s s' : Shape Float32) (p : Parameter) (x : Float) :
    Agree (fun t t' => t.judge p = t'.judge p) (s.write p x) (s'.write p x) := by
  cases p with
  | iterations =>
    simp only [write]
    split
    · split_ifs
      · exact .ok rfl
      · exact .error _
    · exact .error _
  | angle | length | trunkScale | taper | branchScale | leafDensity => exact .ok rfl

lemma agree_set (hs : s.validate = .ok ()) (hs' : s'.validate = .ok ()) (name : String) (x : Float) :
    Agree (fun _ _ => True) (s.set name x) (s'.set name x) := by
  cases hp : Parameter.ofName? name with
  | none =>
    rw [set_unknown hp, set_unknown hp]
    exact .error _
  | some p =>
    rw [set_known hp, set_known hp]
    refine ((agree_write s s' p x).mapError Error.invalid).bind fun t t' ht ht' hj => ?_
    rw [validate_write hs (mapError_ok_iff.mp ht), validate_write hs' (mapError_ok_iff.mp ht'), hj]
    cases t'.judge p with
    | error v => exact .error _
    | ok u => exact .ok trivial

end Shape

namespace Settings

def names : List String :=
  ["num_trees", "iterations", "angle", "length", "trunk_scale", "taper", "branch_scale", "leaf_density"]

/-- What a name makes of a number that it takes, one value of the settings being changed. -/
inductive Takes (x : Float) : String → (Settings → Settings) → Prop where
  | trees {n : ℕ} (h : (Binary.ofDouble x).toRat? = some (n : ℚ)) (hn : n ≤ 300) :
      Takes x "num_trees" fun s => { s with targetCount := n }
  | iterations {n : ℕ} (h : (Binary.ofDouble x).toRat? = some (n : ℚ)) (hn : n ≤ 6) :
      Takes x "iterations" fun s => { s with shape.iterations := n }
  | angle (h : (Binary.narrow x).isFinite = true) :
      Takes x "angle" fun s => { s with shape.angle := Binary.narrow x }
  | length (h : (Binary.narrow x).isFinite = true) (hp : 0 < Binary.narrow x) :
      Takes x "length" fun s => { s with shape.length := Binary.narrow x }
  | trunkScale (h : (Binary.narrow x).isFinite = true) (hp : 0 < Binary.narrow x) :
      Takes x "trunk_scale" fun s => { s with shape.trunkScale := Binary.narrow x }
  | taper (h : (Binary.narrow x).isFinite = true) (hp : 0 ≤ Binary.narrow x) :
      Takes x "taper" fun s => { s with shape.taper := Binary.narrow x }
  | branchScale (h : (Binary.narrow x).isFinite = true) (hp : 0 < Binary.narrow x) :
      Takes x "branch_scale" fun s => { s with shape.branchScale := Binary.narrow x }
  | leafDensity (h : 0 ≤ Binary.narrow x) (h' : Binary.narrow x ≤ 1) :
      Takes x "leaf_density" fun s => { s with shape.leafDensity := Binary.narrow x }

variable {s s' t : Settings} {p : Shape.Parameter} {x y : Float} {name name' : String}

lemma treesOf_ok_iff {n : ℕ} :
    treesOf x = .ok n ↔ (Binary.ofDouble x).toRat? = some (n : ℚ) ∧ n ≤ maxTargetCount := by
  rw [← Binary.Value.natural?_eq_some_iff, treesOf]
  cases (Binary.ofDouble x).natural? with
  | none => simp
  | some k =>
    simp only [Option.some.injEq]
    split_ifs with hk
    · rw [Except.ok.injEq]
      exact ⟨fun h => ⟨h, h ▸ hk⟩, And.left⟩
    · exact iff_of_false nofun fun h => hk (h.1 ▸ h.2)

lemma treesName_ne (p : Shape.Parameter) : p.name ≠ treesName := by cases p <;> decide

lemma set_proportion_name_ok_iff (hs : s.validate = .ok ()) : s.set p.name x = .ok t ↔
    ∃ shape, s.shape.write p x = .ok shape ∧ shape.InRange p ∧ s.withShape shape = t := by
  simp only [set_proportion_ok_iff (treesName_ne p), Shape.set_name_ok_iff (validate_shape_of_valid hs), and_assoc]

lemma takes_of_write {shape : Shape Float32} (hw : s.shape.write p x = .ok shape) (hr : shape.InRange p) :
    ∃ change, Takes x p.name change ∧ change s = s.withShape shape := by
  cases p with
  | iterations =>
    obtain ⟨n, hx, -, rfl⟩ := Shape.write_iterations_ok_iff.mp hw
    exact ⟨_, .iterations (Binary.Value.natural?_eq_some_iff.mp hx) hr, rfl⟩
  | angle =>
    obtain rfl := Except.ok.inj hw
    exact ⟨_, .angle hr, rfl⟩
  | length =>
    obtain rfl := Except.ok.inj hw
    exact ⟨_, .length hr.1 hr.2, rfl⟩
  | trunkScale =>
    obtain rfl := Except.ok.inj hw
    exact ⟨_, .trunkScale hr.1 hr.2, rfl⟩
  | taper =>
    obtain rfl := Except.ok.inj hw
    exact ⟨_, .taper hr.1 hr.2, rfl⟩
  | branchScale =>
    obtain rfl := Except.ok.inj hw
    exact ⟨_, .branchScale hr.1 hr.2, rfl⟩
  | leafDensity =>
    obtain rfl := Except.ok.inj hw
    exact ⟨_, .leafDensity hr.1 hr.2, rfl⟩

lemma takes_of_set (hs : s.validate = .ok ()) (h : s.set name x = .ok t) :
    ∃ change, Takes x name change ∧ change s = t := by
  by_cases hn : name = treesName
  · subst hn
    obtain ⟨n, hn, rfl⟩ := set_trees_ok_iff.mp h
    obtain ⟨hx, hle⟩ := treesOf_ok_iff.mp hn
    exact ⟨_, .trees hx hle, rfl⟩
  · obtain ⟨shape, hset, -⟩ := (set_proportion_ok_iff hn).mp h
    obtain ⟨p, hp, -, -⟩ := Shape.set_ok_iff.mp hset
    obtain rfl := Shape.Parameter.name_eq_of_ofName? hp
    obtain ⟨shape, hw, hr, rfl⟩ := (set_proportion_name_ok_iff hs).mp h
    exact takes_of_write hw hr

lemma set_of_takes (hs : s.validate = .ok ()) {change : Settings → Settings} (h : Takes x name change) :
    s.set name x = .ok (change s) := by
  cases h with
  | trees hx hn => exact set_trees_ok_iff.mpr ⟨_, treesOf_ok_iff.mpr ⟨hx, hn⟩, rfl⟩
  | @iterations n hx hn =>
    have hw : s.shape.write .iterations x = .ok { s.shape with iterations := n } :=
      Shape.write_iterations_ok_iff.mpr
        ⟨n, Binary.Value.natural?_eq_some_iff.mpr hx, hn.trans_lt (by decide), rfl⟩
    exact (set_proportion_name_ok_iff (p := .iterations) hs).mpr ⟨_, hw, hn, rfl⟩
  | angle hf => exact (set_proportion_name_ok_iff (p := .angle) hs).mpr ⟨_, rfl, hf, rfl⟩
  | length hf hp => exact (set_proportion_name_ok_iff (p := .length) hs).mpr ⟨_, rfl, ⟨hf, hp⟩, rfl⟩
  | trunkScale hf hp => exact (set_proportion_name_ok_iff (p := .trunkScale) hs).mpr ⟨_, rfl, ⟨hf, hp⟩, rfl⟩
  | taper hf hp => exact (set_proportion_name_ok_iff (p := .taper) hs).mpr ⟨_, rfl, ⟨hf, hp⟩, rfl⟩
  | branchScale hf hp => exact (set_proportion_name_ok_iff (p := .branchScale) hs).mpr ⟨_, rfl, ⟨hf, hp⟩, rfl⟩
  | leafDensity h₀ h₁ => exact (set_proportion_name_ok_iff (p := .leafDensity) hs).mpr ⟨_, rfl, ⟨h₀, h₁⟩, rfl⟩

lemma validate_of_set (hs : s.validate = .ok ()) (h : s.set name x = .ok t) : t.validate = .ok () := by
  by_cases hn : name = treesName
  · subst hn
    obtain ⟨n, hn, rfl⟩ := set_trees_ok_iff.mp h
    rw [validate_withTargetCount hs, if_neg (Nat.not_lt.mpr (treesOf_ok_iff.mp hn).2)]
  · obtain ⟨shape, hset, rfl⟩ := (set_proportion_ok_iff hn).mp h
    obtain ⟨-, -, -, hv⟩ := Shape.set_ok_iff.mp hset
    exact validate_withShape hs hv

lemma agree_set (hs : s.validate = .ok ()) (hs' : s'.validate = .ok ()) (name : String) (x : Float) :
    Agree (fun _ _ => True) (s.set name x) (s'.set name x) := by
  by_cases hn : name = treesName
  · subst hn
    rw [set_trees, set_trees]
    cases treesOf x with
    | error e => exact .error e
    | ok n => exact .ok trivial
  · rw [set_proportion s hn, set_proportion s' hn]
    have hv := validate_shape_of_valid hs
    have hv' := validate_shape_of_valid hs'
    exact (Shape.agree_set hv hv' name x).map fun _ _ h => h

lemma assign_eq_set (s : Settings) (name : String) (x : Float) :
    s.assign name x =
      match s.set name x with
      | .ok t => (.ok (), t)
      | .error e => (.error e, s) := by
  rw [assign, (careful_edit name x).run_eq, set]
  cases (edit name x).onCopy s <;> rfl

lemma assign_of_ok (h : s.set name x = .ok t) : s.assign name x = (.ok (), t) := by rw [assign_eq_set, h]

lemma assign_of_error {e : Error} (h : s.set name x = .error e) : s.assign name x = (.error e, s) := by
  rw [assign_eq_set, h]

lemma assign_fst_eq (hs : s.validate = .ok ()) (hs' : s'.validate = .ok ()) (name : String) (x : Float) :
    (s.assign name x).1 = (s'.assign name x).1 := by
  rcases (agree_set hs hs' name x).error_or_ok with ⟨e, h, h'⟩ | ⟨t, t', h, h', -⟩
  · rw [assign_of_error h, assign_of_error h']
  · rw [assign_of_ok h, assign_of_ok h']

lemma assign_swap (hs : s.validate = .ok ()) (hn : name ≠ name') (x y : Float) :
    ((s.assign name x).2.assign name' y).2 = ((s.assign name' y).2.assign name x).2 := by
  cases hx : s.set name x with
  | error e =>
    rw [assign_of_error hx]
    cases hy : s.set name' y with
    | error e' => rw [assign_of_error hy, assign_of_error hx]
    | ok q =>
      -- the other name does not help a number that is not taken
      obtain ⟨e', h, h'⟩ | ⟨t, _, h, -⟩ := (agree_set hs (validate_of_set hs hy) name x).error_or_ok
      · rw [assign_of_ok hy, assign_of_error h']
      · rw [hx] at h
        cases h
  | ok r =>
    rw [assign_of_ok hx]
    cases hy : s.set name' y with
    | error e' =>
      obtain ⟨e, h, h'⟩ | ⟨t, _, h, -⟩ := (agree_set hs (validate_of_set hs hx) name' y).error_or_ok
      · rw [assign_of_error hy, assign_of_ok hx, assign_of_error h']
      · rw [hy] at h
        cases h
    | ok q =>
      obtain ⟨t, ht, -⟩ := (agree_set hs (validate_of_set hs hx) name' y).exists_ok hy
      obtain ⟨q', hq, hq'⟩ := set_swap (validate_shape_of_valid hs) hn hx ht
      obtain rfl := Except.ok.inj (hy.symm.trans hq)
      rw [assign_of_ok hy, assign_of_ok ht, assign_of_ok hq']

lemma set_unknown (h : name ∉ names) : s.set name x = .error (.unknownParameter name) := by
  have hn : name ≠ treesName := fun hc => h (hc ▸ by decide)
  have hp : Shape.Parameter.ofName? name = none := by
    apply List.find?_eq_none.mpr
    intro p _ hp
    rw [← beq_iff_eq.mp hp] at h
    exact h (by cases p <;> decide)
  rw [set_proportion s hn, Shape.set_unknown hp]
  rfl

theorem assign_eq (s : Settings) (hs : s.validate = .ok ()) (name : String) (x : Float) :
    (∀ t, s.assign name x = (.ok (), t) ↔ ∃ change, Takes x name change ∧ change s = t) ∧
    ((¬∃ change, Takes x name change) → ∃ e, s.assign name x = (.error e, s)) ∧
    (s.assign name x).2.validate = .ok () ∧
    (∀ s' : Settings, s'.validate = .ok () → (s'.assign name x).1 = (s.assign name x).1) ∧
    (∀ name' y, name ≠ name' →
      ((s.assign name x).2.assign name' y).2 = ((s.assign name' y).2.assign name x).2) ∧
    (name ∉ names → s.assign name x = (.error (.unknownParameter name), s)) := by
  refine ⟨?_, ?_, ?_, fun s' hs' => assign_fst_eq hs' hs name x, fun name' y hn => assign_swap hs hn x y,
    fun h => assign_of_error (set_unknown h)⟩
  · intro t
    constructor
    · intro h
      cases hx : s.set name x with
      | error e =>
        rw [assign_of_error hx] at h
        cases h
      | ok r =>
        rw [assign_of_ok hx] at h
        obtain ⟨-, rfl⟩ := Prod.mk.inj h
        exact takes_of_set hs hx
    · rintro ⟨change, h, rfl⟩
      exact assign_of_ok (set_of_takes hs h)
  · intro h
    cases hx : s.set name x with
    | error e => exact ⟨e, assign_of_error hx⟩
    | ok t =>
      obtain ⟨change, hc, -⟩ := takes_of_set hs hx
      exact absurd ⟨change, hc⟩ h
  · cases hx : s.set name x with
    | error e => rwa [assign_of_error hx]
    | ok t =>
      rw [assign_of_ok hx]
      exact validate_of_set hs hx

theorem assign_eq_tiny :
    (default : Settings).validate = .ok () ∧
    (default : Settings).assign "num_trees" (-0.0) = (.ok (), { (default : Settings) with targetCount := 0 }) ∧
    (∃ e, (default : Settings).assign "length" 1.0e-46 = (.error e, default)) ∧
    (((default : Settings).assign "num_trees" (-0.0)).2.assign "length" 1.0e-46).2 =
      (((default : Settings).assign "length" 1.0e-46).2.assign "num_trees" (-0.0)).2 := by
  have hv : (default : Settings).validate = .ok () := rfl
  have hz : Binary.ofDouble (-0.0) = .finite true 0 (-1074) := by decide +kernel
  have ht : Takes (-0.0) "num_trees" fun s => { s with targetCount := 0 } :=
    .trees (by rw [hz, Binary.Value.toRat?_finite]; simp) (by decide)
  have hl : ¬0 < Binary.narrow 1.0e-46 := by decide +kernel
  obtain ⟨ha, -, -, -, hswap, -⟩ := assign_eq default hv "num_trees" (-0.0)
  obtain ⟨-, hr, -⟩ := assign_eq default hv "length" 1.0e-46
  refine ⟨hv, (ha _).mpr ⟨_, ht, rfl⟩, hr ?_, hswap "length" 1.0e-46 (by decide)⟩
  rintro ⟨_, h⟩
  generalize hn : "length" = name at h
  cases h
  case length hf hp => exact hl hp
  all_goals exact absurd hn (by decide)

end Settings

end Woodland
