import Mathlib.Tactic
import Woodland.Proofs.CommandLine.Exchanges
import Woodland.Proofs.Planting.ValidSettings
import Woodland.Proofs.Planting.ValidShapes

/-! Values set under different names do not meet: whether one is taken and what it leaves is the same either way. -/

namespace Woodland

namespace Shape

variable {s r t : Shape Float32} {p q : Parameter} {x y : Float} {name : String}

lemma write_iterations_ok_iff : s.write .iterations x = .ok t ↔
    ∃ n, (Binary.ofDouble x).natural? = some n ∧ n < iterationBound ∧ t = { s with iterations := n } := by
  simp only [write]
  cases (Binary.ofDouble x).natural? with
  | none => simp
  | some n => by_cases hn : n < iterationBound <;> simp [hn, eq_comm]

lemma write_swap (hpq : p ≠ q) (hp : s.write p x = .ok r) (hq : r.write q y = .ok t) :
    ∃ r', s.write q y = .ok r' ∧ r'.write p x = .ok t := by
  cases p with
  | iterations =>
    obtain ⟨n, hn, hlt, rfl⟩ := write_iterations_ok_iff.mp hp
    cases q with
    | iterations => exact absurd rfl hpq
    | angle | length | trunkScale | taper | branchScale | leafDensity =>
      obtain rfl := Except.ok.inj hq
      exact ⟨_, rfl, write_iterations_ok_iff.mpr ⟨n, hn, hlt, rfl⟩⟩
  | angle | length | trunkScale | taper | branchScale | leafDensity =>
    obtain rfl := Except.ok.inj hp
    cases q with
    | iterations =>
      obtain ⟨n, hn, hlt, rfl⟩ := write_iterations_ok_iff.mp hq
      exact ⟨_, write_iterations_ok_iff.mpr ⟨n, hn, hlt, rfl⟩, rfl⟩
    | angle | length | trunkScale | taper | branchScale | leafDensity =>
      obtain rfl := Except.ok.inj hq
      first | exact absurd rfl hpq | exact ⟨_, rfl, rfl⟩

lemma set_ok_iff : s.set name x = .ok t ↔
    ∃ p, Parameter.ofName? name = some p ∧ s.write p x = .ok t ∧ t.validate = .ok () := by
  cases hp : Parameter.ofName? name with
  | none => simp [set_unknown hp]
  | some p =>
    simp only [set_known hp, bind_ok_iff, mapError_ok_iff, map_ok_iff, Option.some.injEq, exists_eq_left']
    constructor
    · rintro ⟨t, hw, _, hv, rfl⟩
      exact ⟨hw, hv⟩
    · rintro ⟨hw, hv⟩
      exact ⟨t, hw, (), hv, rfl⟩

lemma validate_write_ok_iff (h : s.validate = .ok ()) (hw : s.write p x = .ok t) :
    t.validate = .ok () ↔ t.judge p = .ok () := by
  rw [validate_write h hw, mapError_ok_iff]

lemma Parameter.name_eq_of_ofName? (h : ofName? name = some p) : p.name = name := by
  have hb := List.find?_some h
  exact beq_iff_eq.mp hb

lemma set_swap {name' : String} (h : s.validate = .ok ()) (hn : name ≠ name') (hx : s.set name x = .ok r)
    (hy : r.set name' y = .ok t) : ∃ r', s.set name' y = .ok r' ∧ r'.set name x = .ok t := by
  obtain ⟨p, hp, hwp, hr⟩ := set_ok_iff.mp hx
  obtain ⟨q, hq, hwq, ht⟩ := set_ok_iff.mp hy
  have hpq : p ≠ q := by
    rintro rfl
    exact hn ((Parameter.name_eq_of_ofName? hp).symm.trans (Parameter.name_eq_of_ofName? hq))
  obtain ⟨r', hwq', hwp'⟩ := write_swap hpq hwp hwq
  -- the value is in its range with or without the other one
  have hr' : r'.validate = .ok () := by
    rw [validate_write_ok_iff h hwq', ← judge_write hwp' hpq.symm]
    exact judge_of_valid ht q
  exact ⟨r', set_ok_iff.mpr ⟨q, hq, hwq', hr'⟩, set_ok_iff.mpr ⟨p, hp, hwp', ht⟩⟩

end Shape

namespace Settings

variable {s r t : Settings} {name name' : String} {x y : Float}

lemma set_trees_ok_iff : s.set treesName x = .ok t ↔ ∃ n, treesOf x = .ok n ∧ s.withTargetCount n = t := by
  rw [set_trees, map_ok_iff]

lemma set_proportion_ok_iff (hn : name ≠ treesName) :
    s.set name x = .ok t ↔ ∃ shape, s.shape.set name x = .ok shape ∧ s.withShape shape = t := by
  rw [set_proportion s hn, map_ok_iff]

lemma validate_shape_set (h : s.shape.validate = .ok ()) (hx : s.set name x = .ok t) : t.shape.validate = .ok () := by
  by_cases hn : name = treesName
  · subst hn
    obtain ⟨n, -, rfl⟩ := set_trees_ok_iff.mp hx
    exact h
  · obtain ⟨shape, hs, rfl⟩ := (set_proportion_ok_iff hn).mp hx
    obtain ⟨-, -, -, hv⟩ := Shape.set_ok_iff.mp hs
    exact hv

lemma set_swap (h : s.shape.validate = .ok ()) (hn : name ≠ name') (hx : s.set name x = .ok r)
    (hy : r.set name' y = .ok t) : ∃ r', s.set name' y = .ok r' ∧ r'.set name x = .ok t := by
  by_cases h₁ : name = treesName
  · subst h₁
    obtain ⟨n, ht, rfl⟩ := set_trees_ok_iff.mp hx
    obtain ⟨shape, hs, rfl⟩ := (set_proportion_ok_iff hn.symm).mp hy
    exact ⟨_, (set_proportion_ok_iff hn.symm).mpr ⟨shape, hs, rfl⟩, set_trees_ok_iff.mpr ⟨n, ht, rfl⟩⟩
  · obtain ⟨shape, hs, rfl⟩ := (set_proportion_ok_iff h₁).mp hx
    by_cases h₂ : name' = treesName
    · subst h₂
      obtain ⟨n, ht, rfl⟩ := set_trees_ok_iff.mp hy
      exact ⟨_, set_trees_ok_iff.mpr ⟨n, ht, rfl⟩, (set_proportion_ok_iff h₁).mpr ⟨shape, hs, rfl⟩⟩
    · obtain ⟨shape', hs', rfl⟩ := (set_proportion_ok_iff h₂).mp hy
      obtain ⟨r', ha, hb⟩ := Shape.set_swap h hn hs hs'
      exact ⟨_, (set_proportion_ok_iff h₂).mpr ⟨r', ha, rfl⟩, (set_proportion_ok_iff h₁).mpr ⟨shape', hb, rfl⟩⟩

lemma foldlM_set_ok {l m : List (String × Float)} (h : Exchange Prod.fst l m) (hs : s.shape.validate = .ok ())
    (hl : l.foldlM (fun s a => s.set a.1 a.2) s = .ok t) : m.foldlM (fun s a => s.set a.1 a.2) s = .ok t :=
  h.foldlM_ok (P := fun s => s.shape.validate = .ok ()) validate_shape_set set_swap hs hl

end Settings

end Woodland
