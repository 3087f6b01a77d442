import Mathlib.Tactic
import Woodland.Proofs.Edits
import Woodland.Proofs.Numbers.LeafCount
import Woodland.Proofs.Results
import Woodland.Tree.Parameter

/-!
Shapes that are accepted: each proportion is held to a range of its own, and setting one by its name can fail for
that one only.
-/

namespace Woodland.Shape

section Checks

variable {α : Type} [Scalar α] {s t : Shape α} {p : Parameter}

def judge (s : Shape α) : Parameter → Except (Violation α) Unit
  | .iterations => if maxIterations < s.iterations then .error (.tooManyIterations s.iterations) else .ok ()
  | .angle => if !Scalar.isFinite s.angle then .error .angleNotFinite else .ok ()
  | .length => checkPositive .length s.length
  | .trunkScale => checkPositive .trunkScale s.trunkScale
  | .taper => if !Scalar.isFinite s.taper ∨ s.taper < 0 then .error (.taperNegative s.taper) else .ok ()
  | .branchScale => checkPositive .branchScale s.branchScale
  | .leafDensity =>
    if ¬(0 ≤ s.leafDensity ∧ s.leafDensity ≤ 1) then .error (.densityOutside s.leafDensity) else .ok ()

/-- The proportions in the order of their checks, which decides between two violations. -/
def checked : List Parameter := [.iterations, .angle, .length, .trunkScale, .branchScale, .taper, .leafDensity]

lemma mem_checked (p : Parameter) : p ∈ checked := by cases p <;> decide

lemma check_eq_forM (s : Shape α) : s.check = checked.forM s.judge := by
  simp only [check, checked, forM_cons, judge]
  split_ifs <;> rfl

lemma check_eq_ok_iff (s : Shape α) : s.check = .ok () ↔ ∀ p, s.judge p = .ok () := by
  rw [check_eq_forM, forM_ok_iff]
  exact ⟨fun h p => h p (mem_checked p), fun h p _ => h p⟩

lemma check_of_others (h : ∀ q, q ≠ p → s.judge q = .ok ()) : s.check = s.judge p := by
  rw [check_eq_forM, forM_of_others (mem_checked p) h]

end Checks

variable {s t : Shape Float32} {p : Parameter} {x : Float}

lemma judge_of_valid (h : s.validate = .ok ()) (p : Parameter) : s.judge p = .ok () :=
  (check_eq_ok_iff s).mp (mapError_ok_iff.mp h) p

lemma leavesPerCluster_le_of_valid (h : s.validate = .ok ()) : s.leavesPerCluster ≤ leavesAtFullDensity := by
  have hd := judge_of_valid h .leafDensity
  rw [judge] at hd
  split_ifs at hd with hr
  exact leavesPerCluster_le hr.1 hr.2

lemma judge_write (h : s.write p x = .ok t) {q : Parameter} (hq : q ≠ p) : t.judge q = s.judge q := by
  cases p with
  | iterations =>
    simp only [write] at h
    split at h
    · split_ifs at h
      obtain rfl := Except.ok.inj h
      cases q <;> trivial
    · cases h
  | angle | length | trunkScale | taper | branchScale | leafDensity =>
    obtain rfl := Except.ok.inj h
    cases q <;> trivial

lemma validate_write (h : s.validate = .ok ()) (hw : s.write p x = .ok t) :
    t.validate = (t.judge p).mapError fun v => .invalid (.shape v) := by
  rw [validate, check_of_others fun q hq => (judge_write hw hq).trans (judge_of_valid h q)]

lemma careful_edit (name : String) (x : Float) : (edit name x).Careful := by
  refine Edit.reads_get.bind_careful fun s => ?_
  split
  · exact (Edit.reads_throw _).careful
  · refine (Edit.reads_ofExcept _).bind_careful fun updated => ?_
    exact (Edit.reads_ofExcept _).bind_careful fun _ => Edit.careful_modify _

lemma set_known {name : String} (hp : Parameter.ofName? name = some p) :
    s.set name x = ((s.write p x).mapError .invalid).bind fun t => t.validate.map fun () => t := by
  simp only [set, Edit.onCopy, edit, Edit.run_bind, Edit.run_get, hp, Edit.run_ofExcept, Edit.run_modify]
  cases (s.write p x).mapError Error.invalid with
  | error r => rfl
  | ok t => cases ht : t.validate <;> simp only [Except.bind, Except.map, ht]

lemma set_unknown {name : String} (hp : Parameter.ofName? name = none) :
    s.set name x = .error (.unknownParameter name) := by
  simp only [set, Edit.onCopy, edit, Edit.run_bind, Edit.run_get, hp, Edit.run_throw, Except.map]

end Woodland.Shape
