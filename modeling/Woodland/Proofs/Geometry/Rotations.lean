import Mathlib.LinearAlgebra.UnitaryGroup
import Mathlib.Tactic
import Woodland.Proofs.Geometry.ExactFrames
import Woodland.Tree.Turtle

/-!
Turns over the real numbers are the rotations about their axes: they turn vectors by Rodrigues' formula, those about
one axis add up their angles, and a turn is undone by the opposite one.
-/

namespace Woodland

namespace Vec3

variable {k v : Vec3 ℝ}

def withLast (v : Vec3 ℝ) (w : ℝ) : Vec4 ℝ := ⟨v.x, v.y, v.z, w⟩

/-- Rodrigues' formula: `v` turned about the unit vector `k`, by the angle of sine `s` and cosine `c`. -/
noncomputable def turned (k : Vec3 ℝ) (s c : ℝ) (v : Vec3 ℝ) : Vec3 ℝ where
  x := c * v.x + s * (k.cross v).x + (1 - c) * k.dot v * k.x
  y := c * v.y + s * (k.cross v).y + (1 - c) * k.dot v * k.y
  z := c * v.z + s * (k.cross v).z + (1 - c) * k.dot v * k.z

lemma dot_self (k : Vec3 ℝ) : k.dot k = k.x * k.x + k.y * k.y + k.z * k.z := rfl

lemma turned_self (hk : k.dot k = 1) (s c : ℝ) : k.turned s c k = k := by
  obtain ⟨x, y, z⟩ := k
  simp only [turned, hk, cross, mk.injEq]
  refine ⟨?_, ?_, ?_⟩ <;> ring

lemma length_eq_sqrt (v : Vec3 ℝ) : v.length = Real.sqrt (v.dot v) := rfl

lemma dot_self_nonneg (v : Vec3 ℝ) : 0 ≤ v.dot v := by
  rw [dot_self]
  nlinarith [mul_self_nonneg v.x, mul_self_nonneg v.y, mul_self_nonneg v.z]

lemma length_mul_self (v : Vec3 ℝ) : v.length * v.length = v.dot v := Real.mul_self_sqrt v.dot_self_nonneg

variable (h : 0 < v.length)

include h

lemma dot_divideBy_length : (v.divideBy v.length).dot (v.divideBy v.length) = 1 := by
  have hl := v.length_mul_self
  have hs : (v.divideBy v.length).dot (v.divideBy v.length) = v.dot v / (v.length * v.length) := by
    simp only [dot, divideBy]
    ring
  rw [hs, hl, div_self]
  exact hl ▸ (mul_pos h h).ne'

lemma scaleBy_divideBy_length : (v.divideBy v.length).scaleBy v.length = v := by
  have hl := h.ne'
  simp only [scaleBy, divideBy, div_mul_cancel₀ _ hl]

end Vec3

namespace Mat4

variable {k : Vec3 ℝ} {s c s' c' : ℝ}

def toMatrix (m : Mat4 ℝ) : Matrix (Fin 4) (Fin 4) ℝ :=
  !![m.xAxis.x, m.yAxis.x, m.zAxis.x, m.wAxis.x;
    m.xAxis.y, m.yAxis.y, m.zAxis.y, m.wAxis.y;
    m.xAxis.z, m.yAxis.z, m.zAxis.z, m.wAxis.z;
    m.xAxis.w, m.yAxis.w, m.zAxis.w, m.wAxis.w]

def transpose (m : Mat4 ℝ) : Mat4 ℝ :=
  ⟨⟨m.xAxis.x, m.yAxis.x, m.zAxis.x, m.wAxis.x⟩, ⟨m.xAxis.y, m.yAxis.y, m.zAxis.y, m.wAxis.y⟩,
    ⟨m.xAxis.z, m.yAxis.z, m.zAxis.z, m.wAxis.z⟩, ⟨m.xAxis.w, m.yAxis.w, m.zAxis.w, m.wAxis.w⟩⟩

lemma toMatrix_transpose (m : Mat4 ℝ) : m.transpose.toMatrix = m.toMatrix.transpose := by
  ext i j
  fin_cases i <;> fin_cases j <;> simp [toMatrix, transpose]

lemma toMatrix_mul (a b : Mat4 ℝ) : (a * b).toMatrix = a.toMatrix * b.toMatrix := by
  change (a.mul b).toMatrix = _
  ext i j
  fin_cases i <;> fin_cases j <;> simp [toMatrix, mul, apply, Matrix.mul_apply, Fin.sum_univ_four]

lemma toMatrix_identity : (identity : Mat4 ℝ).toMatrix = 1 := by
  ext i j
  fin_cases i <;> fin_cases j <;> simp [toMatrix, identity]

lemma mul_assoc (a b d : Mat4 ℝ) : a * b * d = a * (b * d) := by
  change (⟨_, _, _, _⟩ : Mat4 ℝ) = ⟨_, _, _, _⟩
  simp only [mk.injEq]
  exact ⟨apply_mul a b _, apply_mul a b _, apply_mul a b _, apply_mul a b _⟩

lemma mul_identity (m : Mat4 ℝ) : m * identity = m := by
  change m.mul identity = m
  simp [mul, apply, identity]

lemma apply_rotation (k : Vec3 ℝ) (s c : ℝ) (v : Vec3 ℝ) (w : ℝ) :
    (rotation k s c).apply (v.withLast w) = (k.turned s c v).withLast w := by
  simp only [rotation, apply, Vec3.withLast, Vec3.turned, Vec3.cross, Vec3.dot, Vec4.mk.injEq]
  refine ⟨?_, ?_, ?_, ?_⟩ <;> ring

lemma rotation_zero_one (k : Vec3 ℝ) : rotation k 0 1 = identity := by
  simp [rotation, identity]

lemma rotation_mul (hk : k.dot k = 1) (s c s' c' : ℝ) :
    rotation k s c * rotation k s' c' = rotation k (s * c' + c * s') (c * c' - s * s') := by
  obtain ⟨x, y, z⟩ := k
  rw [Vec3.dot_self] at hk
  change mul _ _ = _
  simp only [rotation, mul, apply, mk.injEq, Vec4.mk.injEq]
  -- with `K v = k × v` and `P v = (k · v) k`: `K ^ 2 = P - (k · k)`, `K P = P K = 0` and `P ^ 2 = (k · k) P`
  refine ⟨⟨?_, ?_, ?_, ?_⟩, ⟨?_, ?_, ?_, ?_⟩, ⟨?_, ?_, ?_, ?_⟩, ?_, ?_, ?_, ?_⟩
  · linear_combination ((1 - c) * (1 - c') * x * x - s * s') * hk
  · linear_combination (1 - c) * (1 - c') * y * x * hk
  · linear_combination (1 - c) * (1 - c') * z * x * hk
  · ring
  · linear_combination (1 - c) * (1 - c') * x * y * hk
  · linear_combination ((1 - c) * (1 - c') * y * y - s * s') * hk
  · linear_combination (1 - c) * (1 - c') * z * y * hk
  · ring
  · linear_combination (1 - c) * (1 - c') * x * z * hk
  · linear_combination (1 - c) * (1 - c') * y * z * hk
  · linear_combination ((1 - c) * (1 - c') * z * z - s * s') * hk
  all_goals ring

lemma transpose_rotation (k : Vec3 ℝ) (s c : ℝ) : (rotation k s c).transpose = rotation k (-s) c := by
  simp only [transpose, rotation]
  congr 2 <;> ring

lemma det_rotation (k : Vec3 ℝ) (s c : ℝ) :
    (rotation k s c).toMatrix.det = (c + (1 - c) * k.dot k) * (c ^ 2 + s ^ 2 * k.dot k) := by
  simp [toMatrix, rotation, Matrix.det_succ_row_zero, Fin.sum_univ_succ, Fin.succAbove, Vec3.dot_self]
  ring

lemma rotation_mem (hk : k.dot k = 1) (h : s ^ 2 + c ^ 2 = 1) :
    (rotation k s c).toMatrix ∈ Matrix.specialOrthogonalGroup (Fin 4) ℝ := by
  rw [Matrix.mem_specialOrthogonalGroup_iff, Matrix.mem_orthogonalGroup_iff]
  constructor
  · -- the transpose turns back
    have hs : s * c + c * -s = 0 := by ring
    have hc : c * c - s * -s = 1 := by linear_combination h
    rw [← toMatrix_transpose, transpose_rotation, ← toMatrix_mul, rotation_mul hk, hs, hc, rotation_zero_one,
      toMatrix_identity]
  · rw [det_rotation, hk]
    linear_combination h

lemma exists_angle (h : s ^ 2 + c ^ 2 = 1) : ∃ angle, Real.sin angle = s ∧ Real.cos angle = c := by
  have hn : ‖(⟨c, s⟩ : ℂ)‖ = 1 := by
    rw [Complex.norm_def, Complex.normSq_mk, Real.sqrt_eq_one]
    linear_combination h
  have hz : (⟨c, s⟩ : ℂ) ≠ 0 := norm_pos_iff.mp (by rw [hn]; exact one_pos)
  refine ⟨Complex.arg ⟨c, s⟩, ?_, ?_⟩
  · rw [Complex.sin_arg, hn, div_one]
  · rw [Complex.cos_arg hz, hn, div_one]

variable {axis : Vec3 ℝ}

lemma length_pos (h : 1e-6 ≤ axis.length) : 0 < axis.length := by
  norm_num at h
  linarith

lemma rotate_eq (m : Mat4 ℝ) (h : 1e-6 ≤ axis.length) (angle : ℝ) :
    m.rotate angle axis = m * rotation (axis.divideBy axis.length) (Real.sin angle) (Real.cos angle) :=
  if_neg (not_lt.mpr h)

lemma rotate_rotate (m : Mat4 ℝ) (h : 1e-6 ≤ axis.length) (a b : ℝ) :
    (m.rotate a axis).rotate b axis = m.rotate (a + b) axis := by
  have hk := Vec3.dot_divideBy_length (length_pos h)
  rw [rotate_eq _ h, rotate_eq _ h, rotate_eq _ h, mul_assoc, rotation_mul hk, Real.sin_add, Real.cos_add]

lemma rotate_rotate_neg (m : Mat4 ℝ) (h : 1e-6 ≤ axis.length) (a : ℝ) : (m.rotate a axis).rotate (-a) axis = m := by
  rw [rotate_rotate m h, add_neg_cancel, rotate_eq m h, Real.sin_zero, Real.cos_zero, rotation_zero_one, mul_identity]

end Mat4

namespace Turtle

def Opposite (c c' : Char) : Prop :=
  (c, c') ∈ [('+', '-'), ('/', '\\'), ('&', '^')] ∨ (c', c) ∈ [('+', '-'), ('/', '\\'), ('&', '^')]

variable {axis : Vec3 ℝ} {c c' : Char}

lemma turn_turn_neg (t : Turtle ℝ) (h : 1e-6 ≤ axis.length) (angle : ℝ) :
    (t.turn angle axis).turn (-angle) axis = t := by
  obtain ⟨⟨frame, width, level, segments⟩, saved, clusters, drawn, unmatched⟩ := t
  simp only [turn, Pose.turn, Mat4.rotate_rotate_neg frame h angle]

lemma turn_neg_turn (t : Turtle ℝ) (h : 1e-6 ≤ axis.length) (angle : ℝ) :
    (t.turn (-angle) axis).turn angle axis = t := by
  have hturn := t.turn_turn_neg h (-angle)
  rwa [neg_neg] at hturn

lemma step_opposite (s : Shape ℝ) (t : Turtle ℝ) (h : Opposite c c') : (t.step s c).step s c' = t := by
  have hx : 1e-6 ≤ (Vec3.unitX : Vec3 ℝ).length := by
    rw [Vec3.length_eq_sqrt]
    norm_num [Vec3.dot, Vec3.unitX]
  have hy : 1e-6 ≤ (Vec3.unitY : Vec3 ℝ).length := by
    rw [Vec3.length_eq_sqrt]
    norm_num [Vec3.dot, Vec3.unitY]
  have hz : 1e-6 ≤ (Vec3.unitZ : Vec3 ℝ).length := by
    rw [Vec3.length_eq_sqrt]
    norm_num [Vec3.dot, Vec3.unitZ]
  simp only [Opposite, List.mem_cons, Prod.mk.injEq, List.not_mem_nil, or_false] at h
  obtain (⟨rfl, rfl⟩ | ⟨rfl, rfl⟩ | ⟨rfl, rfl⟩) | (⟨rfl, rfl⟩ | ⟨rfl, rfl⟩ | ⟨rfl, rfl⟩) := h
  · exact t.turn_turn_neg hz s.turnAngle
  · exact t.turn_turn_neg hx s.turnAngle
  · exact t.turn_turn_neg hy s.turnAngle
  · exact t.turn_neg_turn hz s.turnAngle
  · exact t.turn_neg_turn hx s.turnAngle
  · exact t.turn_neg_turn hy s.turnAngle

end Turtle

namespace Mat4

theorem rotate_rodrigues {axis : Vec3 ℝ} (h : 1e-6 ≤ axis.length) :
    let k := axis.divideBy axis.length
    k.dot k = 1 ∧ k.scaleBy axis.length = axis ∧
      (∀ (m : Mat4 ℝ) (angle : ℝ), m.rotate angle axis = m * rotation k (Real.sin angle) (Real.cos angle)) ∧
      (∀ s c : ℝ, s ^ 2 + c ^ 2 = 1 →
        (∃ angle, ∀ m : Mat4 ℝ, m.rotate angle axis = m * rotation k s c) ∧
        (∀ (v : Vec3 ℝ) (w : ℝ), (rotation k s c).apply (v.withLast w) = (k.turned s c v).withLast w) ∧
        (rotation k s c).toMatrix ∈ Matrix.specialOrthogonalGroup (Fin 4) ℝ ∧
        (∀ w, (rotation k s c).apply (k.withLast w) = k.withLast w) ∧
        ∀ s' c' : ℝ, rotation k s c * rotation k s' c' = rotation k (s * c' + c * s') (c * c' - s * s')) ∧
      (∀ (m : Mat4 ℝ) (a b : ℝ), (m.rotate a axis).rotate b axis = m.rotate (a + b) axis) ∧
      (∀ (m : Mat4 ℝ) (a : ℝ), (m.rotate a axis).rotate (-a) axis = m) ∧
      ∀ (p : Shape ℝ) (t : Turtle ℝ) (c c' : Char), Turtle.Opposite c c' → (t.step p c).step p c' = t := by
  intro k
  have hk : k.dot k = 1 := Vec3.dot_divideBy_length (length_pos h)
  refine ⟨hk, Vec3.scaleBy_divideBy_length (length_pos h), fun m angle => rotate_eq m h angle, fun s c hsc => ?_,
    fun m a b => rotate_rotate m h a b, fun m a => rotate_rotate_neg m h a, fun p t c c' => t.step_opposite p⟩
  obtain ⟨angle, rfl, rfl⟩ := exists_angle hsc
  refine ⟨⟨angle, fun m => rotate_eq m h angle⟩, apply_rotation k _ _, rotation_mem hk hsc, fun w => ?_,
    rotation_mul hk _ _⟩
  rw [apply_rotation, Vec3.turned_self hk]

theorem rotate_rodrigues_oblique :
    let axis : Vec3 ℝ := ⟨2, 3, 6⟩
    1e-6 ≤ axis.length ∧ (3 / 5 : ℝ) ^ 2 + (4 / 5) ^ 2 = 1 ∧
      (rotation (axis.divideBy axis.length) (3 / 5) (4 / 5)).toMatrix ∈ Matrix.specialOrthogonalGroup (Fin 4) ℝ ∧
      (rotation (axis.divideBy axis.length) (3 / 5) (4 / 5)).apply ((⟨1, 0, 0⟩ : Vec3 ℝ).withLast 1) =
        (⟨40 / 49, 132 / 245, -51 / 245⟩ : Vec3 ℝ).withLast 1 := by
  intro axis
  have hlength : axis.length = 7 := by
    rw [Vec3.length_eq_sqrt, Real.sqrt_eq_iff_mul_self_eq_of_pos (by norm_num)]
    norm_num [axis, Vec3.dot]
  have h : 1e-6 ≤ axis.length := by
    rw [hlength]
    norm_num
  have hsc : (3 / 5 : ℝ) ^ 2 + (4 / 5) ^ 2 = 1 := by norm_num
  obtain ⟨-, -, -, hpair, -⟩ := rotate_rodrigues h
  obtain ⟨-, happly, hmem, -⟩ := hpair (3 / 5) (4 / 5) hsc
  refine ⟨h, hsc, hmem, ?_⟩
  rw [happly, hlength]
  simp only [axis, Vec3.turned, Vec3.divideBy, Vec3.cross, Vec3.dot]
  norm_num

end Mat4

end Woodland
