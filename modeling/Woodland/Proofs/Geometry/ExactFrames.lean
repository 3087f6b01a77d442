import Mathlib.Analysis.SpecialFunctions.Trigonometric.Basic
import Mathlib.Tactic
import Woodland.Geometry.Transform

/-! Frames over the real numbers, where a product of matrices is the composition of what they do. -/

namespace Woodland

noncomputable instance : Scalar ℝ where
  ofNat n := n
  sqrt := Real.sqrt
  sin := Real.sin
  cos := Real.cos
  pi := Real.pi
  isFinite _ := true
  decidableLT := Real.decidableLT
  decidableLE := Real.decidableLE

namespace Mat4

variable {α : Type} [Scalar α]

def image (m : Mat4 α) (p : Vec3 α) : Vec4 α := m.apply ⟨p.x, p.y, p.z, 1⟩

def base (m : Mat4 α) : Vec4 α := m.image ⟨0, 0, 0⟩

def top (m : Mat4 α) : Vec4 α := m.image .unitY

variable (m : Mat4 ℝ)

lemma apply_mul (a b : Mat4 ℝ) (v : Vec4 ℝ) : (a * b).apply v = a.apply (b.apply v) := by
  change (a.mul b).apply v = _
  simp only [mul, apply, Vec4.mk.injEq]
  refine ⟨?_, ?_, ?_, ?_⟩ <;> ring

lemma base_mul (a b : Mat4 ℝ) : (a * b).base = a.apply b.base := apply_mul a b _

lemma base_eq : m.base = m.wAxis := by
  simp [base, image, apply]

lemma base_displace (v : Vec3 ℝ) : (m.displace v).base = m.image v := by
  rw [displace, base_mul, base_eq]
  rfl

lemma image_scale (v p : Vec3 ℝ) : (m.scale v).image p = m.image ⟨v.x * p.x, v.y * p.y, v.z * p.z⟩ := by
  have hp : (scaling v).apply ⟨p.x, p.y, p.z, 1⟩ = ⟨v.x * p.x, v.y * p.y, v.z * p.z, 1⟩ := by
    simp [scaling, apply]
  rw [scale, image, apply_mul, hp, image]

lemma base_scale (v : Vec3 ℝ) : (m.scale v).base = m.base := by
  rw [base, image_scale]
  simp [base]

lemma top_scale (v : Vec3 ℝ) : (m.scale v).top = (m.displace ⟨0, v.y, 0⟩).base := by
  rw [top, image_scale, base_displace]
  simp [Vec3.unitY]

lemma base_rotate (angle : ℝ) (axis : Vec3 ℝ) : (m.rotate angle axis).base = m.base := by
  unfold rotate
  split
  · rfl
  · rw [base_mul, base_eq, base_eq]
    simp [rotation, apply]

end Mat4

end Woodland
