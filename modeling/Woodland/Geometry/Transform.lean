import Woodland.Geometry.Matrix

/-!
Moves in the local space of a frame. Each one multiplies from the right, so a chain of moves reads
like a walk.
-/

namespace Woodland.Mat4

variable {α : Type} [Scalar α]

def axisEpsilon : α := 1e-6

def displacement (v : Vec3 α) : Mat4 α :=
  ⟨⟨1, 0, 0, 0⟩, ⟨0, 1, 0, 0⟩, ⟨0, 0, 1, 0⟩, ⟨v.x, v.y, v.z, 1⟩⟩

def scaling (v : Vec3 α) : Mat4 α :=
  ⟨⟨v.x, 0, 0, 0⟩, ⟨0, v.y, 0, 0⟩, ⟨0, 0, v.z, 0⟩, ⟨0, 0, 0, 1⟩⟩

@[specialize] def rotation (k : Vec3 α) (s c : α) : Mat4 α :=
  let t := 1 - c
  ⟨⟨k.x * k.x * t + c, k.y * k.x * t + k.z * s, k.z * k.x * t - k.y * s, 0⟩,
    ⟨k.x * k.y * t - k.z * s, k.y * k.y * t + c, k.z * k.y * t + k.x * s, 0⟩,
    ⟨k.x * k.z * t + k.y * s, k.y * k.z * t - k.x * s, k.z * k.z * t + c, 0⟩,
    ⟨0, 0, 0, 1⟩⟩

@[specialize] def displace (m : Mat4 α) (v : Vec3 α) : Mat4 α := m * displacement v

@[specialize] def scale (m : Mat4 α) (v : Vec3 α) : Mat4 α := m * scaling v

@[specialize] def rotate (m : Mat4 α) (angle : α) (axis : Vec3 α) : Mat4 α :=
  if axis.length < axisEpsilon then m
  else m * rotation (axis.divideBy axis.length) (Scalar.sin angle) (Scalar.cos angle)

end Woodland.Mat4
