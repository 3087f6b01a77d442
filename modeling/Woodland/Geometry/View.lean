import Woodland.Geometry.Transform

/-! Matrices that take the world to a viewer's space and to clip space, right handed. -/

namespace Woodland.Mat4

/-- Clip depth runs from -1 at `near` to 1 at `far`. -/
def perspective (fovY aspect near far : Float32) : Mat4 Float32 :=
  let inverse := 1.0 / (near - far)
  let f := 1.0 / Float32.tan (0.5 * fovY)
  ⟨⟨f / aspect, 0, 0, 0⟩, ⟨0, f, 0, 0⟩, ⟨0, 0, (near + far) * inverse, -1.0⟩,
    ⟨0, 0, 2.0 * near * far * inverse, 0⟩⟩

def lookAt (eye center up : Vec3 Float32) : Mat4 Float32 :=
  let backward := eye - center
  let tiny : Float32 := axisEpsilon * axisEpsilon
  if backward.lengthSquared < tiny then identity
  else if (up.cross backward).lengthSquared < tiny then identity
  else
    let f := (center - eye).normalize
    let s := (f.cross up).normalize
    let u := s.cross f
    ⟨⟨s.x, u.x, -f.x, 0⟩, ⟨s.y, u.y, -f.y, 0⟩, ⟨s.z, u.z, -f.z, 0⟩,
      ⟨-eye.dot s, -eye.dot u, eye.dot f, 1⟩⟩

end Woodland.Mat4
