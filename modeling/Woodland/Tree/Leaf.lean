import Woodland.Geometry.Transform
import Woodland.Grammar.Basic
import Woodland.Random.Range

/-! Leaves and the clusters that hang at the ends of branches, drawn once and kept. -/

namespace Woodland

/-- A leaf stands off the end of its branch and is tilted about the three axes in turn. -/
structure Leaf (α : Type) where
  offset : Vec3 α
  tilt : Vec3 α
deriving DecidableEq

abbrev Cluster (α : Type) := List (Leaf α)

namespace Leaf

def size {α : Type} [Scalar α] : α := 0.8

@[specialize] def transform {α : Type} [Scalar α] (l : Leaf α) : Mat4 α :=
  let m := Mat4.identity.displace l.offset
  let m := m.rotate l.tilt.x .unitX
  let m := m.rotate l.tilt.y .unitY
  let m := m.rotate l.tilt.z .unitZ
  m.scale ⟨size, size, size⟩

def offsetExtent : Vec3 Float32 := ⟨0.3, 0.2, 0.3⟩

def tiltExtent : Float32 := 0.25

def centered (extent : Float32) : Draw Float32 := .halfOpen (-extent) extent

def random : Draw (Leaf Float32) := do
  let ox ← centered offsetExtent.x
  let oy ← centered offsetExtent.y
  let oz ← centered offsetExtent.z
  let tx ← centered tiltExtent
  let ty ← centered tiltExtent
  let tz ← centered tiltExtent
  return ⟨⟨ox, oy, oz⟩, ⟨tx, ty, tz⟩⟩

end Leaf

namespace Cluster

def random (leaves : Nat) : Draw (Cluster Float32) := .times leaves Leaf.random

def forWord (w : Word) (leaves : Nat) : Draw (List (Cluster Float32)) :=
  .times (w.count ']') (random leaves)

end Cluster

end Woodland
