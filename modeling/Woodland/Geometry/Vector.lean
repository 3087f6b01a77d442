import Woodland.Scalar

/-! Vectors of three and four components. Sums of products run from the left. -/

namespace Woodland

structure Vec3 (α : Type) where
  x : α
  y : α
  z : α
deriving DecidableEq

structure Vec4 (α : Type) where
  x : α
  y : α
  z : α
  w : α
deriving DecidableEq

def Vec4.map {α β : Type} (f : α → β) (v : Vec4 α) : Vec4 β := ⟨f v.x, f v.y, f v.z, f v.w⟩

namespace Vec3

variable {α : Type} [Scalar α]

def unitX : Vec3 α := ⟨1, 0, 0⟩
def unitY : Vec3 α := ⟨0, 1, 0⟩
def unitZ : Vec3 α := ⟨0, 0, 1⟩

instance : Sub (Vec3 α) := ⟨fun a b => ⟨a.x - b.x, a.y - b.y, a.z - b.z⟩⟩

def dot (a b : Vec3 α) : α := a.x * b.x + a.y * b.y + a.z * b.z

def cross (a b : Vec3 α) : Vec3 α :=
  ⟨a.y * b.z - b.y * a.z, a.z * b.x - b.z * a.x, a.x * b.y - b.x * a.y⟩

def scaleBy (v : Vec3 α) (s : α) : Vec3 α := ⟨v.x * s, v.y * s, v.z * s⟩

def divideBy (v : Vec3 α) (s : α) : Vec3 α := ⟨v.x / s, v.y / s, v.z / s⟩

def lengthSquared (v : Vec3 α) : α := v.dot v

def length (v : Vec3 α) : α := Scalar.sqrt v.lengthSquared

def normalize (v : Vec3 α) : Vec3 α := v.scaleBy (1 / v.length)

end Vec3

end Woodland
