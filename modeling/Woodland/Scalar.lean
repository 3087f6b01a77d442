/-! Arithmetic of frames and transforms: programs compute in `Float32`, theory may use any other scalar. -/

namespace Woodland

class Scalar (α : Type) extends
    Zero α, One α, Add α, Sub α, Mul α, Div α, Neg α, LT α, LE α, OfScientific α where
  ofNat : Nat → α
  sqrt : α → α
  sin : α → α
  cos : α → α
  pi : α
  isFinite : α → Bool
  decidableLT : DecidableLT α
  decidableLE : DecidableLE α

namespace Scalar

variable {α : Type} [Scalar α]

instance (x y : α) : Decidable (x < y) := decidableLT x y
instance (x y : α) : Decidable (x ≤ y) := decidableLE x y

/-- `x`, or `floor` where `x` is smaller or no number at all. -/
@[inline] def atLeast (floor x : α) : α :=
  if floor < x then x else floor

/-- Degrees are turned into radians by one product with this quotient. -/
@[inline] def radiansPerDegree : α := pi / 180.0

end Scalar

instance : Scalar Float32 where
  zero := 0.0
  one := 1.0
  ofNat := Float32.ofNat
  sqrt := Float32.sqrt
  sin := Float32.sin
  cos := Float32.cos
  pi := 3.14159265358979
  isFinite := Float32.isFinite
  decidableLT := fun x y => inferInstanceAs (Decidable (x < y))
  decidableLE := fun x y => inferInstanceAs (Decidable (x ≤ y))

end Woodland
