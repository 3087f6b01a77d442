import Woodland.Binary.Conversion
import Woodland.Scalar

/-! The proportions that all trees of a forest share, and the ranges they are held to. -/

namespace Woodland

structure Shape (α : Type) where
  iterations : Nat
  /-- Degrees that one turn symbol turns by. -/
  angle : α
  length : α
  trunkScale : α
  /-- Share of the trunk's width that each of its segments loses. -/
  taper : α
  branchScale : α
  leafDensity : α
deriving DecidableEq

namespace Shape

inductive Parameter where
  | iterations
  | angle
  | length
  | trunkScale
  | taper
  | branchScale
  | leafDensity
deriving DecidableEq

namespace Parameter

def all : List Parameter :=
  [iterations, angle, length, trunkScale, taper, branchScale, leafDensity]

def name : Parameter → String
  | iterations => "iterations"
  | angle => "angle"
  | length => "length"
  | trunkScale => "trunk_scale"
  | taper => "taper"
  | branchScale => "branch_scale"
  | leafDensity => "leaf_density"

def ofName? (name : String) : Option Parameter := all.find? (·.name == name)

end Parameter

inductive Violation (α : Type) where
  | tooManyIterations (n : Nat)
  | angleNotFinite
  | notPositive (p : Parameter) (x : α)
  | taperNegative (x : α)
  | densityOutside (x : α)

def maxIterations : Nat := 6

def leavesAtFullDensity : Nat := 8

def leafBound : Nat := UInt64.size

instance : Inhabited (Shape Float32) := ⟨⟨3, 25.0, 1.7, 3.5, 0.12, 0.35, 0.9⟩⟩

def leavesPerCluster (s : Shape Float32) : Nat :=
  (Binary.scaleSingle s.leafDensity leavesAtFullDensity).count (leafBound - 1)

variable {α : Type} [Scalar α]

def turnAngle (s : Shape α) : α := s.angle * Scalar.radiansPerDegree

def checkPositive (p : Parameter) (x : α) : Except (Violation α) Unit :=
  if Scalar.isFinite x ∧ 0 < x then .ok () else .error (.notPositive p x)

def check (s : Shape α) : Except (Violation α) Unit := do
  if maxIterations < s.iterations then throw (.tooManyIterations s.iterations)
  if !Scalar.isFinite s.angle then throw .angleNotFinite
  checkPositive .length s.length
  checkPositive .trunkScale s.trunkScale
  checkPositive .branchScale s.branchScale
  if !Scalar.isFinite s.taper ∨ s.taper < 0 then throw (.taperNegative s.taper)
  if ¬(0 ≤ s.leafDensity ∧ s.leafDensity ≤ 1) then throw (.densityOutside s.leafDensity)

end Shape

end Woodland
