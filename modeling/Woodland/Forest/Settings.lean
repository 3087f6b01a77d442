import Woodland.Tree.Parameter

/-! What a forest is grown from. -/

namespace Woodland

structure Settings where
  seed : UInt64
  targetCount : Nat
  /-- The ground spans twice this on both sides. -/
  groundHalfSize : Float32
  minSeparation : Float32
  edgeMargin : Float32
  shape : Shape Float32
deriving DecidableEq

namespace Settings

instance : Inhabited Settings := ⟨⟨12345, 70, 80.0, 10.0, 5.0, default⟩⟩

def treesName : String := "num_trees"

def withSeed (s : Settings) (seed : UInt64) : Settings := { s with seed := seed }

def withTargetCount (s : Settings) (n : Nat) : Settings := { s with targetCount := n }

def withShape (s : Settings) (shape : Shape Float32) : Settings := { s with shape := shape }

def placementHalfSize (s : Settings) : Float32 := s.groundHalfSize - s.edgeMargin

def validate (s : Settings) : Except Error Unit := do
  if maxTargetCount < s.targetCount then throw (.invalid (.targetAbove s.targetCount))
  if !s.groundHalfSize.isFinite ∨ s.groundHalfSize ≤ 0 then
    throw (.invalid (.groundNotPositive s.groundHalfSize))
  if !s.edgeMargin.isFinite ∨ s.edgeMargin < 0 then
    throw (.invalid (.marginNegative s.edgeMargin))
  if s.placementHalfSize ≤ 0 then throw (.invalid (.noRoom s.edgeMargin s.groundHalfSize))
  if !s.minSeparation.isFinite ∨ s.minSeparation < 0 then
    throw (.invalid (.separationNegative s.minSeparation))
  s.shape.validate

def treesOf (x : Float) : Except Error Nat :=
  match (Binary.ofDouble x).natural? with
  | none => .error (.invalid (.treesNotNatural x))
  | some n => if n ≤ maxTargetCount then .ok n else .error (.invalid (.treesAbove x))

def edit (name : String) (x : Float) : Edit Settings Unit := do
  if name = treesName then
    let n ← Edit.ofExcept (treesOf x)
    modify fun s => s.withTargetCount n
  else Edit.within shape withShape (Shape.edit name x)

def assign (s : Settings) (name : String) (x : Float) : Except Error Unit × Settings := (edit name x).run s

def set (s : Settings) (name : String) (x : Float) : Except Error Settings := (edit name x).onCopy s

end Settings

end Woodland
