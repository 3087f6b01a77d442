import Woodland.Forest.Settings
import Woodland.Journal
import Woodland.Random.Range

/-!
Where trees stand. Candidates are drawn over a square and each is taken unless a tree taken before
stands too close; the number of candidates is bounded.
-/

namespace Woodland

/-- The longest side of a right triangle, computed in double precision; an infinite leg makes it infinite. -/
def hypotenuse (x y : Float32) : Float32 :=
  if x.isInf || y.isInf then 1.0 / 0.0
  else (Float.sqrt (x.toFloat * x.toFloat + y.toFloat * y.toFloat)).toFloat32

structure Site where
  x : Float32
  z : Float32
  yaw : Float32
deriving DecidableEq

def Site.distanceFrom (x z : Float32) (s : Site) : Float32 := hypotenuse (x - s.x) (z - s.z)

def Site.distance (a b : Site) : Float32 := b.distanceFrom a.x a.z

structure Plot where
  halfExtent : Float32
  minSeparation : Float32
deriving DecidableEq

namespace Plot

def attemptsPerTree : Nat := 10

def fullTurn : Float32 := 6.28318530717959

def ofGround (halfSize margin minSeparation : Float32) : Plot :=
  let half := halfSize - margin
  ⟨if half.isFinite then Scalar.atLeast 0 half else 0, minSeparation⟩

def ofSettings (s : Settings) : Plot := ofGround s.groundHalfSize s.edgeMargin s.minSeparation

def axis (p : Plot) : Except RangeFault (Draw Float32) :=
  if p.halfExtent.isFinite ∧ 0 < p.halfExtent then Draw.closed (-p.halfExtent) p.halfExtent
  else .ok (pure 0.0)

def tooClose (p : Plot) (x z : Float32) (s : Site) : Bool := s.distanceFrom x z < p.minSeparation

/-- Draws candidates until enough sites are taken or no attempt is left. Sites come last one first. -/
def search (p : Plot) (axis : Draw Float32) (target : Nat) : Nat → List Site → Draw (List Site × Nat)
  | 0, taken => pure (taken, 0)
  | left + 1, taken =>
    if target ≤ taken.length then pure (taken, left + 1)
    else do
      let x ← axis
      let z ← axis
      if taken.any (p.tooClose x z) then p.search axis target left taken
      else
        let yaw ← Draw.halfOpen 0.0 fullTurn
        p.search axis target left (⟨x, z, yaw⟩ :: taken)

def sites (p : Plot) (target : Nat) : Except RangeFault (Draw (List Site × Nat)) := do
  if target = 0 then return pure ([], 0)
  let axis ← p.axis
  let budget := target * attemptsPerTree
  return do
    let (taken, left) ← p.search axis target budget []
    return (taken.reverse, budget - left)

def place (p : Plot) (target : Nat) (g : Generator) :
    Logged (Except RangeFault (List Site × Generator)) := do
  if maxTargetCount < target then Logged.note (.targetClamped target maxTargetCount)
  let target := min target maxTargetCount
  match p.sites target with
  | .error fault => return .error fault
  | .ok draw =>
    let ((sites, attempts), g) := draw.run g
    if sites.length < target then
      Logged.note (.crowded sites.length target attempts p.minSeparation)
    else Logged.note (.placed sites.length attempts)
    return .ok (sites, g)

end Plot

end Woodland
