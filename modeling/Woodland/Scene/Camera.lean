import Woodland.Geometry.View

/-! A camera on a sphere around a point above the middle of the ground. -/

namespace Woodland

structure Camera where
  distance : Float32
  azimuth : Float32
  /-- Angle from the upward axis. -/
  polar : Float32
  targetHeight : Float32
  fovY : Float32
  aspect : Float32
  near : Float32
  far : Float32
  minDistance : Float32
  maxDistance : Float32
deriving DecidableEq

structure BoundsFault where
  low : Float32
  high : Float32

namespace Camera

def orbitSensitivity : Float32 := 0.005
def zoomSensitivity : Float32 := 0.05

def polarMargin : Float32 := 0.1

def pi : Float32 := Scalar.pi

instance : Inhabited Camera where
  default :=
    { distance := 50.0, azimuth := 0.0, polar := pi / 2.0 - 0.2, targetHeight := 10.0
      fovY := pi / 4.0, aspect := 16.0 / 9.0, near := 0.1, far := 500.0
      minDistance := 10.0, maxDistance := 150.0 }

def ofAspect (aspect : Float32) : Camera := { (default : Camera) with aspect := aspect }

def target (c : Camera) : Vec3 Float32 := ⟨0.0, c.targetHeight, 0.0⟩

def eye (c : Camera) : Vec3 Float32 :=
  ⟨c.distance * c.polar.sin * c.azimuth.sin, c.targetHeight + c.distance * c.polar.cos,
    c.distance * c.polar.sin * c.azimuth.cos⟩

def view (c : Camera) : Mat4 Float32 := .lookAt c.eye c.target .unitY

def projection (c : Camera) : Mat4 Float32 := .perspective c.fovY c.aspect c.near c.far

def viewProjection (c : Camera) : Mat4 Float32 := c.projection * c.view

def clamp (low high x : Float32) : Float32 :=
  if x < low then low else if high < x then high else x

def orbit (c : Camera) (dx dy : Float32) : Camera :=
  { c with
    azimuth := c.azimuth + dx * orbitSensitivity
    polar := clamp polarMargin (pi - polarMargin) (c.polar - dy * orbitSensitivity) }

def zoom (c : Camera) (delta : Float32) : Except BoundsFault Camera :=
  if c.minDistance ≤ c.maxDistance then
    .ok { c with distance := clamp c.minDistance c.maxDistance (c.distance + delta * zoomSensitivity) }
  else .error ⟨c.minDistance, c.maxDistance⟩

def setAspect (c : Camera) (width height : Float32) : Camera :=
  if 0 < width ∧ 0 < height then { c with aspect := width / height } else c

end Camera

end Woodland
