import Woodland.Random.Generator

/-! Uniform draws from ranges of `Float32` and from three choices. -/

namespace Woodland

/-- A range that no uniform draw is defined on: it is empty, or its width is not finite. -/
structure RangeFault where
  low : Float32
  high : Float32

namespace Draw

def unit : Draw Float32 := do
  let w ← word
  return Float32.ofBits ((w >>> 9) ||| 0x3f800000) - 1.0

def unitLast : Float32 := Float32.ofBits 0x3fffffff - 1.0

/-- The tries that a draw gets. Draws would go on trying: the value after the last one is made up. -/
def retries : Nat := 1000

def halfOpenWithin (low high : Float32) : Nat → Draw Float32
  | 0 => pure low
  | tries + 1 => do
    let u ← unit
    let x := u * (high - low) + low
    if x < high then pure x else halfOpenWithin low high tries

def halfOpen (low high : Float32) : Draw Float32 := halfOpenWithin low high retries

/-- The largest scale of at most `bits` that does not carry the largest draw past `high`. -/
def fittingScale (low high : Float32) : Nat → Float32
  | 0 => 0.0
  | bits + 1 =>
    let s := Float32.ofBits (bits + 1).toUInt32
    if high < s * unitLast + low then fittingScale low high bits else s

def closed (low high : Float32) : Except RangeFault (Draw Float32) :=
  let scale := (high - low) / unitLast
  if low ≤ high ∧ scale.isFinite then
    let scale := fittingScale low high scale.toBits.toNat
    .ok do
      let u ← unit
      return u * scale + low
  else .error ⟨low, high⟩

/-- Which third of the numbers below `2 ^ 64` a pair of words lies in; the last quarter of each is drawn anew. -/
def thirdWithin : Nat → Draw (Fin 3)
  | 0 => pure 0
  | tries + 1 => do
    let v ← pair
    if v * 3 % UInt64.size < 3 * UInt64.size / 4 then pure (Fin.ofNat 3 (v * 3 / UInt64.size))
    else thirdWithin tries

def third : Draw (Fin 3) := thirdWithin retries

end Draw

end Woodland
