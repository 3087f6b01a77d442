import Woodland.Binary.Format

/-! The fewest decimal digits that still single out a binary number. -/

namespace Woodland.Decimal

structure Scaled where
  digits : Nat
  exponent : Int
deriving DecidableEq

inductive Tie where
  | up
  | even
deriving DecidableEq

def digitCount (n : Nat) : Nat :=
  if n < 10 then 1 else digitCount (n / 10) + 1

/-- The least `d` with `n / d < 10 ^ d`, where neither is zero. -/
def magnitude (n d : Nat) : Int :=
  if d ≤ n then digitCount (n / d) else 1 - digitCount ((d - 1) / n)

def tenths (n d : Nat) : Int → Nat × Nat
  | .ofNat k => (n, d * Nat.pow 10 k)
  | .negSucc k => (n * Nat.pow 10 (k + 1), d)

structure Interval where
  value : Nat
  below : Nat
  above : Nat
  closed : Bool
  scale : Nat

/-- All that rounds to `m * 2 ^ e`, in quarters of the last place. -/
def Interval.around (f : Binary.Format) (m : Nat) (e : Int) : Interval :=
  let (unit, scale) := Binary.lower 1 1 (2 - e)
  { value := 4 * m * unit
    below := (if m = f.leading ∧ f.leastExponent < e then 4 * m - 1 else 4 * m - 2) * unit
    above := (4 * m + 2) * unit
    closed := m % 2 = 0
    scale := scale }

def Interval.admits (i : Interval) (n d c : Nat) : Bool :=
  let (below, above, x) := (i.below * n, i.above * n, c * d)
  if i.closed then below ≤ x ∧ x ≤ above else below < x ∧ x < above

def Interval.onGrid? (i : Interval) (tie : Tie) (k : Int) : Option Scaled :=
  let (n, d) := tenths 1 i.scale k
  let c := i.value * n / d
  let r := i.value * n % d
  let upper := 2 * r > d ∨ 2 * r = d ∧ (tie = .up ∨ c % 2 = 1)
  match i.admits n d c, i.admits n d (c + 1) with
  | true, true => some ⟨if upper then c + 1 else c, k⟩
  | true, false => some ⟨c, k⟩
  | false, true => some ⟨c + 1, k⟩
  | false, false => none

def Scaled.carry (count : Nat) (x : Scaled) : Scaled :=
  if x.digits = Nat.pow 10 count then ⟨1, x.exponent + count⟩ else x

/-- Seventeen digits single out every number of either width. -/
def shortest (f : Binary.Format) (tie : Tie) (m : Nat) (e : Int) : Scaled :=
  let i := Interval.around f m e
  let d := magnitude i.value i.scale
  let found := (List.range' 1 17).findSome? fun (count : Nat) =>
    (i.onGrid? tie (d - count)).map (·.carry count)
  found.getD ⟨0, 0⟩

end Woodland.Decimal
