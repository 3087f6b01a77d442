/-!
Binary interchange formats: what a bit pattern means, and which pattern is nearest to a quotient of
natural numbers.
-/

namespace Woodland.Binary

def roundEven (n d : Nat) : Nat :=
  let q := n / d
  let r := n % d
  if 2 * r < d ∨ 2 * r = d ∧ q % 2 = 0 then q else q + 1

/-- `n / (d * 2 ^ e)` as a quotient of natural numbers. -/
def lower (n d : Nat) : Int → Nat × Nat
  | .ofNat e => (n, d * Nat.pow 2 e)
  | .negSucc e => (n * Nat.pow 2 (e + 1), d)

/-- A format has so many bits in a significand, the leading one included, and in an exponent. -/
structure Format where
  precision : Nat
  exponentBits : Nat

def single : Format := ⟨24, 8⟩
def double : Format := ⟨53, 11⟩

inductive Value where
  | nan
  | infinite (negative : Bool)
  | finite (negative : Bool) (significand : Nat) (exponent : Int)
deriving DecidableEq

namespace Format

variable (f : Format)

def leastExponent : Int := 3 - Nat.pow 2 (f.exponentBits - 1) - f.precision

def leading : Nat := Nat.pow 2 (f.precision - 1)

/-- Patterns of magnitudes are ordered as the magnitudes are, and this one ends the finite ones. -/
def infinity : Nat := (Nat.pow 2 f.exponentBits - 1) * f.leading

def signBit : Nat := Nat.pow 2 f.exponentBits * f.leading

def value (bits : Nat) : Value :=
  let negative := decide (f.signBit ≤ bits)
  let magnitude := bits % f.signBit
  if magnitude < f.infinity then
    let field := magnitude / f.leading
    let fraction := magnitude % f.leading
    if field = 0 then .finite negative fraction f.leastExponent
    else .finite negative (f.leading + fraction) (f.leastExponent + (field - 1))
  else if magnitude = f.infinity then .infinite negative
  else .nan

def exponentFor (n d : Nat) : Int :=
  let e : Int := n.log2 - d.log2 - (f.precision - 1)
  let (n, d) := lower n d e
  max f.leastExponent (if n < f.leading * d then e - 1 else e)

def nearest (n d : Nat) : Nat :=
  if n = 0 then 0
  else
    let e := f.exponentFor n d
    let (n, d) := lower n d e
    min f.infinity ((e - f.leastExponent).toNat * f.leading + roundEven n d)

def round (negative : Bool) (n d : Nat) : Nat :=
  (if negative then f.signBit else 0) + f.nearest n d

def ofValue : Value → Nat
  | .nan => f.infinity + f.leading / 2
  | .infinite negative => (if negative then f.signBit else 0) + f.infinity
  | .finite negative m e =>
    let (n, d) := lower m 1 (-e)
    f.round negative n d

def times (x y : Nat) : Nat :=
  match f.value x, f.value y with
  | .finite _ m e, .finite _ m' e' =>
    let (n, d) := lower (m * m') 1 (-(e + e'))
    f.nearest n d
  | _, _ => f.infinity

def dividedBy (x y : Nat) : Nat :=
  match f.value x, f.value y with
  | .finite _ m e, .finite _ m' e' =>
    let (n, d) := lower m m' (e' - e)
    f.nearest n d
  | _, _ => f.infinity

end Format

namespace Value

def natural? : Value → Option Nat
  | .finite negative m e =>
    let (n, d) := lower m 1 (-e)
    if n % d = 0 ∧ (negative = false ∨ n = 0) then some (n / d) else none
  | _ => none

/-- The nearest natural number, a half going up, held to `0 … limit`. -/
def count (limit : Nat) : Value → Nat
  | .finite false m e =>
    let (n, d) := lower m 1 (-e)
    min limit ((2 * n + d) / (2 * d))
  | .infinite false => limit
  | _ => 0

end Value

end Woodland.Binary
