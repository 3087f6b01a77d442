import Woodland.Decimal.Notation
import Woodland.Json.Value

/-!
Numbers of documents as binary numbers. Digits fill one word of 64 bits, that word is rounded, and the
power of ten is a second rounding; a whole number that fits a word is rounded once.
-/

namespace Woodland.Json

open Decimal (Digit Numeral)

def wordBound : Nat := UInt64.size

def fill (n : Nat) : List Digit → Nat × List Digit
  | [] => (n, [])
  | d :: ds => if n * 10 + d.val < wordBound then fill (n * 10 + d.val) ds else (n, d :: ds)

/-- The significand that fits a word, and the power of ten that goes with it. -/
def wordParts (n : Numeral) : Nat × Int :=
  let (s, unread) := fill 0 n.whole
  let (s, rest) := fill s n.fraction
  (s, n.writtenExponent + unread.length - (n.fraction.length - rest.length))

def topPower : Nat := 308

def powerOfTen (k : Nat) : Nat := Binary.double.nearest (Nat.pow 10 k) 1

def scaled? (s : Nat) (e : Int) : Option Nat :=
  let f := Binary.double.nearest s 1
  if s = 0 then some 0
  else if topPower < e then none
  else if 0 ≤ e then
    let x := Binary.double.times f (powerOfTen e.toNat)
    if x = Binary.double.infinity then none else some x
  else if -topPower ≤ e then some (Binary.double.dividedBy f (powerOfTen (-e).toNat))
  else if -2 * topPower ≤ e then
    let x := Binary.double.dividedBy f (powerOfTen topPower)
    some (Binary.double.dividedBy x (powerOfTen (-e - topPower).toNat))
  else some 0

def readDouble? (n : Numeral) : Option Float := do
  let (s, e) := wordParts n
  let x ← scaled? s e
  return Float.ofBits ((if n.negative then Binary.double.signBit else 0) + x).toUInt64

def readInt? (n : Numeral) : Option Int :=
  if n.fraction.isEmpty && n.exponent.isNone then
    let m := Decimal.ofDigits n.whole
    if n.negative then
      if 0 < m ∧ m ≤ wordBound / 2 then some (-m) else none
    else if m < wordBound then some m else none
  else none

def single? : Json → Option Float32
  | number n =>
    match readInt? n with
    | some m => some (Binary.singleOfInt m)
    | none => (readDouble? n).map Binary.narrow
  | _ => none

def double? : Json → Option Float
  | number n => readDouble? n
  | _ => none

def natural? (bound : Nat) : Json → Option Nat
  | number n =>
    match readInt? n with
    | some (.ofNat m) => if m < bound then some m else none
    | _ => none
  | _ => none

def ofSingle (x : Float32) : Json :=
  match Decimal.numeral Binary.single (Binary.ofSingle x) with
  | some n => number n
  | none => null

end Woodland.Json
