import Woodland.Decimal.Digit
import Woodland.Binary.Conversion

/-! Written numbers, and the binary number nearest to one. -/

namespace Woodland.Decimal

/-- A number as it is written: `-12.50e+3` is `⟨true, [1, 2], [5, 0], some (false, [3])⟩`. -/
structure Numeral where
  negative : Bool
  whole : List Digit
  fraction : List Digit
  exponent : Option (Bool × List Digit)
deriving DecidableEq

namespace Numeral

def significand (n : Numeral) : Nat := ofDigits (n.whole ++ n.fraction)

def writtenExponent (n : Numeral) : Int :=
  match n.exponent with
  | none => 0
  | some (negative, ds) => if negative then -ofDigits ds else ofDigits ds

def scale (n : Numeral) : Int := n.writtenExponent - n.fraction.length

/-- A number below `10 ^ -400` is nearest to zero, and from `10 ^ 400` on to infinity. -/
def reach : Nat := 400

def nearestDouble (n : Numeral) : Float :=
  let s := n.significand
  let top : Int := (digits s).length + n.scale
  let bits :=
    if s = 0 ∨ top ≤ -(reach : Int) then Binary.double.round n.negative 0 1
    else if reach < top then Binary.double.round n.negative (Nat.pow 10 reach) 1
    else match n.scale with
      | .ofNat k => Binary.double.round n.negative (s * Nat.pow 10 k) 1
      | .negSucc k => Binary.double.round n.negative s (Nat.pow 10 (k + 1))
  Float.ofBits bits.toUInt64

end Numeral

def natural? (bound : Nat) (text : List Char) : Option Nat :=
  let digits := match text with | '+' :: rest => rest | _ => text
  match spanDigits digits with
  | ([], _) => none
  | (ds, []) => if ofDigits ds < bound then some (ofDigits ds) else none
  | _ => none

def spanSign : List Char → Bool × List Char
  | '-' :: rest => (true, rest)
  | '+' :: rest => (false, rest)
  | text => (false, text)

def lowercase (text : List Char) : List Char := text.map Char.toLower

def exponent? : List Char → Option (Option (Bool × List Digit))
  | [] => some none
  | c :: rest =>
    if c = 'e' ∨ c = 'E' then
      let (negative, rest) := spanSign rest
      match spanDigits rest with
      | (d :: ds, []) => some (some (negative, d :: ds))
      | _ => none
    else none

def numeral? (negative : Bool) (text : List Char) : Option Numeral := do
  let (whole, rest) := spanDigits text
  let (fraction, rest) := match rest with
    | '.' :: rest => spanDigits rest
    | _ => ([], rest)
  if whole.isEmpty && fraction.isEmpty then none
  else
    let exponent ← exponent? rest
    some ⟨negative, whole, fraction, exponent⟩

def double? (text : List Char) : Option Float :=
  let (negative, body) := spanSign text
  let name := lowercase body
  if name = "inf".toList ∨ name = "infinity".toList then
    some (Binary.toDouble (.infinite negative))
  else if name = "nan".toList then some (Binary.toDouble .nan)
  else (numeral? negative body).map Numeral.nearestDouble

end Woodland.Decimal
