import Woodland.Decimal.Numeral
import Woodland.Decimal.Shortest

/-! Written forms of numbers: plain, with one place, and as in a data file. -/

namespace Woodland.Decimal

open Binary (Value Format)

def placePoint (ds : List Digit) : Int → List Digit × List Digit
  | .ofNat 0 => ([.zero], ds)
  | .ofNat p => (ds.take p ++ List.replicate (p - ds.length) .zero, ds.drop p)
  | .negSucc p => ([.zero], List.replicate (p + 1) .zero ++ ds)

def signed (negative : Bool) (text : List Char) : List Char :=
  if negative then '-' :: text else text

/-- Never an exponent, and no point after a whole number. -/
def plain (f : Format) : Value → List Char
  | .nan => "NaN".toList
  | .infinite negative => signed negative "inf".toList
  | .finite negative 0 _ => signed negative ['0']
  | .finite negative m e =>
    let x := shortest f .up m e
    let ds := digits x.digits
    let (whole, fraction) := placePoint ds (ds.length + x.exponent)
    signed negative (digitText whole ++ if fraction.isEmpty then [] else '.' :: digitText fraction)

def onePlace : Value → List Char
  | .nan => "NaN".toList
  | .infinite negative => signed negative "inf".toList
  | .finite negative m e =>
    let (n, d) := Binary.lower (10 * m) 1 (-e)
    let tenths := Binary.roundEven n d
    signed negative (digitText (digits (tenths / 10)) ++ '.' :: digitText (digits (tenths % 10)))

/-- The form of a data file: always a place after the point, or an exponent when far from one. -/
def numeral (f : Format) : Value → Option Numeral
  | .finite negative 0 _ => some ⟨negative, [.zero], [.zero], none⟩
  | .finite negative m e =>
    let x := shortest f .even m e
    let ds := digits x.digits
    let point := ds.length + x.exponent
    if -6 < point ∧ point ≤ 13 then
      let (whole, fraction) := placePoint ds point
      some ⟨negative, whole, if fraction.isEmpty then [.zero] else fraction, none⟩
    else
      some ⟨negative, ds.take 1, ds.drop 1, some (decide (point < 1), digits (point - 1).natAbs)⟩
  | _ => none

def plainSingle (x : Float32) : String := String.ofList (plain Binary.single (Binary.ofSingle x))

def plainDouble (x : Float) : String := String.ofList (plain Binary.double (Binary.ofDouble x))

def onePlaceSingle (x : Float32) : String := String.ofList (onePlace (Binary.ofSingle x))

end Woodland.Decimal
