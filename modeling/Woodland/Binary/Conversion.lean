import Woodland.Binary.Format

/-! Values of machine floats, and roundings between the two widths and to and from whole numbers. -/

namespace Woodland.Binary

def ofSingle (x : Float32) : Value := single.value x.toBits.toNat

def ofDouble (x : Float) : Value := double.value x.toBits.toNat

def toSingle (v : Value) : Float32 := Float32.ofBits (single.ofValue v).toUInt32

def toDouble (v : Value) : Float := Float.ofBits (double.ofValue v).toUInt64

def narrow (x : Float) : Float32 := toSingle (ofDouble x)

def singleOfInt (n : Int) : Float32 :=
  Float32.ofBits (single.round (decide (n < 0)) n.natAbs 1).toUInt32

def doubleOfNat (n : Nat) : Float := Float.ofBits (double.round false n 1).toUInt64

def scaleSingle (x : Float32) (factor : Nat) : Value :=
  match ofSingle x with
  | .finite negative m e => single.value (single.ofValue (.finite negative (m * factor) e))
  | v => v

end Woodland.Binary
