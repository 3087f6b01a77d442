/-! Numbers as words of 32 bits, and words as bytes. -/

namespace Woodland

namespace Binary

/-- The word of a result that is no number: a quiet one, with its sign set. -/
def indefinite : UInt32 := 0xffc00000

def bytesOfWord (w : UInt32) : List UInt8 :=
  [w.toUInt8, (w >>> 8).toUInt8, (w >>> 16).toUInt8, (w >>> 24).toUInt8]

@[simp] theorem length_bytesOfWord (w : UInt32) : (bytesOfWord w).length = 4 := rfl

end Binary

class ToWord (α : Type) where
  word : α → UInt32

instance : ToWord Float32 where
  word x := if x.isNaN then Binary.indefinite else x.toBits

instance : ToWord UInt32 where
  word := id

end Woodland
