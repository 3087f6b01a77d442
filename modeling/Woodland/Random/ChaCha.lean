/-! A keystream of twelve rounds: blocks of sixteen words from a key and a block number. -/

namespace Woodland.ChaCha

structure Row where
  a : UInt32
  b : UInt32
  c : UInt32
  d : UInt32
deriving DecidableEq

namespace Row

def add (r s : Row) : Row := ⟨r.a + s.a, r.b + s.b, r.c + s.c, r.d + s.d⟩

def rotateWord (n x : UInt32) : UInt32 := (x <<< n) ||| (x >>> (32 - n))

def mix (n : UInt32) (r s : Row) : Row :=
  ⟨rotateWord n (r.a ^^^ s.a), rotateWord n (r.b ^^^ s.b), rotateWord n (r.c ^^^ s.c),
    rotateWord n (r.d ^^^ s.d)⟩

def turn (r : Row) : Row := ⟨r.b, r.c, r.d, r.a⟩

def words (r : Row) : List UInt32 := [r.a, r.b, r.c, r.d]

end Row

structure Block where
  top : Row
  upper : Row
  lower : Row
  bottom : Row
deriving DecidableEq

namespace Block

def add (s t : Block) : Block :=
  ⟨s.top.add t.top, s.upper.add t.upper, s.lower.add t.lower, s.bottom.add t.bottom⟩

def columns (s : Block) : Block :=
  let top := s.top.add s.upper
  let bottom := s.bottom.mix 16 top
  let lower := s.lower.add bottom
  let upper := s.upper.mix 12 lower
  let top := top.add upper
  let bottom := bottom.mix 8 top
  let lower := lower.add bottom
  ⟨top, upper.mix 7 lower, lower, bottom⟩

def doubleRound (s : Block) : Block :=
  let s := s.columns
  let s := columns ⟨s.top, s.upper.turn, s.lower.turn.turn, s.bottom.turn.turn.turn⟩
  ⟨s.top, s.upper.turn.turn.turn, s.lower.turn.turn, s.bottom.turn⟩

def words (s : Block) : List UInt32 :=
  s.top.words ++ s.upper.words ++ s.lower.words ++ s.bottom.words

end Block

structure Key where
  upper : Row
  lower : Row
deriving DecidableEq

def constants : Row := ⟨0x61707865, 0x3320646e, 0x79622d32, 0x6b206574⟩

def Key.block (k : Key) (number : UInt64) : Block :=
  let s : Block := ⟨constants, k.upper, k.lower, ⟨number.toUInt32, (number >>> 32).toUInt32, 0, 0⟩⟩
  s.add (Nat.repeat Block.doubleRound 6 s)

end Woodland.ChaCha
