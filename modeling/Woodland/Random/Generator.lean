import Woodland.Random.ChaCha

/-! The random stream: words of a keystream whose key is spread out of a seed. -/

namespace Woodland

structure Generator where
  key : ChaCha.Key
  /-- Number of the first block that no word was taken of yet. -/
  block : UInt64
  pending : List UInt32
deriving DecidableEq

namespace Generator

def spread (s : UInt64) : UInt32 × UInt64 :=
  let s := s * 6364136223846793005 + 11634580027462260723
  let x := (((s >>> 18) ^^^ s) >>> 27).toUInt32
  let turn := (s >>> 59).toUInt32
  ((x >>> turn) ||| (x <<< (32 - turn)), s)

def spreadRow (s : UInt64) : ChaCha.Row × UInt64 :=
  let (a, s) := spread s
  let (b, s) := spread s
  let (c, s) := spread s
  let (d, s) := spread s
  (⟨a, b, c, d⟩, s)

def ofSeed (seed : UInt64) : Generator :=
  let (upper, s) := spreadRow seed
  let (lower, _) := spreadRow s
  ⟨⟨upper, lower⟩, 0, []⟩

end Generator

abbrev Draw := StateM Generator

namespace Draw

def word : Draw UInt32 := fun g =>
  match g.pending with
  | w :: rest => (w, { g with pending := rest })
  | [] =>
    let s := g.key.block g.block
    (s.top.a, { g with block := g.block + 1, pending := s.words.tail })

def pair : Draw Nat := do
  let low ← word
  let high ← word
  return low.toNat + high.toNat * UInt32.size

def times {α : Type} (n : Nat) (d : Draw α) : Draw (List α) := (List.replicate n ()).mapM fun _ => d

end Draw

end Woodland
