import Woodland.Grammar.Basic
import Woodland.Journal

/-!
Repeated replacement within a bound on the length. A pass that would outgrow the bound ends with the last
image that fits, and is the last pass.
-/

namespace Woodland

structure Expansion where
  symbols : Word
  truncated : Bool
deriving DecidableEq

namespace Expansion

def ofWord (w : Word) : Expansion := ⟨w, false⟩

def length (e : Expansion) : Nat := e.symbols.length

def count (e : Expansion) (c : Char) : Nat := e.symbols.count c

end Expansion

namespace Grammar

def defaultLimit : Nat := 65536

/-- Appends the images of a word while there is room for whole ones. -/
def replaceOnto (g : Grammar) (done : Array Char) (room : Nat) : Word → Expansion
  | [] => ⟨done.toList, false⟩
  | c :: rest =>
    let image := g.image c
    if image.length ≤ room then g.replaceOnto (done ++ image) (room - image.length) rest
    else ⟨done.toList, true⟩

def replaceAll (g : Grammar) (limit : Nat) (w : Word) : Expansion := g.replaceOnto #[] limit w

def pass (g : Grammar) (limit total : Nat) : Nat → Expansion → Logged Expansion
  | 0, e => pure e
  | left + 1, e =>
    if e.truncated then pure e
    else
      let next := g.replaceAll limit e.symbols
      if next.truncated then do
        Logged.note (.truncated next.length (total - left) total)
        return next
      else g.pass limit total left next

def expandWithin (g : Grammar) (passes limit : Nat) : Logged Expansion := do
  let e ← g.pass limit passes passes ⟨g.start.take limit, decide (limit < g.start.length)⟩
  Logged.note (.expanded g.start passes e.length)
  return e

def expand (g : Grammar) (passes : Nat) : Logged Expansion := g.expandWithin passes defaultLimit

end Grammar

end Woodland
