/-! Words of symbols and the rules that replace them. -/

namespace Woodland

abbrev Word := List Char

structure Grammar where
  start : Word
  rules : List (Char × Word)
deriving DecidableEq

namespace Grammar

def ofStart (w : Word) : Grammar := ⟨w, []⟩

def insertRule (c : Char) (image : Word) : List (Char × Word) → List (Char × Word)
  | [] => [(c, image)]
  | (d, other) :: rest =>
    if c < d then (c, image) :: (d, other) :: rest
    else if c = d then (c, image) :: rest
    else (d, other) :: insertRule c image rest

def withRule (g : Grammar) (c : Char) (image : Word) : Grammar :=
  { g with rules := insertRule c image g.rules }

def rule? (g : Grammar) (c : Char) : Option Word := g.rules.lookup c

def image (g : Grammar) (c : Char) : Word := (g.rule? c).getD [c]

end Grammar

end Woodland
