import Woodland.Grammar.Basic

/-! The grammars that trees grow from. -/

namespace Woodland

inductive Species where
  | simple3d
  | minimal3d
  | basic3d
deriving DecidableEq

namespace Species

instance : Inhabited Species := ⟨simple3d⟩

def all : List Species := [simple3d, minimal3d, basic3d]

def name : Species → String
  | simple3d => "simple3d"
  | minimal3d => "minimal3d"
  | basic3d => "basic3d"

def grammar : Species → Grammar
  | simple3d => .withRule (.ofStart ['F']) 'F' "F[+F][-F][/F][\\F]".toList
  | minimal3d => .withRule (.withRule (.ofStart ['X']) 'X' "F[+X][-X][/X]".toList) 'F' ['F']
  | basic3d => .withRule (.ofStart ['F']) 'F' "FF[+F][-F][\\F]".toList

def named? (name : String) : Option Species := all.find? (·.name == name)

def ofName? (name : String) : Option Species :=
  named? (String.ofList (name.toList.map Char.toLower))

end Species

end Woodland
