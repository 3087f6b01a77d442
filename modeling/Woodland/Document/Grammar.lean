import Woodland.Grammar.Species
import Woodland.Json.Fields

/-! Grammars and species as documents. Nothing may be left out. -/

namespace Woodland

namespace Grammar

def toJson (g : Grammar) : Json :=
  let rules := g.rules.map fun (c, image) => (String.singleton c, .ofString (String.ofList image))
  .ofMembers [("axiom", .ofString (String.ofList g.start)), ("rules", .ofMembers rules)]

def word? (v : Json) : Option Word := v.text?.map String.toList

/-- One rule a member; of two for the same symbol the later one counts. -/
def addMember? (g : Grammar) (member : Option String × Json) : Option Grammar := do
  let name ← member.1
  match name.toList with
  | [c] => return g.withRule c (← word? member.2)
  | _ => none

def withRules? (g : Grammar) : Json → Option Grammar
  | .object ms => ms.foldlM addMember? g
  | _ => none

def ofJson? (v : Json) : Option Grammar := do
  match ← v.fields? ["axiom", "rules"] with
  | [some start, some rules] => withRules? (.ofStart (← word? start)) rules
  | _ => none

end Grammar

namespace Species

def toJson (s : Species) : Json := .ofString s.name

def ofJson? (v : Json) : Option Species := do
  match ← v.variant? with
  | (name, none) | (name, some .null) => named? name
  | _ => none

end Species

end Woodland
