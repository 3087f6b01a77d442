import Woodland.Json.Value

/-! Records: an object with members in any order, or an array of the values in the order of the fields. -/

namespace Woodland.Json

def member? (ms : List (Option String × Json)) (name : String) : Option (Option Json) :=
  match ms.filter (·.1 = some name) with
  | [] => some none
  | [(_, v)] => some (some v)
  | _ => none

/-- What is given for each named field; other members are left aside, more values are not. -/
def fields? (names : List String) : Json → Option (List (Option Json))
  | object ms => if ms.all (·.1.isSome) then names.mapM (member? ms) else none
  | array vs =>
    if vs.length ≤ names.length then
      some (vs.map some ++ List.replicate (names.length - vs.length) none)
    else none
  | _ => none

def given? {α : Type} (read : Json → Option α) (default : α) : Option Json → Option α
  | none => some default
  | some v => read v

/-- A name that stands alone or with null for its content; or a name with a content of its own. -/
def variant? : Json → Option (String × Option Json)
  | text (some s) => some (s, none)
  | object [(some s, v)] => some (s, some v)
  | _ => none

def text? : Json → Option String
  | text s => s
  | _ => none

end Woodland.Json
