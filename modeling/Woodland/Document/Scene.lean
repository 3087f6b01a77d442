import Woodland.Json.Fields
import Woodland.Json.Number
import Woodland.Scene.FrameCount

/-! Instructions and frame counts as documents. Nothing may be left out. -/

namespace Woodland

def Json.singles? : Json → Option (List Float32)
  | .array vs => vs.mapM Json.single?
  | _ => none

namespace Mesh

def all : List Mesh := [branch, leaf, ground]

def name : Mesh → String
  | branch => "Branch"
  | leaf => "Leaf"
  | ground => "Ground"

def toJson (m : Mesh) : Json := .ofString m.name

def ofJson? (v : Json) : Option Mesh := do
  match ← v.variant? with
  | (name, none) | (name, some .null) => all.find? (·.name == name)
  | _ => none

end Mesh

namespace Color

def toJson (c : Color Float32) : Json := .array (c.entries.map .ofSingle)

def ofJson? (v : Json) : Option (Color Float32) := do ofEntries? (← v.singles?)

end Color

namespace Material

def toJson : Material Float32 → Json
  | textured c => .ofMembers [("Textured", .ofMembers [("fallback", c.toJson)])]
  | solid c => .ofMembers [("Solid", c.toJson)]

def ofJson? (v : Json) : Option (Material Float32) := do
  match ← v.variant? with
  | ("Textured", some v) =>
    match ← v.fields? ["fallback"] with
    | [some c] => textured <$> Color.ofJson? c
    | _ => none
  | ("Solid", some v) => solid <$> Color.ofJson? v
  | _ => none

end Material

namespace Mat4

def toJson (m : Mat4 Float32) : Json := .array (m.entries.map .ofSingle)

def ofJson? (v : Json) : Option (Mat4 Float32) := do ofEntries? (← v.singles?)

end Mat4

namespace Instruction

def toJson (i : Instruction Float32) : Json :=
  .ofMembers [("mesh", i.mesh.toJson), ("transform", i.transform.toJson), ("material", i.material.toJson)]

def ofJson? (v : Json) : Option (Instruction Float32) := do
  match ← v.fields? ["mesh", "transform", "material"] with
  | [some mesh, some transform, some material] =>
    return ⟨← Mesh.ofJson? mesh, ← Mat4.ofJson? transform, ← Material.ofJson? material⟩
  | _ => none

end Instruction

def FrameCount.toJson (c : FrameCount) : Json :=
  .ofMembers
    [("frames", .ofNat c.frames), ("branches", .ofNat c.branches), ("leaves", .ofNat c.leaves),
      ("ground", .ofNat c.ground)]

end Woodland
