import Woodland.Forest.Settings
import Woodland.Json.Fields
import Woodland.Json.Number
import Woodland.Json.Printer
import Woodland.Json.Reader

/-! Settings and shapes as documents. What a document leaves out has its default. -/

namespace Woodland

namespace Shape

def fieldNames : List String := Parameter.all.map Parameter.name

def toJson (s : Shape Float32) : Json :=
  .ofMembers
    [(Parameter.iterations.name, .ofNat s.iterations),
      (Parameter.angle.name, .ofSingle s.angle),
      (Parameter.length.name, .ofSingle s.length),
      (Parameter.trunkScale.name, .ofSingle s.trunkScale),
      (Parameter.taper.name, .ofSingle s.taper),
      (Parameter.branchScale.name, .ofSingle s.branchScale),
      (Parameter.leafDensity.name, .ofSingle s.leafDensity)]

def ofJson? (v : Json) : Option (Shape Float32) := do
  let d : Shape Float32 := default
  match ← v.fields? fieldNames with
  | [iterations, angle, length, trunkScale, taper, branchScale, leafDensity] =>
    return {
      iterations := ← Json.given? (Json.natural? iterationBound) d.iterations iterations
      angle := ← Json.given? Json.single? d.angle angle
      length := ← Json.given? Json.single? d.length length
      trunkScale := ← Json.given? Json.single? d.trunkScale trunkScale
      taper := ← Json.given? Json.single? d.taper taper
      branchScale := ← Json.given? Json.single? d.branchScale branchScale
      leafDensity := ← Json.given? Json.single? d.leafDensity leafDensity }
  | _ => none

end Shape

namespace Settings

def fieldNames : List String :=
  ["seed", "target_count", "ground_half_size", "min_separation", "edge_margin", "tree"]

def toJson (s : Settings) : Json :=
  .ofMembers
    [("seed", .ofNat s.seed.toNat), ("target_count", .ofNat s.targetCount),
      ("ground_half_size", .ofSingle s.groundHalfSize),
      ("min_separation", .ofSingle s.minSeparation), ("edge_margin", .ofSingle s.edgeMargin),
      ("tree", s.shape.toJson)]

def ofJson? (v : Json) : Option Settings := do
  let d : Settings := default
  match ← v.fields? fieldNames with
  | [seed, targetCount, groundHalfSize, minSeparation, edgeMargin, shape] =>
    return {
      seed := (← Json.given? (Json.natural? Json.wordBound) d.seed.toNat seed).toUInt64
      targetCount := ← Json.given? (Json.natural? Json.wordBound) d.targetCount targetCount
      groundHalfSize := ← Json.given? Json.single? d.groundHalfSize groundHalfSize
      minSeparation := ← Json.given? Json.single? d.minSeparation minSeparation
      edgeMargin := ← Json.given? Json.single? d.edgeMargin edgeMargin
      shape := ← Json.given? Shape.ofJson? d.shape shape }
  | _ => none

def text (s : Settings) : String := s.toJson.pretty

def ofText (t : String) : Except Error Settings := do
  match (Json.read? t).bind ofJson? with
  | none => throw .json
  | some s =>
    s.validate
    return s

end Settings

end Woodland
