import Woodland.Decimal.Notation
import Woodland.Files.Fault
import Woodland.Tree.Shape

/-! Why a configuration is refused, and the words it is refused in. -/

namespace Woodland

inductive Refusal where
  | shape (v : Shape.Violation Float32)
  | iterationsNotNatural (x : Float)
  | treesNotNatural (x : Float)
  | treesAbove (x : Float)
  | targetAbove (n : Nat)
  | groundNotPositive (x : Float32)
  | marginNegative (x : Float32)
  | noRoom (margin ground : Float32)
  | separationNegative (x : Float32)
  | unknownSpecies (name : String)

inductive Error where
  | invalid (r : Refusal)
  | unknownParameter (name : String)
  | file (f : FileFault)
  | json

def maxTargetCount : Nat := 300

open Decimal in
def Shape.Violation.message : Shape.Violation Float32 → String
  | .tooManyIterations n => s!"iterations must be at most {maxIterations}, got {n}"
  | .angleNotFinite => "angle must be finite"
  | .notPositive p x => s!"{p.name} must be > 0, got {plainSingle x}"
  | .taperNegative x => s!"taper must be >= 0, got {plainSingle x}"
  | .densityOutside x => s!"leaf_density must be within 0.0 - 1.0, got {plainSingle x}"

open Decimal in
def Refusal.message : Refusal → String
  | shape v => v.message
  | iterationsNotNatural x => s!"iterations must be a non-negative integer, got {plainDouble x}"
  | treesNotNatural x => s!"num_trees must be a non-negative integer, got {plainDouble x}"
  | treesAbove x => s!"num_trees must be at most {maxTargetCount}, got {plainDouble x}"
  | targetAbove n => s!"target_count must be at most {maxTargetCount}, got {n}"
  | groundNotPositive x => s!"ground_half_size must be > 0, got {plainSingle x}"
  | marginNegative x => s!"edge_margin must be >= 0, got {plainSingle x}"
  | noRoom margin ground =>
    let (margin, ground) := (plainSingle margin, plainSingle ground)
    s!"edge_margin {margin} leaves no room on ground of half size {ground}"
  | separationNegative x => s!"min_separation must be >= 0, got {plainSingle x}"
  | unknownSpecies name =>
    s!"unknown grammar preset '{name}', expected one of: simple3d, minimal3d, basic3d"

def Error.message : Error → String
  | invalid r => "Invalid configuration: " ++ r.message
  | unknownParameter name => "Unknown parameter: " ++ name
  | file f => "IO error: " ++ f.message
  | json => "JSON error: not the expected document"

end Woodland
