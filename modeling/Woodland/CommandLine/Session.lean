import Woodland.CommandLine.Options
import Woodland.Document.SettingsFile
import Woodland.Forest.Basic
import Woodland.Scene.FrameCount
import Woodland.Scene.InstanceBatch

/-! A run of the program: from its arguments to what it prints. -/

namespace Woodland.CommandLine

structure Report where
  exitCode : UInt8
  output : List String
  errors : List String

def usage : List String :=
  ["generate_forest - L-system forest generation utility",
    "",
    "Usage: generate_forest [OPTIONS]",
    "",
    "Options:",
    "    -c, --config <FILE>         Load forest configuration from JSON",
    "    -w, --write-config <FILE>   Write the effective configuration to JSON",
    "    --seed <SEED>               RNG seed (default: 12345)",
    "    -n, --count <N>             Target number of trees (default: 70, max: 300)",
    "    -i, --iterations <N>        Grammar iterations (default: 3, max: 6)",
    "    -p, --param <NAME=VALUE>    Set any named parameter (repeatable)",
    "    -h, --help                  Show this help message",
    "",
    "Parameters: iterations, angle, length, trunk_scale, taper, branch_scale,",
    "            leaf_density, num_trees",
    "",
    "Example:",
    "    generate_forest --seed 42 -n 30",
    "    generate_forest -c forest.json -p angle=35 -p leaf_density=0.5"]

def Options.overlay (o : Options) (s : Settings) : Except Error Settings := do
  let s := { s with seed := o.seed.getD s.seed, targetCount := o.count.getD s.targetCount }
  let s ← match o.iterations with
    | some n => s.set Shape.Parameter.iterations.name (Binary.doubleOfNat n)
    | none => .ok s
  let s ← o.params.foldlM (fun s (name, x) => s.set name x) s
  s.validate
  return s

structure Preparation where
  settings : Settings
  output : List String

def heading (s : Settings) : List String :=
  let ground := Decimal.plainSingle s.groundHalfSize
  let separation := Decimal.plainSingle s.minSeparation
  let angle := Decimal.plainSingle s.shape.angle
  let density := Decimal.plainSingle s.shape.leafDensity
  ["Forest Generation Utility",
    "=========================",
    s!"Seed: {s.seed.toNat}",
    s!"Target trees: {s.targetCount}",
    s!"Ground: {ground}m half size, {separation}m min separation",
    s!"Iterations: {s.shape.iterations}  Angle: {angle}°  Leaf density: {density}",
    ""]

section

variable {m : Type → Type} [Monad m] [FileAccess m]

def Options.settings (o : Options) : m (Except Error Settings) := do
  match o.config with
  | none => return o.overlay default
  | some path => return (← Settings.load path).bind o.overlay

def Options.writeSettings (o : Options) (s : Settings) : m (Except Error (List String)) := do
  match o.writeConfig with
  | none => return .ok []
  | some path => return (← s.save path).map fun () => ["Wrote configuration to " ++ path]

def prepare (arguments : List String) : m (Except Report Preparation) := do
  match Request.ofArguments arguments with
  | .error fault => return .error ⟨1, [], ["Error: " ++ fault.message, ""] ++ usage⟩
  | .ok .help => return .error ⟨0, [], usage⟩
  | .ok (.run o) =>
    match ← o.settings with
    | .error e => return .error ⟨1, [], ["Error: " ++ e.message]⟩
    | .ok s =>
      match ← o.writeSettings s with
      | .error e => return .error ⟨1, [], ["Error writing config: " ++ e.message]⟩
      | .ok lines => return .ok ⟨s, lines ++ heading s⟩

end

structure Summary where
  speciesCounts : List (Species × Nat)
  placed : Nat
  target : Nat
  branches : Nat
  leaves : Nat
  uploadBytes : Nat
  truncated : Nat

namespace Summary

def ofForest (f : Forest) (count : FrameCount) (batch : InstanceBatch) : Summary where
  speciesCounts := Species.all.map fun s => (s, f.trees.countP (·.species = s))
  placed := f.trees.length
  target := f.settings.targetCount
  branches := count.branches
  leaves := count.leaves
  uploadBytes := batch.byteCount .branch + batch.byteCount .leaf + batch.byteCount .ground
  truncated := f.trees.countP (·.expansion.truncated)

def padded (width : Nat) (s : String) : String :=
  s ++ String.ofList (List.replicate (width - s.length) ' ')

def lines (s : Summary) : List String :=
  let species := s.speciesCounts.map fun (species, n) => "  " ++ padded 10 species.name ++ s!" {n}"
  let cut := if 0 < s.truncated then [s!"  Truncated expansions: {s.truncated}"] else []
  "Trees by preset:" :: species ++
    ["", "Summary:",
      s!"  Trees placed: {s.placed} of {s.target}",
      s!"  Branch instances: {s.branches}",
      s!"  Leaf instances: {s.leaves}",
      s!"  Instance upload: {s.uploadBytes / 1024} KiB"] ++ cut

end Summary

def frames (f : Forest) : Logged (FrameCount × InstanceBatch) := do
  let count ← f.render default FrameCount.empty
  let batch ← f.render default InstanceBatch.empty
  return (count, batch)

def closing (f : Forest) : List String :=
  let (count, batch) := (frames f).value
  (Summary.ofForest f count batch).lines

def Preparation.forest (p : Preparation) : Except Report Forest :=
  (Forest.generate p.settings).run.value.mapError fun
    | .refused e => ⟨1, [], ["Error generating forest: " ++ e.message]⟩
    | .range _ => ⟨101, [], ["The plot is too wide to place trees on"]⟩

def Preparation.finish (p : Preparation) : Report :=
  match p.forest with
  | .error r => { r with output := p.output ++ r.output }
  | .ok f => ⟨0, p.output ++ closing f, []⟩

def run {m : Type → Type} [Monad m] [FileAccess m] (arguments : List String) : m Report := do
  match ← prepare arguments with
  | .error report => return report
  | .ok p => return p.finish

end Woodland.CommandLine
