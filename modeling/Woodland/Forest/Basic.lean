import Woodland.Scene.Camera
import Woodland.Scene.Renderer
import Woodland.Tree.Basic

/-! A forest, its ways of changing in place, and its frames. -/

namespace Woodland

structure Forest where
  settings : Settings
  generator : Generator
  trees : List Tree
deriving DecidableEq

/-- Why a forest could not be had: its settings are refused, or its plot is too wide to draw from. -/
inductive PlantingFault where
  | refused (e : Error)
  | range (f : RangeFault)

abbrev Planting := ExceptT PlantingFault Logged

/-- A reported change of a forest in place, which can fail. What it wrote before a fault stays written. -/
abbrev Change := ExceptT PlantingFault (StateT Forest Logged)

def Planting.ofExcept {α : Type} : Except Error α → Planting α
  | .ok a => pure a
  | .error e => throw (.refused e)

namespace Change

def ofExcept {α : Type} : Except Error α → Change α
  | .ok a => pure a
  | .error e => throw (.refused e)

def sites : Change (List Site) := do
  let f ← get
  match ← ((Plot.ofSettings f.settings).place f.settings.targetCount f.generator : Logged _) with
  | .error fault => throw (.range fault)
  | .ok (sites, g) =>
    set { f with generator := g }
    return sites

def growing {α : Type} (x : Growing α) : Change α := do
  let f ← get
  let (a, g) ← (x.run f.generator : Logged (α × Generator))
  set { f with generator := g }
  return a

def run (c : Change Unit) (f : Forest) : Planting Forest :=
  ExceptT.mk do
    let (r, f) ← StateT.run (ExceptT.run c) f
    return r.map fun () => f

end Change

namespace Forest

def regenerate : Change Unit := do
  let sites ← Change.sites
  let shape := (← get).settings.shape
  let trees ← Change.growing (sites.mapM (Tree.random · shape))
  modify fun f => { f with trees := trees }
  let f ← get
  (Logged.note (.generated f.trees.length f.settings.targetCount shape.iterations) : Logged Unit)

def generate (s : Settings) : Planting Forest := do
  Planting.ofExcept s.validate
  regenerate.run ⟨s, .ofSeed s.seed, []⟩

def reseed (seed : UInt64) : Change Unit := do
  modify fun f => { f with settings := f.settings.withSeed seed, generator := .ofSeed seed }
  regenerate

def reshape (shape : Shape Float32) : Change Unit := do
  Change.ofExcept shape.validate
  modify fun f => { f with settings := f.settings.withShape shape }
  let trees ← Change.growing ((← get).trees.mapM (Tree.regrow · shape))
  modify fun f => { f with trees := trees }
  (Logged.note (.reshaped trees.length) : Logged Unit)

def retarget (n : Nat) : Change Unit := do
  let s := (← get).settings.withTargetCount n
  Change.ofExcept s.validate
  modify fun f => { f with settings := s }
  regenerate

def set (name : String) (x : Float) : Change Unit := do
  let s ← Change.ofExcept ((← get).settings.set name x)
  if name = Settings.treesName then retarget s.targetCount else reshape s.shape

def groundInstruction (f : Forest) : Instruction Float32 :=
  let half := f.settings.groundHalfSize
  .ground (Mat4.identity.scale ⟨half, 1.0, half⟩)

def instructions (f : Forest) : Logged (Array (Instruction Float32)) :=
  f.trees.foldlM (fun is t => do return is ++ (← t.draw f.settings.shape).instructions)
    #[f.groundInstruction]

def render {σ : Type} [Renderer Float32 σ] (f : Forest) (c : Camera) (r : σ) : Logged σ := do
  let r := Renderer.draw f.groundInstruction (Renderer.beginFrame c.viewProjection r)
  let r ← f.trees.foldlM
    (fun r t => do return Renderer.drawAll (← t.draw f.settings.shape).instructions r) r
  return Renderer.endFrame (α := Float32) r

end Forest

end Woodland
