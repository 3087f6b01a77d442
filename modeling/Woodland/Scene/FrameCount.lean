import Woodland.Scene.Renderer

/-! How many instances of each mesh the last frame had. -/

namespace Woodland

/-- No count has a bound; words of 64 bits agree over all histories of fewer than `2 ^ 64` calls and instructions. -/
structure FrameCount where
  frames : Nat
  branches : Nat
  leaves : Nat
  ground : Nat
deriving DecidableEq

namespace FrameCount

def empty : FrameCount := ⟨0, 0, 0, 0⟩

instance : Inhabited FrameCount := ⟨empty⟩

def total (c : FrameCount) : Nat := c.branches + c.leaves + c.ground

variable {α : Type}

def add (i : Instruction α) (c : FrameCount) : FrameCount :=
  match i.mesh with
  | .branch => { c with branches := c.branches + 1 }
  | .leaf => { c with leaves := c.leaves + 1 }
  | .ground => { c with ground := c.ground + 1 }

instance : Renderer α FrameCount where
  beginFrame _ c := ⟨c.frames + 1, 0, 0, 0⟩
  draw := add

def ofInstructions (is : Array (Instruction α)) : FrameCount := Renderer.drawAll is empty

end FrameCount

end Woodland
