import Woodland.Scene.Instruction

/-! Anything that takes in the instructions of a frame. -/

namespace Woodland

class Renderer (α σ : Type) where
  beginFrame : Mat4 α → σ → σ
  draw : Instruction α → σ → σ
  endFrame : σ → σ := id

def Renderer.drawAll {α σ : Type} [Renderer α σ] (is : Array (Instruction α)) (r : σ) : σ :=
  is.foldl (fun r i => Renderer.draw i r) r

end Woodland
