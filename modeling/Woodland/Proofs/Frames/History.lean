import Mathlib.Data.List.DropRight
import Mathlib.Tactic
import Woodland.Proofs.Frames.InstanceBytes
import Woodland.Proofs.Frames.Rendering

/-!
Renderers over a history of calls: what a count and a batch hold is what was drawn since the last frame began.
-/

namespace Woodland

namespace Renderer

inductive Call (α : Type) where
  | beginFrame (view : Mat4 α)
  | draw (i : Instruction α)
  | drawAll (is : Array (Instruction α))
  | endFrame

namespace Call

variable {α : Type}

def view? : Call α → Option (Mat4 α)
  | beginFrame view => some view
  | draw _ | drawAll _ | endFrame => none

def instructions : Call α → List (Instruction α)
  | draw i => [i]
  | drawAll is => is.toList
  | beginFrame _ | endFrame => []

end Call

section

variable {α σ : Type} [Renderer α σ]

def perform (r : σ) : Call α → σ
  | .beginFrame view => Renderer.beginFrame view r
  | .draw i => Renderer.draw i r
  | .drawAll is => drawAll is r
  | .endFrame => Renderer.endFrame α r

def performAll (r : σ) (cs : List (Call α)) : σ := cs.foldl perform r

lemma performAll_concat (r : σ) (cs : List (Call α)) (c : Call α) :
    performAll r (cs ++ [c]) = perform (performAll r cs) c := by
  rw [performAll, List.foldl_concat, performAll]

end

variable {α : Type} (cs : List (Call α)) (c : Call α)

/-- What was drawn since the last frame began, or from the start on. -/
def drawn : List (Instruction α) := (cs.rtakeWhile fun c => c.view?.isNone).flatMap Call.instructions

def views : List (Mat4 α) := cs.filterMap Call.view?

lemma drawn_concat_beginFrame (view : Mat4 α) : drawn (cs ++ [.beginFrame view]) = [] := by
  have h : (cs ++ [Call.beginFrame view]).rtakeWhile (fun c => c.view?.isNone) = [] :=
    List.rtakeWhile_concat_neg _ cs _ (by rintro ⟨⟩)
  rw [drawn, h, List.flatMap_nil]

variable {c}

lemma drawn_concat (h : c.view? = none) : drawn (cs ++ [c]) = drawn cs ++ c.instructions := by
  have hc : (cs ++ [c]).rtakeWhile (fun c => c.view?.isNone) = cs.rtakeWhile (fun c => c.view?.isNone) ++ [c] :=
    List.rtakeWhile_concat_pos _ cs c (by rw [h]; rfl)
  rw [drawn, hc, List.flatMap_append, List.flatMap_singleton, drawn]

lemma views_concat (h : c.view? = none) : views (cs ++ [c]) = views cs := by
  rw [views, List.filterMap_append, List.filterMap_cons_none h, List.filterMap_nil, List.append_nil, views]

lemma views_concat_beginFrame (view : Mat4 α) : views (cs ++ [.beginFrame view]) = views cs ++ [view] := by
  rw [views, List.filterMap_append, views]
  rfl

end Renderer

open Renderer

variable {α : Type}

lemma FrameCount.performAll_empty (cs : List (Call α)) :
    performAll empty cs = ofMeshes (views cs).length ((drawn cs).map Instruction.mesh) := by
  induction cs using List.reverseRecOn with
  | nil => rfl
  | append_singleton cs c ih =>
    rw [performAll_concat, ih]
    cases c with
    | beginFrame view => rw [drawn_concat_beginFrame, views_concat_beginFrame, List.length_append]; rfl
    | draw i =>
      rw [drawn_concat cs rfl, views_concat cs rfl, List.map_append]
      exact add_ofMeshes _ _ i
    | drawAll is =>
      rw [drawn_concat cs rfl, views_concat cs rfl, List.map_append, perform, drawAll_eq_foldl]
      exact foldl_draw _ _ is.toList
    | endFrame => rw [drawn_concat cs rfl, views_concat cs rfl, Call.instructions, List.append_nil]; rfl

lemma FrameCount.frames_performAll_le (cs : List (Call α)) : (performAll empty cs).frames ≤ cs.length := by
  rw [performAll_empty]
  exact List.length_filterMap_le _ _

lemma FrameCount.total_performAll (cs : List (Call α)) : (performAll empty cs).total = (drawn cs).length := by
  rw [performAll_empty, total_ofMeshes, List.length_map]

namespace InstanceBatch

variable [ToWord α]

end InstanceBatch

end Woodland
