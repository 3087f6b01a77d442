import Mathlib.Tactic
import Woodland.Forest.Basic
import Woodland.Proofs.Drawing.Meshes
import Woodland.Scene.FrameCount
import Woodland.Scene.InstanceBatch

/-!
A frame reaches a renderer instruction by instruction: rendering tree by tree leaves it as drawing the list of all
instructions does.
-/

namespace Woodland

namespace Logged

variable {α β : Type}

lemma value_foldlM (k : α → β → Logged α) (xs : List β) (a : α) :
    (xs.foldlM k a).value = xs.foldl (fun a x => (k a x).value) a := by
  induction xs generalizing a with
  | nil => rfl
  | cons x xs ih =>
    rw [List.foldlM_cons, value_bind, ih]
    rfl

end Logged

lemma toList_foldl_append {α β : Type} (k : β → Array α) (xs : List β) (is : Array α) :
    (xs.foldl (fun is x => is ++ k x) is).toList = is.toList ++ xs.flatMap fun x => (k x).toList := by
  have happ (is : Array α) (x : β) : is.toList ++ (k x).toList = (is ++ k x).toList := Array.toList_append.symm
  calc (xs.foldl (fun is x => is ++ k x) is).toList
      = xs.foldl (fun l x => l ++ (k x).toList) is.toList := (List.foldl_hom Array.toList happ).symm
    _ = is.toList ++ xs.flatMap fun x => (k x).toList := by rw [List.foldl_append_eq_append, List.flatMap_def]

lemma Drawing.value_logged {α : Type} (d : Drawing α) : d.logged.value = d := by
  rw [Drawing.logged]
  split <;> rfl

def Tree.drawing (t : Tree) (s : Shape Float32) : Drawing Float32 :=
  .ofWord s t.clusters t.base t.expansion.symbols

lemma Tree.value_draw (t : Tree) (s : Shape Float32) : (t.draw s).value = t.drawing s := Drawing.value_logged _

namespace Renderer

variable {α σ : Type} [Renderer α σ]

lemma drawAll_eq_foldl (is : Array (Instruction α)) (r : σ) :
    drawAll is r = is.toList.foldl (fun r i => draw i r) r :=
  (Array.foldl_toList _).symm

end Renderer

lemma Instruction.length_filter_mesh {α : Type} (is : List (Instruction α)) (m : Mesh) :
    (is.filter fun i => i.mesh = m).length = (is.map mesh).count m := by
  rw [List.count, List.countP_map, List.countP_eq_length_filter]
  congr 2

namespace FrameCount

variable {α : Type}

def ofMeshes (frames : ℕ) (ms : List Mesh) : FrameCount :=
  ⟨frames, ms.count .branch, ms.count .leaf, ms.count .ground⟩

lemma add_ofMeshes (frames : ℕ) (ms : List Mesh) (i : Instruction α) :
    add i (ofMeshes frames ms) = ofMeshes frames (ms ++ [i.mesh]) := by
  unfold add ofMeshes
  cases i.mesh <;> simp

lemma total_ofMeshes (frames : ℕ) (ms : List Mesh) : (ofMeshes frames ms).total = ms.length := by
  induction ms with
  | nil => rfl
  | cons m ms ih =>
    simp only [total, ofMeshes, List.count_cons, List.length_cons] at ih ⊢
    cases m <;> simp <;> omega

lemma foldl_draw (frames : ℕ) (ms : List Mesh) (is : List (Instruction α)) :
    is.foldl (fun c i => Renderer.draw i c) (ofMeshes frames ms) = ofMeshes frames (ms ++ is.map Instruction.mesh) := by
  induction is generalizing ms with
  | nil => rw [List.foldl_nil, List.map_nil, List.append_nil]
  | cons i is ih =>
    rw [List.foldl_cons, List.map_cons, ← List.singleton_append, ← List.append_assoc, ← ih, ← add_ofMeshes]
    rfl

lemma ofInstructions_eq (is : Array (Instruction α)) :
    ofInstructions is = ofMeshes 0 (is.toList.map Instruction.mesh) := by
  rw [ofInstructions, Renderer.drawAll_eq_foldl]
  exact foldl_draw 0 [] is.toList

end FrameCount

namespace InstanceBatch

variable {α : Type} [ToWord α]

lemma batch_add (i : Instruction α) (b : InstanceBatch) (m : Mesh) :
    (add i b).batch m = b.batch m ++ if i.mesh = m then #[Instance.ofInstruction i] else #[] := by
  unfold add batch
  cases i.mesh <;> cases m <;> simp

lemma batch_foldl_draw (is : List (Instruction α)) (b : InstanceBatch) (m : Mesh) :
    ((is.foldl (fun b i => Renderer.draw i b) b).batch m).toList =
      (b.batch m).toList ++ (is.filter fun i => i.mesh = m).map Instance.ofInstruction := by
  induction is generalizing b with
  | nil => simp
  | cons i is ih =>
    have hadd : (Renderer.draw i b : InstanceBatch).batch m = _ := batch_add i b m
    rw [List.foldl_cons, ih, hadd, List.filter_cons]
    by_cases hm : i.mesh = m
    · simp [hm]
    · simp [hm]

end InstanceBatch

namespace Forest

def treeInstructions (f : Forest) : List (Instruction Float32) :=
  f.trees.flatMap fun t => (t.drawing f.settings.shape).instructions.toList

lemma value_instructions (f : Forest) : f.instructions.value.toList = f.groundInstruction :: f.treeInstructions := by
  rw [instructions, Logged.value_foldlM]
  simp only [Logged.value_bind, Logged.value_pure, Tree.value_draw]
  exact toList_foldl_append _ f.trees #[f.groundInstruction]

def meshes (f : Forest) : List Mesh := f.instructions.value.toList.map Instruction.mesh

lemma meshes_eq (f : Forest) :
    f.meshes = .ground :: f.trees.flatMap fun t =>
      (t.drawing f.settings.shape).instructions.toList.map Instruction.mesh := by
  rw [meshes, value_instructions, List.map_cons, treeInstructions, List.map_flatMap]
  rfl

lemma count_ground_meshes (f : Forest) : f.meshes.count .ground = 1 := by
  rw [meshes_eq, List.count_cons_self, List.count_eq_zero_of_not_mem]
  intro h
  obtain ⟨t, -, ht⟩ := List.mem_flatMap.mp h
  exact Drawing.ground_not_mem _ _ _ _ ht

lemma value_render {σ : Type} [Renderer Float32 σ] (f : Forest) (c : Camera) (r : σ) :
    (f.render c r).value =
      Renderer.endFrame Float32
        (f.instructions.value.toList.foldl (fun r i => Renderer.draw i r)
          (Renderer.beginFrame c.viewProjection r)) := by
  rw [value_instructions, List.foldl_cons, treeInstructions, List.foldl_flatMap]
  simp only [render, Logged.value_bind, Logged.value_pure, Logged.value_foldlM, Renderer.drawAll_eq_foldl,
    Tree.value_draw]

lemma value_render_frameCount (f : Forest) (c : Camera) (n : FrameCount) :
    (f.render c n).value = FrameCount.ofMeshes (n.frames + 1) f.meshes := by
  rw [value_render]
  exact FrameCount.foldl_draw (n.frames + 1) [] f.instructions.value.toList

lemma batch_render (f : Forest) (c : Camera) (b : InstanceBatch) (m : Mesh) :
    (f.render c b).value.batch m = (f.instructions.value.filter fun i => i.mesh = m).map Instance.ofInstruction := by
  have hclear : (Renderer.beginFrame c.viewProjection b : InstanceBatch).batch m = #[] := by cases m <;> rfl
  have hb := InstanceBatch.batch_foldl_draw f.instructions.value.toList (Renderer.beginFrame c.viewProjection b) m
  rw [hclear] at hb
  rw [value_render]
  apply Array.toList_inj.mp
  rw [Array.toList_map, Array.toList_filter]
  exact hb

theorem render_eq_instructions (f : Forest) (c : Camera) :
    (∀ (σ : Type) [Renderer Float32 σ] (r : σ), (f.render c r).value =
      Renderer.endFrame Float32
        (f.instructions.value.foldl (fun r i => Renderer.draw i r) (Renderer.beginFrame c.viewProjection r))) ∧
    (∀ n : FrameCount, (f.render c n).value.ground = 1 ∧
      (f.render c n).value.branches = (FrameCount.ofInstructions f.instructions.value).branches ∧
      (f.render c n).value.leaves = (FrameCount.ofInstructions f.instructions.value).leaves) ∧
    ∀ (b : InstanceBatch) (m : Mesh), (f.render c b).value.batch m =
      (f.instructions.value.filter fun i => i.mesh = m).map Instance.ofInstruction := by
  refine ⟨?_, ?_, f.batch_render c⟩
  · intro σ _ r
    rw [value_render, Array.foldl_toList]
  · intro n
    rw [value_render_frameCount, FrameCount.ofInstructions_eq]
    exact ⟨f.count_ground_meshes, rfl, rfl⟩

end Forest

end Woodland
