import Mathlib.Tactic
import Woodland.Proofs.Frames.Rendering
import Woodland.Proofs.Planting.Soundness
import Woodland.Proofs.Planting.ValidShapes
import Woodland.Proofs.Words.SpeciesSymbols

/-! How many instructions a frame has: so many of each mesh for every tree, by its species and the shape. -/

namespace Woodland

namespace Mesh

lemma ofSymbol_congr {k l : ℕ} {c : Char} (h : c = ']' → k = l) : ofSymbol k c = ofSymbol l c := by
  by_cases hc : c = ']'
  · rw [h hc]
  · by_cases hf : c = 'F'
    · rw [hf]
      rfl
    · rw [ofSymbol_other hf hc, ofSymbol_other hf hc]

def ofWord (leaves : ℕ) (w : Word) : List Mesh := w.flatMap (ofSymbol leaves)

lemma ofWord_perm (leaves : ℕ) (w : Word) :
    (ofWord leaves w).Perm (.replicate (w.count 'F') .branch ++ .replicate (leaves * w.count ']') .leaf) := by
  induction w with
  | nil => exact .refl []
  | cons c w ih =>
    have hw : ofWord leaves (c :: w) = ofSymbol leaves c ++ ofWord leaves w := List.flatMap_cons
    rw [hw]
    by_cases hf : c = 'F'
    · subst hf
      rw [List.count_cons_self, List.count_cons_of_ne (by decide), List.replicate_succ]
      exact ih.cons .branch
    · rw [List.count_cons_of_ne hf]
      by_cases hc : c = ']'
      · subst hc
        rw [List.count_cons_self, Nat.mul_succ, Nat.add_comm, ← List.replicate_append_replicate]
        exact (ih.append_left _).trans (List.perm_append_comm_assoc _ _ _)
      · rw [List.count_cons_of_ne hc, ofSymbol_other hf hc]
        exact ih

end Mesh

def Species.meshes (s : Species) (n leaves : ℕ) : List Mesh :=
  .replicate (s.segments n) .branch ++ .replicate (leaves * s.closes n) .leaf

namespace Species

lemma count_branch_meshes (s : Species) (n leaves : ℕ) : (s.meshes n leaves).count .branch = s.segments n := by
  simp [meshes, List.count_replicate]

lemma count_leaf_meshes (s : Species) (n leaves : ℕ) : (s.meshes n leaves).count .leaf = leaves * s.closes n := by
  simp [meshes, List.count_replicate]

lemma length_meshes_le (s : Species) {n leaves : ℕ} (h : n ≤ Shape.maxIterations)
    (hl : leaves ≤ Shape.leavesAtFullDensity) : (s.meshes n leaves).length ≤ 140617 := by
  rw [meshes, List.length_append, List.length_replicate, List.length_replicate]
  exact s.segments_add_leaves_le h hl

end Species

namespace Tree

def turtle (t : Tree) (s : Shape Float32) (u : Word) : Turtle Float32 :=
  (Turtle.start s t.clusters t.base).walk s u

lemma clusters_turtle (t : Tree) (s : Shape Float32) (u : Word) :
    (t.turtle s u).clusters = t.clusters.drop (u.count ']') :=
  Turtle.clusters_walk s _ u

namespace Grown

variable {s : Shape Float32} {t : Tree}

lemma mesh_drawing (h : t.Grown s) :
    (t.drawing s).instructions.toList.map Instruction.mesh = Mesh.ofWord s.leavesPerCluster t.expansion.symbols := by
  have hw : t.expansion.symbols = t.expansion.symbols.zipIdx.map Prod.fst := by rw [List.zipIdx_map_fst]
  rw [drawing, Drawing.mesh_instructions, Mesh.ofWord]
  conv_rhs => rw [hw, List.flatMap_map]
  apply List.flatMap_congr
  rintro ⟨c, i⟩ hp
  apply Mesh.ofSymbol_congr
  rintro rfl
  -- the close at place `i` has a cluster, which is one of the tree's
  have hi := Word.count_take_lt (List.mem_zipIdx_iff_getElem?.mp hp)
  have hl : (t.expansion.symbols.take i).count ']' < t.clusters.length := h.clusters ▸ hi
  rw [List.getD_eq_getElem _ _ hl]
  exact h.leaves _ (List.getElem_mem hl)

lemma mesh_drawing_perm (h : t.Grown s) (hn : s.iterations ≤ Shape.maxIterations) :
    ((t.drawing s).instructions.toList.map Instruction.mesh).Perm
      (t.species.meshes s.iterations s.leavesPerCluster) := by
  obtain ⟨hf, hc⟩ := t.species.count_expand hn
  rw [← h.expansion] at hf hc
  rw [h.mesh_drawing, Species.meshes, ← hf, ← hc]
  exact Mesh.ofWord_perm s.leavesPerCluster t.expansion.symbols

lemma exists_cluster (h : t.Grown s) {u : Word} (hu : u ++ [']'] <+: t.expansion.symbols) :
    ∃ c rest, (t.turtle s u).clusters = c :: rest ∧ c.length = s.leavesPerCluster := by
  have hl : u.count ']' < t.clusters.length := by
    have hc := hu.sublist.count_le ']'
    rw [List.count_append, List.count_singleton_self] at hc
    exact h.clusters ▸ hc
  exact ⟨_, _, (t.clusters_turtle s u).trans (List.drop_eq_getElem_cons hl), h.leaves _ (List.getElem_mem hl)⟩

lemma no_cluster_left (h : t.Grown s) : (t.turtle s t.expansion.symbols).clusters = [] := by
  rw [clusters_turtle]
  exact List.drop_of_length_le h.clusters.le

end Grown

end Tree

namespace Forest

structure Accounted (f : Forest) (n perClose : ℕ) : Prop where
  first : f.meshes.head? = some .ground
  ground : f.meshes.count .ground = 1
  branches : f.meshes.count .branch = (f.trees.map fun t => t.species.segments n).sum
  leaves : f.meshes.count .leaf = (f.trees.map fun t => perClose * t.species.closes n).sum
  symbols : ∀ s : Species,
    (s.grammar.expand n).value.count 'F' = s.segments n ∧ (s.grammar.expand n).value.count ']' = s.closes n
  hung : ∀ t ∈ f.trees, ∀ u, u ++ [']'] <+: t.expansion.symbols →
    ∃ c rest, (t.turtle f.settings.shape u).clusters = c :: rest ∧ c.length = perClose
  none_left : ∀ t ∈ f.trees, (t.turtle f.settings.shape t.expansion.symbols).clusters = []
  size_le : f.instructions.value.size ≤ 1 + 300 * 140617

variable {f : Forest}

lemma Sound.iterations_le (hf : f.Sound) : f.settings.shape.iterations ≤ Shape.maxIterations :=
  iterations_le_of_valid hf.valid

lemma Sound.leavesPerCluster_le (hf : f.Sound) : f.settings.shape.leavesPerCluster ≤ Shape.leavesAtFullDensity :=
  Shape.leavesPerCluster_le_of_valid (Settings.validate_shape_of_valid hf.valid)

lemma Sound.count_meshes (hf : f.Sound) {m : Mesh} (hm : m ≠ .ground) :
    f.meshes.count m = (f.trees.map fun t =>
      (t.species.meshes f.settings.shape.iterations f.settings.shape.leavesPerCluster).count m).sum := by
  rw [meshes_eq, List.count_cons_of_ne hm.symm, List.count_flatMap]
  congr 1
  apply List.map_congr_left
  intro t ht
  exact ((hf.grown t ht).mesh_drawing_perm hf.iterations_le).count_eq m

lemma Sound.length_meshes_le (hf : f.Sound) : f.meshes.length ≤ 1 + 300 * 140617 := by
  have ht (t : Tree) (h : t ∈ f.trees) :
      ((t.drawing f.settings.shape).instructions.toList.map Instruction.mesh).length ≤ 140617 := by
    rw [((hf.grown t h).mesh_drawing_perm hf.iterations_le).length_eq]
    exact t.species.length_meshes_le hf.iterations_le hf.leavesPerCluster_le
  have hn : f.trees.length ≤ 300 := hf.length_le.trans hf.target_le
  have hsum := List.sum_le_card_nsmul _ _ (List.forall_mem_map.mpr ht)
  rw [List.length_map, smul_eq_mul] at hsum
  rw [meshes_eq, List.length_cons, List.length_flatMap, Nat.add_comm]
  gcongr
  exact hsum.trans (Nat.mul_le_mul_right _ hn)

lemma Sound.accounted (hf : f.Sound) :
    f.Accounted f.settings.shape.iterations f.settings.shape.leavesPerCluster where
  first := by rw [meshes_eq, List.head?_cons]
  ground := f.count_ground_meshes
  branches := by simpa only [Species.count_branch_meshes] using hf.count_meshes (m := .branch) (by decide)
  leaves := by simpa only [Species.count_leaf_meshes] using hf.count_meshes (m := .leaf) (by decide)
  symbols s := s.count_expand hf.iterations_le
  hung t ht _ hu := (hf.grown t ht).exists_cluster hu
  none_left t ht := (hf.grown t ht).no_cluster_left
  size_le := by simpa only [meshes, List.length_map, Array.length_toList] using hf.length_meshes_le

theorem accounted_of_history (s : Settings) (f f' : Forest) (us : List Update) (rs : List (Except Error Unit))
    (h : (generate s).run.value = .ok f) (hr : (f.performAll us).value = .ok (rs, f')) :
    f'.Accounted f'.settings.shape.iterations f'.settings.shape.leavesPerCluster :=
  ((sound_generate h).performAll hr).accounted

theorem accounted_of_history_default :
    ∃ f rs f', (generate default).run.value = .ok f ∧
      (f.performAll [.set "leaf_density" 1.0, .set "iterations" 7.0, .reseed 7]).value = .ok (rs, f') ∧
      f'.Accounted f'.settings.shape.iterations f'.settings.shape.leavesPerCluster := by
  obtain ⟨f, hf, hs⟩ := exists_generate (s := default) rfl (by decide +kernel)
  obtain ⟨rs, f', hr⟩ := exists_performAll (f := f) (by rw [hs]; decide +kernel)
    [.set "leaf_density" 1.0, .set "iterations" 7.0, .reseed 7]
  exact ⟨f, rs, f', hf, hr, accounted_of_history default f f' _ rs hf hr⟩

end Forest

end Woodland
