import Mathlib.Tactic
import Woodland.Proofs.Drawing.Standing

/-!
What each symbol of a word adds to its drawing. Branches come from the pose alone, leaves from the pose and the
cluster of their close, and no symbol has a hand in both.
-/

namespace Woodland

variable {α : Type} [Scalar α]

lemma Word.count_take_lt {w : Word} {i : ℕ} {c : Char} (h : w[i]? = some c) : (w.take i).count c < w.count c := by
  have hw := (List.take_prefix (i + 1) w).sublist.count_le c
  rw [List.take_add_one, h, Option.toList_some, List.count_append, List.count_singleton_self] at hw
  exact hw

def Mesh.ofSymbol (leaves : ℕ) : Char → List Mesh
  | 'F' => [.branch]
  | ']' => .replicate leaves .leaf
  | _ => []

lemma Mesh.ofSymbol_other {c : Char} (hf : c ≠ 'F') (hc : c ≠ ']') (leaves : ℕ) : ofSymbol leaves c = [] := by
  rw [ofSymbol] <;> assumption

def Pose.ink (s : Shape α) (p : Pose α) (cluster : Cluster α) (c : Char) : List (Instruction α) :=
  if c = ']' then cluster.instructions p.frame else p.stroke s c

lemma Cluster.mesh_instructions (frame : Mat4 α) (c : Cluster α) :
    (Cluster.instructions frame c).map Instruction.mesh = .replicate c.length .leaf := by
  rw [Cluster.instructions, List.map_map]
  exact List.map_const'

lemma Pose.mesh_ink (s : Shape α) (p : Pose α) (cluster : Cluster α) (c : Char) :
    (p.ink s cluster c).map Instruction.mesh = Mesh.ofSymbol cluster.length c := by
  by_cases hc : c = ']'
  · subst hc
    exact Cluster.mesh_instructions p.frame cluster
  · rw [ink, if_neg hc, stroke]
    by_cases hf : c = 'F'
    · subst hf
      rfl
    · rw [if_neg hf, List.map_nil, Mesh.ofSymbol_other hf hc]

lemma Pose.branches_ink (s : Shape α) (p : Pose α) (cluster : Cluster α) (c : Char) :
    (p.ink s cluster c).filter (fun i => i.mesh = .branch) = p.stroke s c := by
  by_cases hc : c = ']'
  · subst hc
    simp [ink, stroke, Cluster.instructions, Instruction.leaf]
  · rw [ink, if_neg hc, stroke]
    split_ifs <;> rfl

lemma Pose.ink_take (s : Shape α) (p : Pose α) (clusters : List (Cluster α)) (j k : ℕ) (c : Char) :
    p.ink s ((clusters.take k).getD j []) c =
      if c = ']' ∧ k ≤ j then [] else p.ink s (clusters.getD j []) c := by
  rw [List.getD_eq_getElem?_getD, List.getElem?_take, List.getD_eq_getElem?_getD]
  by_cases hc : c = ']'
  · by_cases hj : j < k
    · rw [if_pos hj, if_neg (by omega)]
    · rw [if_neg hj, if_pos ⟨hc, by omega⟩, ink, if_pos hc]
      rfl
  · rw [ink, ink, if_neg hc, if_neg hc, if_neg fun h => hc h.1]

namespace Turtle

variable (s : Shape α)

lemma drawn_step (t : Turtle α) (c : Char) :
    (t.step s c).drawn = t.drawn ++ (t.pose.ink s (t.clusters.headD []) c).toArray := by
  obtain rfl | rfl | ⟨p, rfl⟩ := symbol_cases c
  · simp [step, Command.ofSymbol?, execute, push, Pose.ink, Pose.stroke]
  · rw [Pose.ink, if_pos rfl]
    cases h : t.saved with
    | nil => rw [step_close_nil s h, hang_eq]
    | cons q rest => rw [step_close_cons s h, hang_eq]
  · rw [step_plain, Pose.ink, if_neg p.2.2]

lemma clusters_step (t : Turtle α) (c : Char) : (t.step s c).clusters = t.clusters.drop ([c].count ']') := by
  obtain rfl | rfl | ⟨p, rfl⟩ := symbol_cases c
  · rfl
  · rw [List.count_singleton_self, List.drop_one]
    cases h : t.saved with
    | nil => rw [step_close_nil s h, hang_eq]
    | cons q rest => rw [step_close_cons s h, hang_eq]
  · rw [step_plain, List.count_singleton, if_neg (by simpa using p.2.2), List.drop_zero]

lemma clusters_walk (t : Turtle α) (w : Word) : (t.walk s w).clusters = t.clusters.drop (w.count ']') := by
  induction w generalizing t with
  | nil => rfl
  | cons c w ih =>
    rw [walk_cons, ih, clusters_step, List.drop_drop, ← List.count_append, List.singleton_append]

variable (clusters : List (Cluster α)) (origin : Mat4 α)

lemma pose_walk_start (clusters' : List (Cluster α)) (w : Word) :
    ((start s clusters origin).walk s w).pose = ((start s clusters' origin).walk s w).pose := by
  have h : (start s clusters origin).standing = (start s clusters' origin).standing := rfl
  exact (Prod.mk.inj (standing_walk_congr s h w)).1

def drawnAt (w : Word) (i : ℕ) : List (Instruction α) :=
  ((start s clusters origin).walk s (w.take (i + 1))).drawn.toList.drop
    ((start s clusters origin).walk s (w.take i)).drawn.size

lemma drawn_take_succ {w : Word} {i : ℕ} {c : Char} (h : w[i]? = some c) :
    ((start s clusters origin).walk s (w.take (i + 1))).drawn =
      ((start s clusters origin).walk s (w.take i)).drawn ++
        (((start s [] origin).walk s (w.take i)).pose.ink s (clusters.getD ((w.take i).count ']') []) c).toArray := by
  rw [List.take_add_one, h, Option.toList_some, walk_append, walk_cons, walk_nil, drawn_step, clusters_walk,
    pose_walk_start s clusters origin []]
  simp [start]

lemma drawnAt_eq_ink {w : Word} {i : ℕ} {c : Char} (h : w[i]? = some c) :
    drawnAt s clusters origin w i =
      ((start s [] origin).walk s (w.take i)).pose.ink s (clusters.getD ((w.take i).count ']') []) c := by
  rw [drawnAt, drawn_take_succ s clusters origin h]
  simp

lemma drawnAt_eq_nil {w : Word} {i : ℕ} (h : w[i]? = none) : drawnAt s clusters origin w i = [] := by
  rw [drawnAt, List.take_add_one, h]
  simp

lemma drawnAt_take (k : ℕ) (w : Word) (i : ℕ) :
    drawnAt s (clusters.take k) origin w i =
      if w[i]? = some ']' ∧ k ≤ (w.take i).count ']' then [] else drawnAt s clusters origin w i := by
  cases h : w[i]? with
  | none => rw [drawnAt_eq_nil s _ origin h, drawnAt_eq_nil s _ origin h, ite_self]
  | some c =>
    rw [drawnAt_eq_ink s _ origin h, drawnAt_eq_ink s _ origin h, Pose.ink_take]
    simp only [Option.some.injEq]

lemma drawn_take (w : Word) (n : ℕ) :
    ((start s clusters origin).walk s (w.take n)).drawn.toList =
      (List.range n).flatMap (drawnAt s clusters origin w) := by
  induction n with
  | zero => rfl
  | succ n ih =>
    rw [List.range_succ, List.flatMap_append, ← ih, List.flatMap_singleton]
    cases h : w[n]? with
    | none =>
      rw [drawnAt_eq_nil s clusters origin h, List.take_add_one, h]
      simp
    | some c =>
      rw [drawnAt_eq_ink s clusters origin h, drawn_take_succ s clusters origin h]
      simp

end Turtle

namespace Drawing

open Turtle

variable (s : Shape α) (clusters : List (Cluster α)) (origin : Mat4 α) (w : Word)

lemma instructions_eq_flatMap : (ofWord s clusters origin w).instructions.toList =
    (List.range w.length).flatMap (drawnAt s clusters origin w) := by
  rw [← drawn_take, List.take_length]
  rfl

lemma mesh_instructions : (ofWord s clusters origin w).instructions.toList.map Instruction.mesh =
    w.zipIdx.flatMap fun p => Mesh.ofSymbol (clusters.getD ((w.take p.2).count ']') []).length p.1 := by
  have hr : List.range w.length = w.zipIdx.map Prod.snd := by rw [List.zipIdx_map_snd, List.range_eq_range']
  rw [instructions_eq_flatMap, List.map_flatMap, hr, List.flatMap_map]
  apply List.flatMap_congr
  intro p hp
  rw [drawnAt_eq_ink s clusters origin (List.mem_zipIdx_iff_getElem?.mp hp), Pose.mesh_ink]

lemma ground_not_mem : .ground ∉ (ofWord s clusters origin w).instructions.toList.map Instruction.mesh := by
  rw [mesh_instructions]
  intro h
  obtain ⟨p, -, hp⟩ := List.mem_flatMap.mp h
  unfold Mesh.ofSymbol at hp
  split at hp <;> simp at hp

lemma branches_eq (clusters' : List (Cluster α)) :
    (ofWord s clusters origin w).instructions.toList.filter (fun i => i.mesh = .branch) =
      (ofWord s clusters' origin w).instructions.toList.filter fun i => i.mesh = .branch := by
  rw [instructions_eq_flatMap, instructions_eq_flatMap, List.filter_flatMap, List.filter_flatMap]
  apply List.flatMap_congr
  intro i hi
  have hc := List.getElem?_eq_getElem (List.mem_range.mp hi)
  rw [drawnAt_eq_ink s clusters origin hc, drawnAt_eq_ink s clusters' origin hc, Pose.branches_ink, Pose.branches_ink]

lemma brackets_eq (clusters' : List (Cluster α)) :
    (ofWord s clusters origin w).openBranches = (ofWord s clusters' origin w).openBranches ∧
      (ofWord s clusters origin w).unmatchedCloses = (ofWord s clusters' origin w).unmatchedCloses := by
  have hs : (start s clusters origin).standing = (start s clusters' origin).standing := rfl
  have ho : (ofWord s clusters origin w).openBranches = (ofWord s clusters' origin w).openBranches :=
    congrArg List.length (Prod.mk.inj (standing_walk_congr s hs w)).2
  have hd := openBranches_add_closes s clusters origin w
  have hd' := openBranches_add_closes s clusters' origin w
  exact ⟨ho, by omega⟩

lemma ofWord_take : ofWord s (clusters.take (w.count ']')) origin w = ofWord s clusters origin w := by
  obtain ⟨ho, hu⟩ := brackets_eq s (clusters.take (w.count ']')) origin w clusters
  have hi : (ofWord s (clusters.take (w.count ']')) origin w).instructions =
      (ofWord s clusters origin w).instructions := by
    apply Array.toList_inj.mp
    rw [instructions_eq_flatMap, instructions_eq_flatMap]
    apply List.flatMap_congr
    intro i _
    rw [drawnAt_take, if_neg]
    rintro ⟨hc, hle⟩
    exact Nat.not_lt.mpr hle (Word.count_take_lt hc)
  calc ofWord s (clusters.take (w.count ']')) origin w
      = ⟨(ofWord s clusters origin w).instructions, (ofWord s clusters origin w).openBranches,
          (ofWord s clusters origin w).unmatchedCloses⟩ := by rw [← hi, ← ho, ← hu]
    _ = ofWord s clusters origin w := rfl

theorem leaves_apart_from_branches :
    ((ofWord s clusters origin w).instructions.toList.map Instruction.mesh =
      w.zipIdx.flatMap fun p => Mesh.ofSymbol (clusters.getD ((w.take p.2).count ']') []).length p.1) ∧
    .ground ∉ (ofWord s clusters origin w).instructions.toList.map Instruction.mesh ∧
    (∀ clusters', (ofWord s clusters origin w).instructions.toList.filter (fun i => i.mesh = .branch) =
      (ofWord s clusters' origin w).instructions.toList.filter fun i => i.mesh = .branch) ∧
    ofWord s (clusters.take (w.count ']')) origin w = ofWord s clusters origin w ∧
    (ofWord s clusters origin w).instructions.toList = (List.range w.length).flatMap (drawnAt s clusters origin w) ∧
    ∀ k, (ofWord s (clusters.take k) origin w).instructions.toList =
      (List.range w.length).flatMap fun i =>
        if w[i]? = some ']' ∧ k ≤ (w.take i).count ']' then [] else drawnAt s clusters origin w i := by
  refine ⟨mesh_instructions s clusters origin w, ground_not_mem s clusters origin w, branches_eq s clusters origin w,
    ofWord_take s clusters origin w, instructions_eq_flatMap s clusters origin w, ?_⟩
  intro k
  rw [instructions_eq_flatMap]
  apply List.flatMap_congr
  intro i _
  exact drawnAt_take s clusters origin k w i

end Drawing

end Woodland
