import Mathlib.Tactic
import Woodland.Proofs.Drawing.Depth

/-!
What a turtle knows of the branch that it is on. Each pose that it has, the saved ones included, stands one level
above the pose below it, and its width and segments follow from that level and from the segments of the trunk.
-/

namespace Woodland

namespace Word

/-- How deep a word ends. A close without an open leaves the trunk nowhere. -/
def depth (w : Word) : ℕ :=
  w.foldl (fun d c => if c = '[' then d + 1 else if c = ']' then d - 1 else d) 0

def trunkSegments (w : Word) : ℕ :=
  (List.range w.length).countP fun i => w[i]? = some 'F' ∧ depth (w.take i) = 0

example : trunkSegments "FF[F[F]]]F".toList = 3 := by decide

variable (w : Word)

lemma depth_concat (c : Char) :
    depth (w ++ [c]) = if c = '[' then w.depth + 1 else if c = ']' then w.depth - 1 else w.depth := by
  rw [depth, List.foldl_append]
  rfl

lemma depth_le_count : w.depth ≤ w.count '[' := by
  induction w using List.reverseRecOn with
  | nil => rfl
  | append_singleton w c ih =>
    rw [depth_concat, List.count_append, List.count_singleton']
    split_ifs <;> omega

lemma trunkSegments_le_length : w.trunkSegments ≤ w.length :=
  List.countP_le_length.trans_eq List.length_range

lemma trunkSegments_concat (c : Char) :
    trunkSegments (w ++ [c]) = w.trunkSegments + if c = 'F' ∧ w.depth = 0 then 1 else 0 := by
  have hbefore : (List.range w.length).countP (fun i => (w ++ [c])[i]? = some 'F' ∧ depth ((w ++ [c]).take i) = 0) =
      w.trunkSegments := by
    apply List.countP_congr
    intro i hi
    have hi := List.mem_range.mp hi
    rw [List.getElem?_append_left hi, List.take_append_of_le_length hi.le]
  rw [trunkSegments, List.length_append, List.length_singleton, List.range_succ, List.countP_append, hbefore,
    List.countP_singleton]
  simp

end Word

variable {α : Type} [Scalar α]

namespace Shape

def trunkWidth (s : Shape α) : ℕ → α
  | 0 => s.trunkScale
  | k + 1 => s.trunkScale * Scalar.atLeast Pose.taperFloor (1 - Scalar.ofNat k * s.taper)

def width (s : Shape α) (trunk : ℕ) : ℕ → α
  | 0 => s.trunkWidth trunk
  | level + 1 => s.width trunk level * Pose.childScale (level + 1) s.branchScale

lemma width_eq_foldl (s : Shape α) (trunk level : ℕ) : s.width trunk level =
    (List.range' 1 level).foldl (fun x k => x * Pose.childScale k s.branchScale) (s.trunkWidth trunk) := by
  induction level with
  | zero => rfl
  | succ level ih =>
    rw [width, ih, List.range'_concat, List.foldl_append, Nat.one_mul, Nat.add_comm]
    rfl

end Shape

namespace Pose

structure Stands (s : Shape α) (trunk level : ℕ) (p : Pose α) : Prop where
  level_eq : p.level = level
  segments_eq : p.segments = if level = 0 then trunk else 0
  width_eq : p.branchScale = s.width trunk level

variable {s : Shape α} {trunk level : ℕ} {p : Pose α}

lemma stands_start (s : Shape α) (origin : Mat4 α) : (start s origin).Stands s 0 0 := ⟨rfl, rfl, rfl⟩

lemma move_of_ne (s : Shape α) (p : Pose α) {c : Char} (hc : c ≠ 'F') : ∃ m, p.move s c = { p with frame := m } := by
  unfold move
  split
  · exact absurd rfl hc
  all_goals exact ⟨_, rfl⟩

namespace Stands

lemma move_other (h : p.Stands s trunk level) {c : Char} (hc : c ≠ 'F') : (p.move s c).Stands s trunk level := by
  obtain ⟨m, hm⟩ := p.move_of_ne s hc
  rw [hm]
  exact ⟨h.level_eq, h.segments_eq, h.width_eq⟩

lemma move_trunk (h : p.Stands s trunk 0) : (p.move s 'F').Stands s (trunk + 1) 0 := by
  have hl : p.level = 0 := h.level_eq
  have hs : p.segments = trunk := h.segments_eq
  have hm : p.move s 'F' = (p.taper s).advance s := rfl
  rw [hm, taper, if_pos hl, hs]
  exact ⟨hl, rfl, rfl⟩

lemma move_branch (h : p.Stands s trunk (level + 1)) : (p.move s 'F').Stands s trunk (level + 1) := by
  have hl : p.level ≠ 0 := by rw [h.level_eq]; omega
  have hm : p.move s 'F' = (p.taper s).advance s := rfl
  rw [hm, taper, if_neg hl]
  exact ⟨h.level_eq, h.segments_eq, h.width_eq⟩

lemma enter (h : p.Stands s trunk level) : (p.enter s).Stands s trunk (level + 1) := by
  refine ⟨congrArg (· + 1) h.level_eq, rfl, ?_⟩
  change p.branchScale * childScale (p.level + 1) s.branchScale = s.width trunk (level + 1)
  rw [h.level_eq, h.width_eq]
  rfl

end Stands

/-- Poses on top of each other, each one on the level of its height. -/
def Layered (s : Shape α) (trunk : ℕ) : List (Pose α) → Prop
  | [] => True
  | p :: below => p.Stands s trunk below.length ∧ Layered s trunk below

lemma Layered.stands {ps : List (Pose α)} (h : Layered s trunk ps) {i : ℕ} (hi : ps.reverse[i]? = some p) :
    p.Stands s trunk i := by
  induction ps with
  | nil => simp at hi
  | cons q below ih =>
    obtain ⟨hq, hb⟩ := h
    rw [List.reverse_cons] at hi
    rcases Nat.lt_or_ge i below.length with hlt | hge
    · rw [List.getElem?_append_left (by rwa [List.length_reverse])] at hi
      exact ih hb hi
    · rw [List.getElem?_append_right (by rwa [List.length_reverse]), List.length_reverse,
        List.getElem?_singleton] at hi
      split_ifs at hi with h₀
      obtain rfl := Option.some.inj hi
      obtain rfl : i = below.length := by omega
      exact hq

lemma Layered.stands_of_mem {ps : List (Pose α)} (h : Layered s trunk ps) (hp : p ∈ ps) :
    p.level < ps.length ∧ p.Stands s trunk p.level := by
  obtain ⟨i, hi⟩ := List.getElem?_of_mem (List.mem_reverse.mpr hp)
  obtain ⟨hlt, -⟩ := List.getElem?_eq_some_iff.mp hi
  obtain rfl := (h.stands hi).level_eq
  exact ⟨by rwa [List.length_reverse] at hlt, h.stands hi⟩

lemma Layered.stands_getLast {ps : List (Pose α)} (h : Layered s trunk ps) (hp : ps.getLast? = some p) :
    p.Stands s trunk 0 := by
  apply h.stands
  rw [← List.head?_eq_getElem?, List.head?_reverse, hp]

end Pose

namespace Turtle

open Pose (Layered)

variable {s : Shape α}

structure Levelled (s : Shape α) (t : Turtle α) (w : Word) : Prop where
  layered : Layered s w.trunkSegments (t.pose :: t.saved)
  depth_eq : t.saved.length = w.depth

namespace Levelled

variable {t : Turtle α} {w : Word}

lemma step_open (h : Levelled s t w) : Levelled s (t.step s '[') (w ++ ['[']) := by
  obtain ⟨⟨hp, hs⟩, hd⟩ := h
  refine ⟨?_, ?_⟩
  · rw [Word.trunkSegments_concat, if_neg (by simp)]
    exact ⟨hp.enter, hp, hs⟩
  · rw [Word.depth_concat, if_pos rfl, ← hd]
    rfl

lemma step_close (h : Levelled s t w) : Levelled s (t.step s ']') (w ++ [']']) := by
  obtain ⟨⟨hp, hs⟩, hd⟩ := h
  have hn : (w ++ [']']).trunkSegments = w.trunkSegments := by rw [Word.trunkSegments_concat, if_neg (by simp)]; rfl
  have hw : (w ++ [']']).depth = w.depth - 1 := by rw [Word.depth_concat, if_neg (by decide), if_pos rfl]
  cases hsaved : t.saved with
  | nil =>
    rw [step_close_nil s hsaved]
    refine ⟨?_, ?_⟩
    · rw [hn, pose_hang, saved_hang]
      exact ⟨hp, hs⟩
    · rw [hw, saved_hang, ← hd, hsaved]
      rfl
  | cons q rest =>
    rw [hsaved] at hs
    rw [step_close_cons s hsaved]
    refine ⟨?_, ?_⟩
    · rw [hn]
      exact hs
    · rw [hw, ← hd, hsaved]
      rfl

lemma step_plain (h : Levelled s t w) (c : Plain) : Levelled s (t.step s c) (w ++ [c.1]) := by
  obtain ⟨⟨hp, hs⟩, hd⟩ := h
  have hw : (w ++ [c.1]).depth = w.depth := by rw [Word.depth_concat, if_neg c.2.1, if_neg c.2.2]
  rw [Turtle.step_plain]
  refine ⟨?_, hd.trans hw.symm⟩
  rw [Word.trunkSegments_concat]
  by_cases hc : c.1 = 'F'
  · rw [hc]
    cases hsaved : t.saved with
    | nil =>
      -- only here does the trunk grow, and then there is no pose above it
      rw [hsaved] at hp hd
      rw [if_pos ⟨rfl, hd.symm⟩]
      exact ⟨hp.move_trunk, trivial⟩
    | cons q rest =>
      rw [hsaved] at hp hs hd
      rw [if_neg fun h => Nat.succ_ne_zero rest.length (hd.trans h.2)]
      exact ⟨hp.move_branch, hs⟩
  · rw [if_neg fun h => hc h.1]
    exact ⟨hp.move_other hc, hs⟩

lemma step (h : Levelled s t w) (c : Char) : Levelled s (t.step s c) (w ++ [c]) := by
  obtain rfl | rfl | ⟨p, rfl⟩ := symbol_cases c
  · exact h.step_open
  · exact h.step_close
  · exact h.step_plain p

end Levelled

lemma levelled_walk (s : Shape α) (clusters : List (Cluster α)) (origin : Mat4 α) (w : Word) :
    Levelled s ((start s clusters origin).walk s w) w := by
  induction w using List.reverseRecOn with
  | nil => exact ⟨⟨Pose.stands_start s origin, trivial⟩, rfl⟩
  | append_singleton w c ih =>
    rw [walk_append]
    exact ih.step c

/-- On words of fewer than `2 ^ 32` symbols, counters of 32 bits come to the same. -/
lemma counters_le_length (s : Shape α) (clusters : List (Cluster α)) (origin : Mat4 α) (w : Word) :
    let t := (start s clusters origin).walk s w
    (∀ p ∈ t.pose :: t.saved, p.level ≤ w.length ∧ p.segments ≤ w.length) ∧
      t.saved.length ≤ w.length ∧ t.unmatched ≤ w.length := by
  intro t
  have hl : Levelled s t w := levelled_walk s clusters origin w
  have hopen : t.saved.length ≤ w.count '[' := hl.depth_eq.trans_le w.depth_le_count
  have hsaved : t.saved.length ≤ w.length := hopen.trans List.count_le_length
  refine ⟨fun p hp => ?_, hsaved, ?_⟩
  · obtain ⟨hlt, hp⟩ := hl.layered.stands_of_mem hp
    refine ⟨(Nat.le_of_lt_succ hlt).trans hsaved, ?_⟩
    rw [hp.segments_eq]
    have htrunk := w.trunkSegments_le_length
    split_ifs <;> omega
  · have hbalance : t.saved.length + w.count ']' + 0 = 0 + w.count '[' + t.unmatched := depth_walk s _ w
    have hclose : w.count ']' ≤ w.length := List.count_le_length
    omega

theorem levels_of_poses (s : Shape α) (clusters : List (Cluster α)) (origin : Mat4 α) (w : Word) :
    let t := (start s clusters origin).walk s w
    (t.pose.level = t.saved.length ∧ t.saved.length = w.depth) ∧
    (∀ (i : ℕ) (p : Pose α), t.saved.reverse[i]? = some p → p.level = i) ∧
    ∀ p ∈ t.pose :: t.saved,
      (p.segments = if p.level = 0 then w.trunkSegments else 0) ∧
      (p.level = 0 → p.branchScale = s.trunkWidth w.trunkSegments) ∧
      (0 < p.level → ∃ bottom, t.saved.getLast? = some bottom ∧ p.branchScale =
        (List.range' 1 p.level).foldl (fun x k => x * Pose.childScale k s.branchScale) bottom.branchScale) := by
  intro t
  have hl := levelled_walk s clusters origin w
  obtain ⟨hpose, hs⟩ := hl.layered
  refine ⟨⟨hpose.level_eq, hl.depth_eq⟩, fun i p hi => (hs.stands hi).level_eq, ?_⟩
  intro p hmem
  obtain ⟨hlt, hp⟩ := hl.layered.stands_of_mem hmem
  refine ⟨hp.segments_eq, ?_, ?_⟩
  · intro hzero
    rw [hp.width_eq, hzero]
    rfl
  · intro hpos
    have hne : t.saved ≠ [] := List.length_pos_iff.mp (Nat.lt_of_lt_of_le hpos (Nat.le_of_lt_succ hlt))
    have hlast := List.getLast?_eq_some_getLast hne
    have hwidth : (t.saved.getLast hne).branchScale = s.trunkWidth w.trunkSegments := (hs.stands_getLast hlast).width_eq
    refine ⟨t.saved.getLast hne, hlast, ?_⟩
    rw [hwidth, hp.width_eq, Shape.width_eq_foldl]

end Turtle

end Woodland
