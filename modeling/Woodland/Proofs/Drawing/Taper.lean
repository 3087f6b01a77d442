import Mathlib.Tactic
import Woodland.Proofs.Drawing.Levels
import Woodland.Proofs.Drawing.Meshes
import Woodland.Proofs.Numbers.OrderedScalars
import Woodland.Proofs.Planting.ValidShapes

/-!
The trunk gets thinner with each of its segments, down to a floor. Branches between two of them, however they nest,
leave no trace in its width.
-/

namespace Woodland

variable {α : Type} [Scalar α]

namespace Shape

def share (s : Shape α) (k : ℕ) : α := Scalar.atLeast Pose.taperFloor (1 - Scalar.ofNat k * s.taper)

lemma trunkWidth_succ (s : Shape α) (k : ℕ) : s.trunkWidth (k + 1) = s.trunkScale * s.share k := rfl

lemma check_withTaper {s : Shape α} {x : α} (h : s.check = .ok ()) (hf : Scalar.isFinite x) (hx : ¬x < 0) :
    { s with taper := x }.check = .ok () := by
  apply (check_eq_ok_iff _).mpr
  intro p
  have hp := (check_eq_ok_iff s).mp h p
  cases p with
  | taper => exact if_neg (by simp [hf, hx])
  | iterations | angle | length | trunkScale | branchScale | leafDensity => exact hp

section Order

open Scalar Scalar.Ordered

variable [Scalar.Ordered α] {s : Shape α} {j k : ℕ}

lemma trunkScale_of_check (h : s.check = .ok ()) : isFinite s.trunkScale ∧ 0 ≤ s.trunkScale := by
  have hj := (check_eq_ok_iff s).mp h .trunkScale
  rw [judge, checkPositive] at hj
  split_ifs at hj with hp
  exact ⟨hp.1, le_of_lt hp.2⟩

lemma taper_of_check (h : s.check = .ok ()) : isFinite s.taper ∧ 0 ≤ s.taper := by
  have hj := (check_eq_ok_iff s).mp h .taper
  rw [judge] at hj
  split_ifs at hj with hp
  obtain ⟨hf, hn⟩ := not_or.mp hp
  have hf : isFinite s.taper := by simpa using hf
  exact ⟨hf, le_of_not_lt hf finite_zero hn⟩

lemma taperFloor_le_share (s : Shape α) (k : ℕ) : Pose.taperFloor ≤ s.share k := by
  unfold share atLeast
  split_ifs with h
  · exact le_of_lt h
  · exact le_refl finite_taperFloor

lemma share_zero (h : s.check = .ok ()) : s.share 0 = 1 := by
  rw [share, one_sub_zero_mul (taper_of_check h).1, atLeast, if_pos taperFloor_lt_one]

/-- A share that overflows lands on the floor like any other that is too small. -/
lemma share_le_share (h : s.check = .ok ()) (hjk : j ≤ k) (hk : k < 2 ^ 32) : s.share k ≤ s.share j := by
  obtain ⟨ht, ht₀⟩ := taper_of_check h
  have hmul : (ofNat j : α) * s.taper ≤ ofNat k * s.taper :=
    mul_le_mul_right ht ht₀ (finite_ofNat (hjk.trans_lt hk)) (finite_ofNat hk) (ofNat_le_ofNat hjk hk)
  have hsub : 1 - ofNat k * s.taper ≤ 1 - ofNat j * s.taper := sub_le_sub_left finite_one hmul
  by_cases hlt : Pose.taperFloor < 1 - ofNat k * s.taper
  · rw [share, share, atLeast, atLeast, if_pos hlt, if_pos (lt_of_lt_of_le hlt hsub)]
    exact hsub
  · have hfloor : s.share k = Pose.taperFloor := if_neg hlt
    rw [hfloor]
    exact taperFloor_le_share s j

lemma finite_share (h : s.check = .ok ()) (hk : k < 2 ^ 32) : isFinite (s.share k) := by
  have hle := share_le_share h (Nat.zero_le k) hk
  rw [share_zero h] at hle
  exact finite_of_between finite_taperFloor finite_one (taperFloor_le_share s k) hle

lemma trunkWidth_le_trunkWidth (h : s.check = .ok ()) (hjk : j ≤ k) (hk : k < 2 ^ 32) :
    s.trunkWidth (k + 1) ≤ s.trunkWidth (j + 1) := by
  obtain ⟨ht, ht₀⟩ := trunkScale_of_check h
  apply mul_le_mul_left ht ht₀ (finite_share h hk) (finite_share h (hjk.trans_lt hk))
  exact share_le_share h hjk hk

lemma floor_le_trunkWidth (h : s.check = .ok ()) (hk : k < 2 ^ 32) :
    s.trunkScale * Pose.taperFloor ≤ s.trunkWidth (k + 1) := by
  obtain ⟨ht, ht₀⟩ := trunkScale_of_check h
  exact mul_le_mul_left ht ht₀ finite_taperFloor (finite_share h hk) (taperFloor_le_share s k)

end Order

end Shape

namespace Turtle

variable (s : Shape α) (clusters : List (Cluster α)) (origin : Mat4 α)

def trunkSteps (w : Word) : List ℕ :=
  (List.range w.length).filter fun i =>
    w[i]? = some 'F' ∧ ((start s clusters origin).walk s (w.take i)).pose.level = 0

def widthAt (w : Word) (i : ℕ) : α := (((start s clusters origin).walk s (w.take i)).pose.taper s).branchScale

lemma widthAt_concat (w : Word) (c : Char) {i : ℕ} (h : i ≤ w.length) :
    widthAt s clusters origin (w ++ [c]) i = widthAt s clusters origin w i := by
  rw [widthAt, widthAt, List.take_append_of_le_length h]

lemma trunkSteps_concat (w : Word) (c : Char) : trunkSteps s clusters origin (w ++ [c]) =
    trunkSteps s clusters origin w ++ if c = 'F' ∧ w.depth = 0 then [w.length] else [] := by
  have hl := levelled_walk s clusters origin w
  have hlevel : ((start s clusters origin).walk s w).pose.level = w.depth := hl.layered.1.level_eq.trans hl.depth_eq
  have hbefore : (List.range w.length).filter (fun i => (w ++ [c])[i]? = some 'F' ∧
      ((start s clusters origin).walk s ((w ++ [c]).take i)).pose.level = 0) = trunkSteps s clusters origin w := by
    apply List.filter_congr
    intro i hi
    have hi := List.mem_range.mp hi
    rw [List.getElem?_append_left hi, List.take_append_of_le_length hi.le]
  rw [trunkSteps, List.length_append, List.length_singleton, List.range_succ, List.filter_append, hbefore,
    List.filter_singleton]
  simp [hlevel]

lemma widths_eq (w : Word) : (trunkSteps s clusters origin w).map (widthAt s clusters origin w) =
    (List.range w.trunkSegments).map fun k => s.trunkWidth (k + 1) := by
  induction w using List.reverseRecOn with
  | nil => rfl
  | append_singleton w c ih =>
    have hbefore : (trunkSteps s clusters origin w).map (widthAt s clusters origin (w ++ [c])) =
        (trunkSteps s clusters origin w).map (widthAt s clusters origin w) := by
      apply List.map_congr_left
      intro i hi
      have hi := List.mem_range.mp (List.mem_of_mem_filter hi)
      exact widthAt_concat s clusters origin w c hi.le
    rw [trunkSteps_concat, Word.trunkSegments_concat, List.map_append, hbefore, ih]
    split_ifs with hc
    · have hl := levelled_walk s clusters origin w
      have hstands := hl.layered.1
      rw [hl.depth_eq, hc.2] at hstands
      have hw : widthAt s clusters origin (w ++ [c]) w.length = s.trunkWidth (Word.trunkSegments w + 1) := by
        rw [widthAt_concat s clusters origin w c le_rfl, widthAt, List.take_length]
        exact hstands.move_trunk.width_eq
      rw [List.range_succ, List.map_append, List.map_singleton, List.map_singleton, hw]
    · simp

lemma drawnAt_trunk {w : Word} {i : ℕ} (h : w[i]? = some 'F') :
    drawnAt s clusters origin w i = [.branch (((start s clusters origin).walk s (w.take i)).pose.frame.scale
      ⟨widthAt s clusters origin w i, s.length, widthAt s clusters origin w i⟩)] := by
  let p := ((start s clusters origin).walk s (w.take i)).pose
  rw [drawnAt_eq_ink s clusters origin h, pose_walk_start s [] origin clusters]
  change [Instruction.branch ((p.taper s).frame.scale _)] = _
  rw [Pose.frame_taper]
  rfl

theorem trunk_tapers [Scalar.Ordered α] (h : s.check = .ok ()) {w : Word} (hw : w.length < 2 ^ 32) :
    let widths := (trunkSteps s clusters origin w).map (widthAt s clusters origin w)
    (∀ i ∈ trunkSteps s clusters origin w,
      drawnAt s clusters origin w i = [.branch (((start s clusters origin).walk s (w.take i)).pose.frame.scale
        ⟨widthAt s clusters origin w i, s.length, widthAt s clusters origin w i⟩)]) ∧
    (∀ k x, widths[k]? = some x → x = s.trunkScale * Scalar.atLeast Pose.taperFloor (1 - Scalar.ofNat k * s.taper)) ∧
    (∀ x, widths.head? = some x → x = s.trunkScale) ∧
    widths.Pairwise (fun x y => y ≤ x) ∧
    ∀ x ∈ widths, s.trunkScale * Pose.taperFloor ≤ x := by
  intro widths
  have hwidths : widths = (List.range w.trunkSegments).map fun k => s.trunkWidth (k + 1) :=
    widths_eq s clusters origin w
  have hcount : w.trunkSegments ≤ w.length := (List.countP_le_length).trans_eq List.length_range
  have hlt {k : ℕ} (hk : k ∈ List.range w.trunkSegments) : k < 2 ^ 32 := by
    have := List.mem_range.mp hk
    omega
  have hget (k : ℕ) (x : α) (hx : widths[k]? = some x) : x = s.trunkWidth (k + 1) := by
    rw [hwidths, List.getElem?_map, Option.map_eq_some_iff] at hx
    obtain ⟨j, hj, rfl⟩ := hx
    obtain ⟨-, rfl⟩ := by simpa using List.getElem?_eq_some_iff.mp hj
    rfl
  refine ⟨?_, hget, ?_, ?_, ?_⟩
  · intro i hi
    have hi := (List.mem_filter.mp hi).2
    exact drawnAt_trunk s clusters origin (of_decide_eq_true hi).1
  · intro x hx
    rw [List.head?_eq_getElem?] at hx
    rw [hget 0 x hx, Shape.trunkWidth_succ, Shape.share_zero h]
    exact Scalar.Ordered.mul_one (Shape.trunkScale_of_check h).1
  · rw [hwidths, List.pairwise_map]
    apply List.pairwise_lt_range.imp_of_mem
    intro j k _ hk hjk
    exact Shape.trunkWidth_le_trunkWidth h hjk.le (hlt hk)
  · intro x hx
    rw [hwidths] at hx
    obtain ⟨k, hk, rfl⟩ := List.mem_map.mp hx
    exact Shape.floor_le_trunkWidth h (hlt hk)

theorem trunk_tapers_steep :
    let s : Shape Float32 := { (default : Shape Float32) with taper := 3e38 }
    let w := "FF[F[F]]]F".toList
    s.check = .ok () ∧ w.length < 2 ^ 32 ∧
      (Turtle.trunkSteps s [] Mat4.identity w).map (Turtle.widthAt s [] Mat4.identity w) =
        [3.5, 3.5 * 0.3, 3.5 * 0.3] ∧
      ((Turtle.trunkSteps s [] Mat4.identity w).map (Turtle.widthAt s [] Mat4.identity w)).Pairwise
        (fun x y => y ≤ x) := by
  intro s w
  have h : s.check = .ok () := Shape.check_withTaper rfl (by decide +kernel) (by decide +kernel)
  have hw : w.length < 2 ^ 32 := by decide
  obtain ⟨-, -, -, hp, -⟩ := trunk_tapers s [] Mat4.identity h hw
  exact ⟨h, hw, by decide +kernel, hp⟩

end Turtle

end Woodland
