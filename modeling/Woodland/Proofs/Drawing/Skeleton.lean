import Mathlib.Tactic
import Woodland.Proofs.Drawing.Meshes
import Woodland.Proofs.Drawing.OpenSegments
import Woodland.Proofs.Geometry.ExactFrames

/-!
The segments of a tree hang together. Each one begins where the last segment of its open path ends, and so do the
leaves of each close.
-/

namespace Woodland

variable (s : Shape ℝ)

namespace Pose

lemma base_move (p : Pose ℝ) {c : Char} (hc : c ≠ 'F') : (p.move s c).frame.base = p.frame.base := by
  unfold move
  split
  · exact absurd rfl hc
  case h_8 => rfl
  all_goals apply Mat4.base_rotate

lemma segment_eq (p : Pose ℝ) :
    ∃ b, (p.taper s).segment s = .branch b ∧ b.base = p.frame.base ∧ b.top = (p.move s 'F').frame.base := by
  refine ⟨_, rfl, ?_, ?_⟩
  · rw [Mat4.base_scale, frame_taper]
  · apply Mat4.top_scale

end Pose

namespace Turtle

lemma base_step {t : Turtle ℝ} {c : Char} (hf : c ≠ 'F') (hc : c ≠ ']' ∨ t.saved = []) :
    (t.step s c).pose.frame.base = t.pose.frame.base := by
  obtain rfl | rfl | ⟨p, rfl⟩ := symbol_cases c
  · rfl
  · have hs : t.saved = [] := hc.resolve_left (by simp)
    exact congrArg (fun x => x.1.frame.base) (standing_step_close_nil s hs)
  · rw [step_plain]
    exact Pose.base_move s t.pose hf

variable (clusters : List (Cluster ℝ)) (origin : Mat4 ℝ)

/-- Where the last segment ends that was drawn on the open path to place `i`, or the origin if there is none. -/
def Joint (w : Word) (i : ℕ) (p : Vec4 ℝ) : Prop :=
  match (Word.openSegments (w.take i)).getLast? with
  | none => p = origin.base
  | some k => k < i ∧ ∃ b, drawnAt s clusters origin w k = [.branch b] ∧ p = b.top

variable {u v w m : Word} {c : Char} {i : ℕ} {p : Vec4 ℝ}

lemma drawnAt_append (h : i < u.length) :
    drawnAt s clusters origin (u ++ v) i = drawnAt s clusters origin u i := by
  rw [drawnAt, drawnAt, List.take_append_of_le_length h, List.take_append_of_le_length h.le]

lemma drawnAt_forward (h : w[i]? = some 'F') :
    let p := ((start s clusters origin).walk s (w.take i)).pose
    ∃ b, drawnAt s clusters origin w i = [.branch b] ∧ b.base = p.frame.base ∧ b.top = (p.move s 'F').frame.base := by
  intro p
  obtain ⟨b, hb, hbase, htop⟩ := p.segment_eq s
  refine ⟨b, ?_, hbase, htop⟩
  rw [drawnAt_eq_ink s clusters origin h, pose_walk_start s [] origin clusters, ← hb]
  rfl

variable {s clusters origin}

lemma Joint.append (h : Joint s clusters origin u u.length p) (v : Word) :
    Joint s clusters origin (u ++ v) u.length p := by
  unfold Joint at h ⊢
  rw [List.take_length] at h
  rw [List.take_left]
  split at h
  · exact h
  · obtain ⟨hk, b, hb, hp⟩ := h
    exact ⟨hk, b, (drawnAt_append s clusters origin hk).trans hb, hp⟩

lemma Joint.extend (h : Joint s clusters origin u u.length p) (hv : Word.openSegments (u ++ v) = Word.openSegments u) :
    Joint s clusters origin (u ++ v) (u ++ v).length p := by
  have h := h.append v
  unfold Joint at h ⊢
  rw [List.take_left] at h
  rw [List.take_length, hv]
  split at h
  · exact h
  · exact ⟨by rw [List.length_append]; omega, h.2⟩

variable (s clusters origin)

lemma joint_walk (w : Word) :
    Joint s clusters origin w w.length ((start s clusters origin).walk s w).pose.frame.base := by
  induction w using Word.induction_ends with
  | nil => rfl
  | concat w c hc ih =>
    have hsegs := Word.openSegments_concat hc
    rw [walk_append, walk_cons, walk_nil]
    by_cases hf : c = 'F'
    · subst hf
      obtain ⟨b, hb, -, htop⟩ := drawnAt_forward s clusters origin (w := w ++ ['F']) (i := w.length) (by simp)
      rw [List.take_left] at htop
      have hstep := standing_step_plain s ((start s clusters origin).walk s w) ⟨'F', by decide⟩
      rw [(Prod.mk.inj hstep).1, ← htop]
      unfold Joint
      rw [List.take_length, hsegs, if_pos rfl, List.getLast?_concat]
      exact ⟨by simp, b, hb, rfl⟩
    · have hsaved : c ≠ ']' ∨ ((start s clusters origin).walk s w).saved = [] := by
        apply hc.imp_right
        intro hd
        rw [← (levelled_walk s clusters origin w).depth_eq] at hd
        exact List.eq_nil_of_length_eq_zero hd
      rw [base_step s hf hsaved]
      rw [if_neg hf] at hsegs
      exact ih.extend hsegs
  | group u m hm ih =>
    have hstand := standing_walk_enclosed s ((start s clusters origin).walk s u) hm
    rw [walk_append, (Prod.mk.inj hstand).1]
    exact ih.extend (Word.openSegments_group hm u)

theorem segments_joined (w : Word) :
    (Drawing.ofWord s clusters origin w).instructions.toList =
      (List.range w.length).flatMap (drawnAt s clusters origin w) ∧
    ∀ i c, w[i]? = some c →
      (c = 'F' → ∃ b, drawnAt s clusters origin w i = [.branch b] ∧ Joint s clusters origin w i b.base) ∧
      (c = ']' →
        let frame := ((start s clusters origin).walk s (w.take i)).pose.frame
        drawnAt s clusters origin w i = Cluster.instructions frame (clusters.getD ((w.take i).count ']') []) ∧
          Joint s clusters origin w i frame.base) ∧
      (c ≠ 'F' → c ≠ ']' → drawnAt s clusters origin w i = []) := by
  refine ⟨Drawing.instructions_eq_flatMap s clusters origin w, ?_⟩
  intro i c hi
  have hjoint : Joint s clusters origin w i ((start s clusters origin).walk s (w.take i)).pose.frame.base := by
    have h := (joint_walk s clusters origin (w.take i)).append (w.drop i)
    have hlt : i < w.length := (List.getElem?_eq_some_iff.mp hi).1
    rwa [List.take_append_drop, List.length_take, Nat.min_eq_left hlt.le] at h
  refine ⟨?_, ?_, ?_⟩
  · rintro rfl
    obtain ⟨b, hb, hbase, -⟩ := drawnAt_forward s clusters origin hi
    exact ⟨b, hb, hbase ▸ hjoint⟩
  · rintro rfl
    refine ⟨?_, hjoint⟩
    rw [drawnAt_eq_ink s clusters origin hi, Pose.ink, if_pos rfl, pose_walk_start s [] origin clusters]
  · intro hf hc
    rw [drawnAt_eq_ink s clusters origin hi, Pose.ink, if_neg hc, Pose.stroke, if_neg hf]

end Turtle

end Woodland
