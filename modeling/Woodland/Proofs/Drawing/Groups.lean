import Mathlib.Tactic
import Woodland.Proofs.Drawing.Stepping

/-!
A well nested word is drawn group by group: the turtle with its saved poses draws what a recursion over the
groups draws, which gives each group a pose of its own and saves none.
-/

namespace Woodland

variable {α : Type} [Scalar α]

namespace Nesting

def child (s : Shape α) (p : Pose α) : Pose α where
  frame := p.frame
  branchScale := p.branchScale * Pose.childScale (p.level + 1) s.branchScale
  level := p.level + 1
  segments := 0

/-- The pose that a walk ends in. Groups leave no trace in it. -/
def final (s : Shape α) : Nesting → Pose α → Pose α
  | done, p => p
  | symbol c rest, p => rest.final s (p.move s c)
  | group _ rest, p => rest.final s p

/-- What is drawn from a pose after `k` groups have been closed. The group that closes next takes cluster `k`. -/
def draw (s : Shape α) (clusters : List (Cluster α)) : Nesting → ℕ → Pose α → List (Instruction α)
  | done, _, _ => []
  | symbol c rest, k, p => p.stroke s c ++ rest.draw s clusters k (p.move s c)
  | group body rest, k, p =>
    body.draw s clusters k (child s p) ++
      Cluster.instructions (body.final s (child s p)).frame (clusters.getD (k + body.closes) []) ++
      rest.draw s clusters (k + body.closes + 1) p

end Nesting

namespace Turtle

variable (s : Shape α) (clusters : List (Cluster α))

lemma push_child (p : Pose α) (saved : List (Pose α)) (left : List (Cluster α))
    (drawn : Array (Instruction α)) (unmatched : ℕ) :
    step s ⟨p, saved, left, drawn, unmatched⟩ '[' =
      ⟨Nesting.child s p, p :: saved, left, drawn, unmatched⟩ := rfl

lemma close_group (p q : Pose α) (saved : List (Pose α)) (k : ℕ) (drawn : Array (Instruction α))
    (unmatched : ℕ) :
    step s ⟨p, q :: saved, clusters.drop k, drawn, unmatched⟩ ']' =
      ⟨q, saved, clusters.drop (k + 1),
        drawn ++ (Cluster.instructions p.frame (clusters.getD k [])).toArray, unmatched⟩ := by
  rw [step_close, hang_eq]
  simp [restore, List.tail_drop]

/-- The cursor over the clusters goes on through the groups, and all else that they change is put back. -/
lemma walk_word (n : Nesting) (p : Pose α) (saved : List (Pose α)) (k : ℕ) (drawn : Array (Instruction α))
    (unmatched : ℕ) :
    walk s ⟨p, saved, clusters.drop k, drawn, unmatched⟩ n.word =
      ⟨n.final s p, saved, clusters.drop (k + n.closes), drawn ++ (n.draw s clusters k p).toArray,
        unmatched⟩ := by
  induction n generalizing p saved k drawn with
  | done => simp [Nesting.word, Nesting.final, Nesting.draw, Nesting.closes]
  | symbol c rest ih =>
    rw [Nesting.word, walk_cons, step_plain, ih]
    simp [Nesting.final, Nesting.draw, Nesting.closes]
  | group body rest ihb ihr =>
    rw [Nesting.word, walk_append, walk_cons, walk_cons, push_child, ihb, close_group, ihr]
    simp [Nesting.final, Nesting.draw, Nesting.closes, Nat.add_assoc]

end Turtle

theorem drawing_eq_groups (s : Shape α) (clusters : List (Cluster α)) (origin : Mat4 α) {w : Word}
    (h : WellNested w) :
    ∃ n, Nesting.parse? w = some n ∧ n.word = w ∧
      Drawing.ofWord s clusters origin w =
        ⟨(n.draw s clusters 0 ⟨origin, s.trunkScale, 0, 0⟩).toArray, 0, 0⟩ := by
  obtain ⟨n, hn⟩ := h.exists_parse?
  have hw := Nesting.word_of_parse? hn
  refine ⟨n, hn, hw, ?_⟩
  have hwalk := Turtle.walk_word s clusters n (Pose.start s origin) [] 0 #[] 0
  rw [List.drop_zero, hw] at hwalk
  rw [Drawing.ofWord, Turtle.start, hwalk]
  simp [Turtle.drawing, Pose.start]

theorem drawing_eq_groups_twig :
    let leaf : Leaf Float32 := ⟨⟨0.1, 0, 0⟩, ⟨0, 0, 0⟩⟩
    let clusters := [[leaf]]
    ∃ n, Nesting.parse? "F[+F[-F]X]F".toList = some n ∧ n.word = "F[+F[-F]X]F".toList ∧
      Drawing.ofWord default clusters Mat4.identity "F[+F[-F]X]F".toList =
        ⟨(n.draw default clusters 0 ⟨Mat4.identity, (default : Shape Float32).trunkScale, 0, 0⟩).toArray, 0, 0⟩ :=
  drawing_eq_groups default _ Mat4.identity (by decide)

end Woodland
