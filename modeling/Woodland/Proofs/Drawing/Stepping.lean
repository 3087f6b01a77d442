import Mathlib.Tactic
import Woodland.Proofs.Words.Nesting
import Woodland.Tree.Turtle

/-! What one symbol does to a turtle. -/

namespace Woodland

variable {α : Type} [Scalar α]

namespace Pose

def move (s : Shape α) (p : Pose α) : Char → Pose α
  | 'F' => (p.taper s).advance s
  | '+' => p.turn s.turnAngle .unitZ
  | '-' => p.turn (-s.turnAngle) .unitZ
  | '/' => p.turn s.turnAngle .unitX
  | '\\' => p.turn (-s.turnAngle) .unitX
  | '&' => p.turn s.turnAngle .unitY
  | '^' => p.turn (-s.turnAngle) .unitY
  | _ => p

def stroke (s : Shape α) (p : Pose α) (c : Char) : List (Instruction α) :=
  if c = 'F' then [(p.taper s).segment s] else []

lemma frame_taper (s : Shape α) (p : Pose α) : (p.taper s).frame = p.frame := by
  unfold taper
  split <;> rfl

end Pose

def Cluster.instructions (frame : Mat4 α) (c : Cluster α) : List (Instruction α) :=
  c.map fun l => .leaf (frame * l.transform)

namespace Turtle

variable (s : Shape α)

@[simp] lemma walk_nil (t : Turtle α) : t.walk s [] = t := rfl

@[simp] lemma walk_cons (t : Turtle α) (c : Char) (w : Word) : t.walk s (c :: w) = (t.step s c).walk s w := rfl

lemma walk_append (t : Turtle α) (u v : Word) : t.walk s (u ++ v) = (t.walk s u).walk s v :=
  List.foldl_append

lemma step_plain (t : Turtle α) (c : Plain) :
    t.step s c = { t with pose := t.pose.move s c, drawn := t.drawn ++ (t.pose.stroke s c).toArray } := by
  obtain ⟨c, ho, hc⟩ := c
  simp only [Pose.move, Pose.stroke]
  split
  case h_8 =>
    have hn : Command.ofSymbol? c = none := by unfold Command.ofSymbol?; split <;> simp_all
    simp_all [step]
  all_goals simp [step, Command.ofSymbol?, execute, forward, turn]

lemma step_close (t : Turtle α) : t.step s ']' = t.hang.restore := rfl

lemma hangAt_eq_append (frame : Mat4 α) (c : Cluster α) (drawn : Array (Instruction α)) :
    hangAt frame c drawn = drawn ++ (c.instructions frame).toArray := by
  simp [hangAt, Cluster.instructions]

lemma hang_eq (t : Turtle α) :
    t.hang = { t with
      clusters := t.clusters.tail
      drawn := t.drawn ++ ((t.clusters.headD []).instructions t.pose.frame).toArray } := by
  obtain ⟨pose, saved, clusters, drawn, unmatched⟩ := t
  cases clusters with
  | nil => simp [hang, Cluster.instructions]
  | cons c rest => simp [hang, hangAt_eq_append]

end Turtle

end Woodland
