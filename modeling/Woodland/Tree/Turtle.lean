import Woodland.Journal
import Woodland.Scene.Instruction
import Woodland.Tree.Leaf
import Woodland.Tree.Shape

/-!
A turtle walks a word and draws it. Brackets save and restore its pose; a closing one first hangs the
next cluster of leaves where the turtle stands.
-/

namespace Woodland

inductive Command where
  | forward
  | rollLeft
  | rollRight
  | pitchUp
  | pitchDown
  | turnLeft
  | turnRight
  | push
  | pop
deriving DecidableEq

def Command.ofSymbol? : Char → Option Command
  | 'F' => some forward
  | '+' => some rollLeft
  | '-' => some rollRight
  | '/' => some pitchUp
  | '\\' => some pitchDown
  | '&' => some turnLeft
  | '^' => some turnRight
  | '[' => some push
  | ']' => some pop
  | _ => none

structure Pose (α : Type) where
  frame : Mat4 α
  branchScale : α
  level : Nat
  segments : Nat
deriving DecidableEq

structure Turtle (α : Type) where
  pose : Pose α
  saved : List (Pose α)
  clusters : List (Cluster α)
  drawn : Array (Instruction α)
  unmatched : Nat

structure Drawing (α : Type) where
  instructions : Array (Instruction α)
  openBranches : Nat
  unmatchedCloses : Nat

variable {α : Type}

namespace Turtle

def restore (t : Turtle α) : Turtle α :=
  match t.saved with
  | [] => { t with unmatched := t.unmatched + 1 }
  | p :: rest => { t with pose := p, saved := rest }

def drawing (t : Turtle α) : Drawing α := ⟨t.drawn, t.saved.length, t.unmatched⟩

end Turtle

def Drawing.logged (d : Drawing α) : Logged (Drawing α) := do
  if 0 < d.unmatchedCloses ∨ 0 < d.openBranches then
    Logged.note (.unbalanced d.unmatchedCloses d.openBranches)
  return d

variable [Scalar α]

namespace Pose

def taperFloor : α := 0.3

def start (s : Shape α) (origin : Mat4 α) : Pose α := ⟨origin, s.trunkScale, 0, 0⟩

@[specialize] def taper (s : Shape α) (p : Pose α) : Pose α :=
  if p.level = 0 then
    let left := Scalar.atLeast taperFloor (1 - Scalar.ofNat p.segments * s.taper)
    { p with branchScale := s.trunkScale * left, segments := p.segments + 1 }
  else p

@[specialize] def advance (s : Shape α) (p : Pose α) : Pose α :=
  { p with frame := p.frame.displace ⟨0, s.length, 0⟩ }

@[specialize] def segment (s : Shape α) (p : Pose α) : Instruction α :=
  .branch (p.frame.scale ⟨p.branchScale, s.length, p.branchScale⟩)

@[specialize] def turn (angle : α) (axis : Vec3 α) (p : Pose α) : Pose α :=
  { p with frame := p.frame.rotate angle axis }

def childScale (level : Nat) (branchScale : α) : α :=
  match level with
  | 0 => 1
  | 1 => branchScale
  | 2 => 0.55
  | 3 => 0.65
  | _ => 0.75

@[specialize] def enter (s : Shape α) (p : Pose α) : Pose α :=
  let level := p.level + 1
  { p with level := level, segments := 0, branchScale := p.branchScale * childScale level s.branchScale }

end Pose

namespace Turtle

def start (s : Shape α) (clusters : List (Cluster α)) (origin : Mat4 α) : Turtle α :=
  ⟨.start s origin, [], clusters, #[], 0⟩

@[specialize] def forward (s : Shape α) (t : Turtle α) : Turtle α :=
  let p := t.pose.taper s
  { t with pose := p.advance s, drawn := t.drawn.push (p.segment s) }

@[specialize] def turn (angle : α) (axis : Vec3 α) (t : Turtle α) : Turtle α :=
  { t with pose := t.pose.turn angle axis }

@[specialize] def push (s : Shape α) (t : Turtle α) : Turtle α :=
  { t with pose := t.pose.enter s, saved := t.pose :: t.saved }

@[specialize] def hangAt (frame : Mat4 α) (c : Cluster α) (drawn : Array (Instruction α)) :
    Array (Instruction α) :=
  c.foldl (fun drawn l => drawn.push (.leaf (frame * l.transform))) drawn

@[specialize] def hang : Turtle α → Turtle α
  | ⟨pose, saved, c :: rest, drawn, unmatched⟩ =>
    ⟨pose, saved, rest, hangAt pose.frame c drawn, unmatched⟩
  | t => t

@[specialize] def execute (s : Shape α) (t : Turtle α) : Command → Turtle α
  | .forward => t.forward s
  | .rollLeft => t.turn s.turnAngle .unitZ
  | .rollRight => t.turn (-s.turnAngle) .unitZ
  | .pitchUp => t.turn s.turnAngle .unitX
  | .pitchDown => t.turn (-s.turnAngle) .unitX
  | .turnLeft => t.turn s.turnAngle .unitY
  | .turnRight => t.turn (-s.turnAngle) .unitY
  | .push => t.push s
  | .pop => t.hang.restore

@[specialize] def step (s : Shape α) (t : Turtle α) (c : Char) : Turtle α :=
  match Command.ofSymbol? c with
  | some command => t.execute s command
  | none => t

@[specialize] def walk (s : Shape α) (t : Turtle α) (w : Word) : Turtle α := w.foldl (step s) t

end Turtle

@[specialize] def Drawing.ofWord (s : Shape α) (clusters : List (Cluster α)) (origin : Mat4 α) (w : Word) :
    Drawing α :=
  ((Turtle.start s clusters origin).walk s w).drawing

end Woodland
