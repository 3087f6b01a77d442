import Woodland.Geometry.Matrix

/-! What a renderer is handed: one mesh, where it stands and what it looks like. -/

namespace Woodland

inductive Mesh where
  | branch
  | leaf
  | ground
deriving DecidableEq

structure Color (α : Type) where
  red : α
  green : α
  blue : α
  alpha : α
deriving DecidableEq

namespace Color

variable {α β : Type}

def entries (c : Color α) : List α := [c.red, c.green, c.blue, c.alpha]

def ofEntries? : List α → Option (Color α)
  | [r, g, b, a] => some ⟨r, g, b, a⟩
  | _ => none

@[simp] theorem ofEntries?_entries (c : Color α) : ofEntries? c.entries = some c := rfl

def map (f : α → β) (c : Color α) : Color β := ⟨f c.red, f c.green, f c.blue, f c.alpha⟩

@[simp] theorem entries_map (f : α → β) (c : Color α) : (c.map f).entries = c.entries.map f := rfl

end Color

inductive Material (α : Type) where
  | textured (fallback : Color α)
  | solid (color : Color α)
deriving DecidableEq

namespace Material

variable {α β : Type}

def color : Material α → Color α
  | textured c | solid c => c

def isTextured : Material α → Bool
  | textured _ => true
  | solid _ => false

def map (f : α → β) : Material α → Material β
  | textured c => textured (c.map f)
  | solid c => solid (c.map f)

variable [OfScientific α]

def bark : Material α := textured ⟨0.55, 0.27, 0.07, 1.0⟩
def foliage : Material α := solid ⟨0.2, 0.7, 0.2, 1.0⟩
def soil : Material α := solid ⟨0.3, 0.5, 0.3, 1.0⟩

def ofMesh : Mesh → Material α
  | .branch => bark
  | .leaf => foliage
  | .ground => soil

end Material

structure Instruction (α : Type) where
  mesh : Mesh
  transform : Mat4 α
  material : Material α
deriving DecidableEq

namespace Instruction

variable {α β : Type}

def map (f : α → β) (i : Instruction α) : Instruction β :=
  ⟨i.mesh, i.transform.map f, i.material.map f⟩

variable [OfScientific α]

def branch (m : Mat4 α) : Instruction α := ⟨.branch, m, .bark⟩
def leaf (m : Mat4 α) : Instruction α := ⟨.leaf, m, .foliage⟩
def ground (m : Mat4 α) : Instruction α := ⟨.ground, m, .soil⟩

end Instruction

end Woodland
