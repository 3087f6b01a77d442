import Woodland.Binary.Word
import Woodland.Scene.Renderer

/-! One frame as arrays of packed instances, an array for each mesh. All numbers are kept as words. -/

namespace Woodland

structure Instance where
  model : Mat4 UInt32
  color : Color UInt32
  textured : Bool
deriving DecidableEq

namespace Instance

def ofInstruction {α : Type} [ToWord α] (i : Instruction α) : Instance :=
  ⟨i.transform.map ToWord.word, i.material.color.map ToWord.word, i.material.isTextured⟩

/-- Sixteen words of the model, four of the colour, a flag and three words of padding. -/
def words (i : Instance) : List UInt32 :=
  i.model.entries ++ i.color.entries ++ [if i.textured then 1 else 0, 0, 0, 0]

def bytes (i : Instance) : List UInt8 := i.words.flatMap Binary.bytesOfWord

def size : Nat := 96

theorem length_bytes (i : Instance) : i.bytes.length = size := by
  simp [bytes, words, Binary.bytesOfWord, Mat4.entries, Color.entries, size]

theorem length_flatMap_bytes (is : List Instance) : (is.flatMap bytes).length = size * is.length := by
  induction is with
  | nil => rfl
  | cons i is ih => simp [length_bytes, ih, Nat.mul_succ, Nat.add_comm]

end Instance

structure InstanceBatch where
  viewProjection : Mat4 UInt32
  branches : Array Instance
  leaves : Array Instance
  ground : Array Instance

namespace InstanceBatch

def empty : InstanceBatch := ⟨(Mat4.identity : Mat4 Float32).map ToWord.word, #[], #[], #[]⟩

instance : Inhabited InstanceBatch := ⟨empty⟩

def batch (b : InstanceBatch) : Mesh → Array Instance
  | .branch => b.branches
  | .leaf => b.leaves
  | .ground => b.ground

def bytes (b : InstanceBatch) (m : Mesh) : List UInt8 := (b.batch m).toList.flatMap Instance.bytes

def byteCount (b : InstanceBatch) (m : Mesh) : Nat := Instance.size * (b.batch m).size

theorem length_bytes (b : InstanceBatch) (m : Mesh) : (b.bytes m).length = b.byteCount m := by
  rw [bytes, byteCount, Instance.length_flatMap_bytes, Array.length_toList]

def total (b : InstanceBatch) : Nat := b.branches.size + b.leaves.size + b.ground.size

def clear (b : InstanceBatch) : InstanceBatch :=
  { b with branches := #[], leaves := #[], ground := #[] }

variable {α : Type} [ToWord α]

def add (i : Instruction α) (b : InstanceBatch) : InstanceBatch :=
  let packed := Instance.ofInstruction i
  match i.mesh with
  | .branch => { b with branches := b.branches.push packed }
  | .leaf => { b with leaves := b.leaves.push packed }
  | .ground => { b with ground := b.ground.push packed }

instance : Renderer α InstanceBatch where
  beginFrame m b := { b.clear with viewProjection := m.map ToWord.word }
  draw := add

end InstanceBatch

end Woodland
