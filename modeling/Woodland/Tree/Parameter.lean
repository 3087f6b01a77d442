import Woodland.Edit

/-! Setting one proportion by its name. -/

namespace Woodland.Shape

def iterationBound : Nat := UInt32.size

def write (s : Shape Float32) (p : Parameter) (x : Float) : Except Refusal (Shape Float32) :=
  let y := Binary.narrow x
  match p with
  | .iterations =>
    match (Binary.ofDouble x).natural? with
    | some n =>
      if n < iterationBound then .ok { s with iterations := n } else .error (.iterationsNotNatural x)
    | none => .error (.iterationsNotNatural x)
  | .angle => .ok { s with angle := y }
  | .length => .ok { s with length := y }
  | .trunkScale => .ok { s with trunkScale := y }
  | .taper => .ok { s with taper := y }
  | .branchScale => .ok { s with branchScale := y }
  | .leafDensity => .ok { s with leafDensity := y }

def validate (s : Shape Float32) : Except Error Unit :=
  s.check.mapError fun v => .invalid (.shape v)

/-- The number is written to a copy, which takes the place of the shape once it is accepted. -/
def edit (name : String) (x : Float) : Edit (Shape Float32) Unit := do
  let s ← get
  match Parameter.ofName? name with
  | none => throw (.unknownParameter name)
  | some p =>
    let updated ← Edit.ofExcept ((s.write p x).mapError .invalid)
    Edit.ofExcept updated.validate
    modify fun _ => updated

def set (s : Shape Float32) (name : String) (x : Float) : Except Error (Shape Float32) := (edit name x).onCopy s

end Woodland.Shape
