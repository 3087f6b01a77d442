import Woodland.Forest.Basic

/-! The ways a forest is changed, as values, so that a history is a list of them. -/

namespace Woodland

inductive Forest.Update where
  | regenerate
  | reseed (seed : UInt64)
  | reshape (s : Shape Float32)
  | retarget (n : Nat)
  | set (name : String) (x : Float)

namespace Forest

def Update.change : Update → Change Unit
  | regenerate => Forest.regenerate
  | reseed seed => Forest.reseed seed
  | reshape s => Forest.reshape s
  | retarget n => Forest.retarget n
  | set name x => Forest.set name x

/-- A refusal is an answer and leaves a forest; a fault of the plot leaves none. -/
def settle : Except PlantingFault Unit × Forest → Except RangeFault (Except Error Unit × Forest)
  | (.ok (), f) => .ok (.ok (), f)
  | (.error (.refused e), f) => .ok (.error e, f)
  | (.error (.range fault), _) => .error fault

def perform (f : Forest) (u : Update) : Logged (Except RangeFault (Except Error Unit × Forest)) :=
  return settle (← StateT.run (ExceptT.run u.change) f)

def performAll (f : Forest) : List Update → Logged (Except RangeFault (List (Except Error Unit) × Forest))
  | [] => return .ok ([], f)
  | u :: us => do
    match ← f.perform u with
    | .error fault => return .error fault
    | .ok (r, f) => return (← f.performAll us).map fun (rs, f) => (r :: rs, f)

end Forest

end Woodland
