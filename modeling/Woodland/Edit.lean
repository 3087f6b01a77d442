import Woodland.Error

/-! Changes of a value in place that can be refused. What they wrote before a refusal stays written. -/

namespace Woodland

abbrev Edit (σ : Type) := ExceptT Error (StateM σ)

namespace Edit

variable {σ τ α : Type}

def run (e : Edit σ α) (s : σ) : Except Error α × σ := StateT.run (ExceptT.run e) s

def ofExcept : Except Error α → Edit σ α
  | .ok a => pure a
  | .error e => throw e

def within (part : σ → τ) (put : σ → τ → σ) (e : Edit τ α) : Edit σ α :=
  ExceptT.mk fun s =>
    let (r, t) := e.run (part s)
    (r, put s t)

/-- Edits a copy, which is thrown away where it is refused. -/
def onCopy (e : Edit σ Unit) (s : σ) : Except Error σ :=
  let (r, t) := e.run s
  r.map fun () => t

end Edit

end Woodland
