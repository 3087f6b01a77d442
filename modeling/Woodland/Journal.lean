import Woodland.Decimal.Notation

/-! What a computation reports on its way, kept beside its result. -/

namespace Woodland

namespace Journal

inductive Level where
  | trace
  | debug
  | info
  | warn
deriving DecidableEq

inductive Event where
  | truncated (length pass passes : Nat)
  | expanded (start : List Char) (passes length : Nat)
  | unbalanced (unmatched opened : Nat)
  | targetClamped (target limit : Nat)
  | crowded (trees target attempts : Nat) (separation : Float32)
  | placed (trees attempts : Nat)
  | grown (species : String) (x z : Float32) (symbols clusters : Nat)
  | generated (trees target passes : Nat)
  | reshaped (trees : Nat)

def Event.level : Event → Level
  | truncated .. | targetClamped .. | crowded .. => .warn
  | expanded .. => .trace
  | unbalanced .. | placed .. | grown .. => .debug
  | generated .. | reshaped .. => .info

def Event.text : Event → String
  | truncated length pass passes =>
    s!"L-system expansion truncated at {length} symbols during iteration {pass} of {passes}"
  | expanded start passes length =>
    s!"Expanded '{String.ofList start}' x{passes} -> {length} symbols"
  | unbalanced unmatched opened =>
    s!"Turtle finished with {unmatched} unmatched ']' and {opened} open '['"
  | targetClamped target limit => s!"Clamping tree target {target} to {limit}"
  | crowded trees target attempts separation =>
    let gap := Decimal.plainSingle separation
    s!"Placed {trees} of {target} trees after {attempts} attempts (min separation {gap})"
  | placed trees attempts => s!"Placed {trees} trees in {attempts} attempts"
  | grown species x z symbols clusters =>
    let (x, z) := (Decimal.onePlaceSingle x, Decimal.onePlaceSingle z)
    s!"Tree {species} at ({x}, {z}): {symbols} symbols, {clusters} leaf clusters"
  | generated trees target passes =>
    s!"Generated forest: {trees} of {target} trees, {passes} iterations"
  | reshaped trees => s!"Regenerated {trees} trees with new parameters"

end Journal

structure Logged (α : Type) where
  value : α
  events : List Journal.Event

namespace Logged

instance : Monad Logged where
  pure a := ⟨a, []⟩
  bind x f :=
    let y := f x.value
    ⟨y.value, x.events ++ y.events⟩

@[ext] theorem ext {α : Type} {x y : Logged α} (h : x.value = y.value) (h' : x.events = y.events) :
    x = y := by
  cases x
  cases y
  simp_all

@[simp] theorem value_pure {α : Type} (a : α) : (pure a : Logged α).value = a := rfl

@[simp] theorem events_pure {α : Type} (a : α) : (pure a : Logged α).events = [] := rfl

@[simp] theorem value_bind {α β : Type} (x : Logged α) (f : α → Logged β) :
    (x >>= f).value = (f x.value).value := rfl

@[simp] theorem events_bind {α β : Type} (x : Logged α) (f : α → Logged β) :
    (x >>= f).events = x.events ++ (f x.value).events := rfl

@[simp] theorem value_map {α β : Type} (f : α → β) (x : Logged α) : (f <$> x).value = f x.value := rfl

instance : LawfulMonad Logged :=
  LawfulMonad.mk' Logged
    (fun x => by ext1 <;> simp [Functor.map])
    (fun a f => by ext1 <;> simp)
    (fun x f g => by ext1 <;> simp)

def note (e : Journal.Event) : Logged Unit := ⟨(), [e]⟩

end Logged

end Woodland
