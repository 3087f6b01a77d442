import Mathlib.Tactic
import Woodland.Tree.Basic

/-! Repeated draws, and draws that are reported on their way. -/

namespace Woodland

namespace Draw

variable {α β : Type}

lemma mapM_forall₂ {R : α → β → Prop} (f : α → Draw β) (h : ∀ a g, R a ((f a).run g).1) (xs : List α)
    (g : Generator) : List.Forall₂ R xs ((xs.mapM f).run g).1 := by
  induction xs generalizing g with
  | nil => exact .nil
  | cons a xs ih =>
    rw [List.mapM_cons]
    exact .cons (h a g) (ih _)

lemma length_times (n : ℕ) (d : Draw α) (g : Generator) : ((times n d).run g).1.length = n := by
  have h := (mapM_forall₂ (R := fun _ _ => True) (fun _ => d) (fun _ _ => trivial) (List.replicate n ()) g).length_eq
  rw [List.length_replicate] at h
  exact h.symm

lemma forall_mem_mapM {P : β → Prop} {f : α → Draw β} (h : ∀ a g, P ((f a).run g).1) (xs : List α)
    (g : Generator) : ∀ b ∈ ((xs.mapM f).run g).1, P b := by
  have hr := mapM_forall₂ (R := fun _ b => P b) f h xs g
  generalize ((xs.mapM f).run g).1 = ys at hr
  induction hr with
  | nil => simp
  | cons hb _ ih => exact List.forall_mem_cons.mpr ⟨hb, ih⟩

lemma map_mapM {γ : Type} {f : α → Draw β} {key : β → γ} {place : α → γ} (h : ∀ a g, key ((f a).run g).1 = place a)
    (xs : List α) (g : Generator) : ((xs.mapM f).run g).1.map key = xs.map place := by
  induction xs generalizing g with
  | nil => rfl
  | cons a xs ih =>
    rw [List.mapM_cons]
    exact congrArg₂ List.cons (h a g) (ih _)

lemma forall_mem_times {P : α → Prop} {d : Draw α} (h : ∀ g, P (d.run g).1) (n : ℕ) (g : Generator) :
    ∀ a ∈ ((times n d).run g).1, P a :=
  forall_mem_mapM (fun _ => h) (List.replicate n ()) g

end Draw

namespace Growing

variable {α β : Type}

def quiet (x : Growing α) : Draw α := fun g => (x.run g).value

@[simp] lemma quiet_pure (a : α) : quiet (pure a) = pure a := rfl

@[simp] lemma quiet_bind (x : Growing α) (k : α → Growing β) : quiet (x >>= k) = x.quiet >>= fun a => (k a).quiet :=
  rfl

@[simp] lemma quiet_map (h : α → β) (x : Growing α) : quiet (h <$> x) = h <$> x.quiet := rfl

@[simp] lemma quiet_draw (d : Draw α) : quiet (Growing.draw d) = d := rfl

lemma quiet_mapM (f : α → Growing β) (xs : List α) : quiet (xs.mapM f) = xs.mapM fun a => (f a).quiet := by
  induction xs with
  | nil => rfl
  | cons a xs ih => simp [List.mapM_cons, ih]

end Growing

end Woodland
