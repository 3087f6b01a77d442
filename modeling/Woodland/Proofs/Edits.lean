import Mathlib.Tactic
import Woodland.Edit

/-!
Edits that are refused. Reading and failing write nothing, so that an edit that writes once, after all that can fail,
leaves what it is refused on as it was.
-/

namespace Woodland.Edit

variable {σ τ α β : Type} {e : Edit σ α}

@[simp] lemma run_get (s : σ) : run get s = (.ok s, s) := rfl

@[simp] lemma run_modify (f : σ → σ) (s : σ) : run (modify f) s = (.ok (), f s) := rfl

@[simp] lemma run_throw (r : Error) (s : σ) : run (throw r : Edit σ α) s = (.error r, s) := rfl

@[simp] lemma run_ofExcept (x : Except Error α) (s : σ) : run (ofExcept x) s = (x, s) := by cases x <;> rfl

@[simp] lemma run_within (part : σ → τ) (put : σ → τ → σ) (e : Edit τ α) (s : σ) :
    run (within part put e) s = ((e.run (part s)).1, put s (e.run (part s)).2) := rfl

@[simp] lemma run_bind (e : Edit σ α) (k : α → Edit σ β) (s : σ) :
    run (e >>= k) s =
      match e.run s with
      | (.ok a, t) => (k a).run t
      | (.error r, t) => (.error r, t) := by
  change (ExceptT.bindCont k (e.run s).1) (e.run s).2 = _
  rcases e.run s with ⟨r | a, t⟩
  · rfl
  · rfl

def Reads (e : Edit σ α) : Prop := ∀ s, (e.run s).2 = s

/-- Where it is refused, nothing is written. -/
def Careful (e : Edit σ α) : Prop := ∀ s r, (e.run s).1 = .error r → (e.run s).2 = s

lemma reads_get : Reads (get : Edit σ σ) := fun _ => rfl

lemma reads_throw (r : Error) : Reads (throw r : Edit σ α) := fun _ => rfl

lemma reads_ofExcept (x : Except Error α) : Reads (ofExcept x : Edit σ α) := fun s => by rw [run_ofExcept]

lemma Reads.careful (h : e.Reads) : e.Careful := fun s _ _ => h s

lemma careful_modify (f : σ → σ) : Careful (modify f : Edit σ PUnit) := fun _ _ h => by cases h

lemma Reads.bind_careful (h : e.Reads) {k : α → Edit σ β} (hk : ∀ a, (k a).Careful) : (e >>= k).Careful := by
  intro s r hr
  have hs := h s
  rw [run_bind] at hr ⊢
  rcases he : e.run s with ⟨r' | a, t⟩
  · rw [he] at hs
    exact hs
  · rw [he] at hs hr
    obtain rfl : t = s := hs
    exact hk a t r hr

lemma Careful.within {e : Edit τ α} (h : e.Careful) {part : σ → τ} {put : σ → τ → σ}
    (hput : ∀ s, put s (part s) = s) : (within part put e).Careful := by
  intro s r hr
  rw [run_within, h (part s) r hr, hput]

lemma Careful.run_eq {e : Edit σ Unit} (h : e.Careful) (s : σ) :
    e.run s =
      match e.onCopy s with
      | .ok t => (.ok (), t)
      | .error r => (.error r, s) := by
  have hs := h s
  rw [onCopy]
  rcases he : e.run s with ⟨r | ⟨⟩, t⟩
  · rw [he] at hs
    exact congrArg (Prod.mk _) (hs r rfl)
  · rfl

end Woodland.Edit
