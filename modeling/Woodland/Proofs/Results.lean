import Mathlib.Tactic

/-! When a computation that can fail has ended well, and when two of them end alike. -/

namespace Woodland

variable {ε ε' α β : Type}

lemma map_ok_iff {h : α → β} {x : Except ε α} {b : β} : x.map h = .ok b ↔ ∃ a, x = .ok a ∧ h a = b := by
  cases x <;> simp [Except.map]

lemma mapError_ok_iff {h : ε → ε'} {x : Except ε α} {a : α} : x.mapError h = .ok a ↔ x = .ok a := by
  cases x <;> simp [Except.mapError]

lemma bind_ok_iff {k : α → Except ε β} {x : Except ε α} {b : β} :
    x.bind k = .ok b ↔ ∃ a, x = .ok a ∧ k a = .ok b := by
  cases x <;> simp [Except.bind]

lemma guard_ok_iff (c : Prop) [Decidable c] (e : ε) (k : Except ε α) (a : α) :
    (if c then (throw e >>= fun _ : PUnit => k) else k) = .ok a ↔ ¬c ∧ k = .ok a := by
  by_cases h : c <;> simp [h, throw, throwThe, MonadExceptOf.throw, bind, Except.bind]

lemma guard_error_iff (c : Prop) [Decidable c] (e : ε) (k : Except ε α) (e' : ε) :
    (if c then (throw e >>= fun _ : PUnit => k) else k) = .error e' ↔ (c ∧ e = e') ∨ (¬c ∧ k = .error e') := by
  by_cases h : c <;> simp [h, throw, throwThe, MonadExceptOf.throw, bind, Except.bind]

variable {ι : Type} {f : ι → Except ε Unit} {xs : List ι}

lemma forM_cons (f : ι → Except ε Unit) (x : ι) (xs : List ι) :
    (x :: xs).forM f = (f x).bind fun _ => xs.forM f := rfl

lemma forM_ok_iff : xs.forM f = .ok () ↔ ∀ x ∈ xs, f x = .ok () := by
  induction xs with
  | nil => exact iff_of_true rfl (by simp)
  | cons x xs ih =>
    rw [forM_cons, bind_ok_iff, List.forall_mem_cons, ih]
    exact ⟨fun ⟨_, h⟩ => h, fun h => ⟨(), h⟩⟩

lemma forM_of_others {x : ι} (hx : x ∈ xs) (h : ∀ y, y ≠ x → f y = .ok ()) : xs.forM f = f x := by
  cases hf : f x with
  | ok u =>
    refine forM_ok_iff.mpr fun y _ => ?_
    by_cases hy : y = x
    · exact hy ▸ hf
    · exact h y hy
  | error e =>
    induction xs with
    | nil => simp at hx
    | cons y xs ih =>
      rw [forM_cons]
      by_cases hy : y = x
      · rw [hy, hf]
        rfl
      · rw [h y hy]
        exact ih ((List.mem_cons.mp hx).resolve_left (Ne.symm hy))

inductive Agree (R : α → β → Prop) : Except ε α → Except ε β → Prop where
  | error (e : ε) : Agree R (.error e) (.error e)
  | ok {a : α} {b : β} (h : R a b) : Agree R (.ok a) (.ok b)

namespace Agree

variable {γ δ : Type} {R : α → β → Prop} {S : γ → δ → Prop} {x : Except ε α} {y : Except ε β}

lemma bind (h : Agree R x y) {k : α → Except ε γ} {l : β → Except ε δ}
    (hk : ∀ a b, x = .ok a → y = .ok b → R a b → Agree S (k a) (l b)) : Agree S (x.bind k) (y.bind l) := by
  cases h with
  | error e => exact .error e
  | ok h => exact hk _ _ rfl rfl h

lemma map (h : Agree R x y) {k : α → γ} {l : β → δ} (hk : ∀ a b, R a b → S (k a) (l b)) :
    Agree S (x.map k) (y.map l) := by
  cases h with
  | error e => exact .error e
  | ok h => exact .ok (hk _ _ h)

lemma mapError (h : Agree R x y) (k : ε → ε') : Agree R (x.mapError k) (y.mapError k) := by
  cases h with
  | error e => exact .error (k e)
  | ok h => exact .ok h

lemma error_or_ok (h : Agree R x y) :
    (∃ e, x = .error e ∧ y = .error e) ∨ ∃ a b, x = .ok a ∧ y = .ok b ∧ R a b := by
  cases h with
  | error e => exact .inl ⟨e, rfl, rfl⟩
  | ok h => exact .inr ⟨_, _, rfl, rfl, h⟩

lemma exists_ok (h : Agree R x y) {a : α} (hx : x = .ok a) : ∃ b, y = .ok b ∧ R a b := by
  subst hx
  cases h with
  | ok h => exact ⟨_, rfl, h⟩

end Agree

end Woodland
