import Mathlib.Tactic
import Woodland.Proofs.Results

/-!
Lists whose neighbours may be exchanged where they are of different kinds. Two lists are equal up to such exchanges
as soon as the members of each kind come in the same order.
-/

namespace Woodland

inductive Exchange {γ κ : Type} (kind : γ → κ) : List γ → List γ → Prop where
  | refl (l : List γ) : Exchange kind l l
  | swap (l m : List γ) {a b : γ} (h : kind a ≠ kind b) : Exchange kind (l ++ a :: b :: m) (l ++ b :: a :: m)
  | trans {l m n : List γ} (h : Exchange kind l m) (h' : Exchange kind m n) : Exchange kind l n

namespace Exchange

variable {γ κ : Type} {kind : γ → κ} {l m : List γ}

lemma symm (h : Exchange kind l m) : Exchange kind m l := by
  induction h with
  | refl l => exact .refl l
  | swap l m hk => exact .swap l m hk.symm
  | trans _ _ ih ih' => exact ih'.trans ih

lemma perm (h : Exchange kind l m) : l.Perm m := by
  induction h with
  | refl l => exact .refl l
  | swap l m _ => exact .append_left l (.swap _ _ m)
  | trans _ _ ih ih' => exact ih.trans ih'

lemma append_left (n : List γ) (h : Exchange kind l m) : Exchange kind (n ++ l) (n ++ m) := by
  induction h with
  | refl l => exact .refl (n ++ l)
  | swap l m hk =>
    rw [← List.append_assoc, ← List.append_assoc]
    exact .swap (n ++ l) m hk
  | trans _ _ ih ih' => exact ih.trans ih'

lemma append_right (n : List γ) (h : Exchange kind l m) : Exchange kind (l ++ n) (m ++ n) := by
  induction h with
  | refl l => exact .refl (l ++ n)
  | swap l m hk =>
    rw [List.append_assoc, List.append_assoc]
    exact .swap l (m ++ n) hk
  | trans _ _ ih ih' => exact ih.trans ih'

lemma cons (a : γ) (h : Exchange kind l m) : Exchange kind (a :: l) (a :: m) := h.append_left [a]

lemma to_front {a : γ} (h : ∀ b ∈ l, kind b ≠ kind a) : Exchange kind (l ++ a :: m) (a :: (l ++ m)) := by
  induction l with
  | nil => exact .refl (a :: m)
  | cons b l ih =>
    obtain ⟨hb, hl⟩ := List.forall_mem_cons.mp h
    exact (cons b (ih hl)).trans (.swap [] (l ++ m) hb)

lemma of_filter_eq [DecidableEq κ] (h : ∀ k, l.filter (kind · = k) = m.filter (kind · = k)) : Exchange kind l m := by
  induction l generalizing m with
  | nil =>
    cases m with
    | nil => exact .refl []
    | cons b m => simpa using h (kind b)
  | cons a l ih =>
    have ha := (h (kind a)).symm
    rw [List.filter_cons_of_pos (by simp)] at ha
    obtain ⟨u, v, rfl, hu, -, hv⟩ := List.filter_eq_cons_iff.mp ha
    have hu : ∀ b ∈ u, kind b ≠ kind a := by simpa using hu
    refine (cons a (ih fun k => ?_)).trans (to_front hu).symm
    rw [List.filter_append]
    by_cases hk : kind a = k
    · have hn : u.filter (kind · = k) = [] := List.filter_eq_nil_iff.mpr fun b hb => by simpa [← hk] using hu b hb
      rw [hn, List.nil_append, ← hk, ← hv]
    · have hr := h k
      rw [List.filter_append, List.filter_cons_of_neg (by simpa using hk),
        List.filter_cons_of_neg (by simpa using hk)] at hr
      exact hr

lemma filter_eq [DecidableEq κ] (h : Exchange kind l m) (k : κ) : l.filter (kind · = k) = m.filter (kind · = k) := by
  induction h with
  | refl l => rfl
  | @swap l m a b hk =>
    rw [List.filter_append, List.filter_append]
    by_cases ha : kind a = k
    · have hb : kind b ≠ k := fun hb => hk (ha.trans hb.symm)
      simp [ha, hb]
    · simp [List.filter_cons, ha]
  | trans _ _ ih ih' => exact ih.trans ih'

variable {δ : Type} {kind' : δ → κ} {R : γ → δ → Prop}

lemma forall₂_swap (hk : ∀ a b, R a b → kind' b = kind a) {a b : γ} (h : kind a ≠ kind b) {es : List δ}
    (hr : List.Forall₂ R (l ++ a :: b :: m) es) :
    ∃ es', List.Forall₂ R (l ++ b :: a :: m) es' ∧ Exchange kind' es es' := by
  induction l generalizing es with
  | nil =>
    obtain ⟨d, _, hd, hr₁, rfl⟩ := List.forall₂_cons_left_iff.mp hr
    obtain ⟨e, es, he, hr₂, rfl⟩ := List.forall₂_cons_left_iff.mp hr₁
    exact ⟨e :: d :: es, .cons he (.cons hd hr₂), .swap [] es (by rwa [hk a d hd, hk b e he])⟩
  | cons c l ih =>
    obtain ⟨d, es, hd, hr₁, rfl⟩ := List.forall₂_cons_left_iff.mp hr
    obtain ⟨es', hr', hx⟩ := ih hr₁
    exact ⟨d :: es', .cons hd hr', cons d hx⟩

lemma forall₂ (hk : ∀ a b, R a b → kind' b = kind a) (h : Exchange kind l m) {es : List δ}
    (hr : List.Forall₂ R l es) : ∃ es', List.Forall₂ R m es' ∧ Exchange kind' es es' := by
  induction h generalizing es with
  | refl l => exact ⟨es, hr, .refl es⟩
  | swap l m h => exact forall₂_swap hk h hr
  | trans _ _ ih ih' =>
    obtain ⟨es', hr', hx⟩ := ih hr
    obtain ⟨es'', hr'', hx'⟩ := ih' hr'
    exact ⟨es'', hr'', hx.trans hx'⟩

variable {ε σ : Type} {f : σ → γ → Except ε σ} {P : σ → Prop}

lemma foldlM_cons_ok_iff {s t : σ} {a : γ} :
    (a :: l).foldlM f s = .ok t ↔ ∃ r, f s a = .ok r ∧ l.foldlM f r = .ok t := by
  rw [List.foldlM_cons]
  exact bind_ok_iff

lemma foldlM_append_ok_iff {s t : σ} :
    (l ++ m).foldlM f s = .ok t ↔ ∃ r, l.foldlM f s = .ok r ∧ m.foldlM f r = .ok t := by
  rw [List.foldlM_append]
  exact bind_ok_iff

lemma foldlM_keeps (hstep : ∀ {s t a}, P s → f s a = .ok t → P t) {s t : σ} (hs : P s) (hl : l.foldlM f s = .ok t) :
    P t := by
  induction l generalizing s with
  | nil => exact Except.ok.inj hl ▸ hs
  | cons a l ih =>
    obtain ⟨r, ha, hr⟩ := foldlM_cons_ok_iff.mp hl
    exact ih (hstep hs ha) hr

/-- Where steps of different kinds commute from every state that steps lead to, the order of kinds does not count. -/
lemma foldlM_ok (hstep : ∀ {s t a}, P s → f s a = .ok t → P t)
    (hswap : ∀ {s r t a b}, P s → kind a ≠ kind b → f s a = .ok r → f r b = .ok t →
      ∃ r', f s b = .ok r' ∧ f r' a = .ok t)
    (h : Exchange kind l m) {s t : σ} (hs : P s) (hl : l.foldlM f s = .ok t) : m.foldlM f s = .ok t := by
  induction h generalizing t with
  | refl l => exact hl
  | swap l m hk =>
    obtain ⟨r, hr, hl⟩ := foldlM_append_ok_iff.mp hl
    obtain ⟨r₁, ha, hl⟩ := foldlM_cons_ok_iff.mp hl
    obtain ⟨r₂, hb, hm⟩ := foldlM_cons_ok_iff.mp hl
    obtain ⟨r', hb', ha'⟩ := hswap (foldlM_keeps hstep hs hr) hk ha hb
    exact foldlM_append_ok_iff.mpr
      ⟨r, hr, foldlM_cons_ok_iff.mpr ⟨r', hb', foldlM_cons_ok_iff.mpr ⟨r₂, ha', hm⟩⟩⟩
  | trans _ _ ih ih' => exact ih' (ih hl)

end Exchange

end Woodland
