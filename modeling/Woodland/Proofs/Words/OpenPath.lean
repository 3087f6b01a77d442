import Mathlib.Tactic
import Woodland.Proofs.Words.Rooted
import Woodland.Tree.Turtle

/-!
The open path of a word: what is left of it without its groups, without closes that have no open and without the
symbols that no turtle knows.
-/

namespace Woodland.Word

def Matched (w : Word) (i j : ℕ) : Prop :=
  i < j ∧ w[i]? = some '[' ∧ w[j]? = some ']' ∧ WellNested ((w.take j).drop (i + 1))

instance (w : Word) (i j : ℕ) : Decidable (Matched w i j) :=
  inferInstanceAs (Decidable (_ ∧ _ ∧ _ ∧ _))

def InGroup (w : Word) (k : ℕ) : Prop := ∃ i ≤ k, ∃ j < w.length, k ≤ j ∧ Matched w i j

instance (w : Word) (k : ℕ) : Decidable (InGroup w k) :=
  inferInstanceAs (Decidable (∃ i ≤ k, ∃ j < w.length, k ≤ j ∧ Matched w i j))

/-- Unknown symbols, groups with all that they hold and closes without an open are dropped. -/
def Stays (w : Word) (k : ℕ) (c : Char) : Prop := (Command.ofSymbol? c).isSome ∧ ¬InGroup w k ∧ c ≠ ']'

instance (w : Word) (k : ℕ) (c : Char) : Decidable (Stays w k c) :=
  inferInstanceAs (Decidable (_ ∧ _ ∧ _))

def openPath (w : Word) : Word := (w.zipIdx.filter fun p => Stays w p.2 p.1).map Prod.fst

variable {u v w m m' : Word} {c : Char} {i j k : ℕ}

lemma drop_eq_cons (h : w[i]? = some c) : w.drop i = c :: w.drop (i + 1) := by
  obtain ⟨hi, hc⟩ := List.getElem?_eq_some_iff.mp h
  rw [List.drop_eq_getElem_cons hi, hc]

lemma matched_iff :
    Matched w i j ↔ ∃ u m v, w = u ++ (m.enclosed ++ v) ∧ WellNested m ∧ u.length = i ∧ j = i + m.length + 1 := by
  simp only [enclosed_append]
  constructor
  · rintro ⟨hij, ho, hc, hm⟩
    have hj : j < w.length := (List.getElem?_eq_some_iff.mp hc).1
    have ho' : (w.take j)[i]? = some '[' := by rw [List.getElem?_take_of_lt hij, ho]
    refine ⟨w.take i, (w.take j).drop (i + 1), w.drop (j + 1), ?_, hm, ?_, ?_⟩
    · calc w = w.take j ++ w.drop j := (List.take_append_drop j w).symm
        _ = (w.take j).take i ++ (w.take j).drop i ++ w.drop j := by rw [List.take_append_drop i]
        _ = _ := by
          rw [drop_eq_cons ho', drop_eq_cons hc, List.take_take, Nat.min_eq_left hij.le]
          simp
    · rw [List.length_take]
      omega
    · rw [List.length_drop, List.length_take]
      omega
  · rintro ⟨u, m, v, rfl, hm, rfl, rfl⟩
    refine ⟨by omega, by simp, ?_, ?_⟩
    · have he : u.length + m.length + 1 = u.length + (m.length + 1) := by omega
      rw [he, List.getElem?_append_right (by omega)]
      simp
    · have he : u.length + m.length + 1 = u.length + (m.length + 1) := by omega
      rw [he, List.take_length_add_append, List.drop_length_add_append]
      simpa using hm

lemma matched_cons : Matched (c :: w) (i + 1) (j + 1) ↔ Matched w i j := by
  simp [Matched]

lemma matched_append (u : Word) : Matched (u ++ w) (u.length + i) (u.length + j) ↔ Matched w i j := by
  induction u with
  | nil => simp
  | cons c u ih =>
    have hi : (c :: u).length + i = u.length + i + 1 := by simp; omega
    have hj : (c :: u).length + j = u.length + j + 1 := by simp; omega
    rw [hi, hj]
    exact matched_cons.trans ih

lemma not_matched_zero (h : c ≠ '[' ∨ Rooted w) (j : ℕ) : ¬Matched (c :: w) 0 j := by
  intro hm
  obtain ⟨u, m, v, he, hn, hu, -⟩ := matched_iff.mp hm
  obtain rfl := List.eq_nil_of_length_eq_zero hu
  rw [List.nil_append, enclosed_append] at he
  obtain ⟨rfl, rfl⟩ := List.cons_eq_cons.mp he
  rcases h with h | h
  · exact h rfl
  · exact not_rooted_of_closed hn.count_eq.le v h

lemma not_inGroup_zero (h : c ≠ '[' ∨ Rooted w) : ¬InGroup (c :: w) 0 := by
  rintro ⟨i, hi, j, -, -, hm⟩
  obtain rfl : i = 0 := by omega
  exact not_matched_zero h j hm

lemma inGroup_cons (h : c ≠ '[' ∨ Rooted w) (k : ℕ) : InGroup (c :: w) (k + 1) ↔ InGroup w k := by
  constructor
  · rintro ⟨i, hi, j, hj, hk, hm⟩
    cases i with
    | zero => exact absurd hm (not_matched_zero h j)
    | succ i =>
      obtain ⟨j, rfl⟩ : ∃ j', j = j' + 1 := ⟨j - 1, by omega⟩
      exact ⟨i, by omega, j, by simpa using hj, by omega, matched_cons.mp hm⟩
  · rintro ⟨i, hi, j, hj, hk, hm⟩
    exact ⟨i + 1, by omega, j + 1, by simpa using hj, by omega, matched_cons.mpr hm⟩

lemma closes_within (hm : WellNested m) (h : Matched (m.enclosed ++ v) i j) (hi : i < m.enclosed.length) :
    j < m.enclosed.length := by
  obtain ⟨a, m', v', he, hm', rfl, rfl⟩ := matched_iff.mp h
  rw [enclosed_append, enclosed_append] at he
  rw [length_enclosed] at hi ⊢
  cases a with
  | nil =>
    obtain ⟨-, he⟩ := List.cons_eq_cons.mp he
    have hl := length_le_of_closed hm.count_eq.le hm'.rooted he.symm
    simp
    omega
  | cons d a =>
    obtain ⟨rfl, he'⟩ := List.cons_eq_cons.mp he
    -- the inner group opens within `m`: what `m` still closes from there on bounds how far it reaches
    rcases List.append_eq_append_iff.mp he' with ⟨b, rfl, hb⟩ | ⟨b, rfl, hb⟩
    · cases b with
      | nil => simp at hb
      | cons d b => simp at hi
    · cases b with
      | nil => simp at hb
      | cons d b =>
        obtain ⟨rfl, hb'⟩ := List.cons_eq_cons.mp hb
        have hle : b.count '[' ≤ b.count ']' := by
          have hs := hm.count_le_of_suffix (List.suffix_append a ('[' :: b))
          simp at hs
          omega
        have hl := length_le_of_closed hle hm'.rooted hb'
        simp
        omega

lemma inGroup_of_lt (hm : WellNested m) (v : Word) (hk : k < m.enclosed.length) : InGroup (m.enclosed ++ v) k := by
  have hg : Matched (m.enclosed ++ v) 0 (m.length + 1) := matched_iff.mpr ⟨[], m, v, rfl, hm, rfl, by simp⟩
  rw [length_enclosed] at hk
  refine ⟨0, by omega, m.length + 1, ?_, by omega, hg⟩
  rw [List.length_append, length_enclosed]
  omega

lemma inGroup_append (hm : WellNested m) (v : Word) (k : ℕ) :
    InGroup (m.enclosed ++ v) (m.enclosed.length + k) ↔ InGroup v k := by
  constructor
  · rintro ⟨i, hi, j, hj, hk, hg⟩
    have hlate : m.enclosed.length ≤ i := by
      by_contra hlt
      have hj' := closes_within hm hg (by omega)
      omega
    obtain ⟨i, rfl⟩ := Nat.exists_eq_add_of_le hlate
    obtain ⟨j, rfl⟩ := Nat.exists_eq_add_of_le (show m.enclosed.length ≤ j by omega)
    rw [List.length_append] at hj
    exact ⟨i, by omega, j, by omega, by omega, (matched_append _).mp hg⟩
  · rintro ⟨i, hi, j, hj, hk, hg⟩
    refine ⟨m.enclosed.length + i, by omega, m.enclosed.length + j, ?_, by omega, (matched_append _).mpr hg⟩
    rw [List.length_append]
    omega

lemma openPath_append (h : ∀ k, InGroup (u ++ v) (u.length + k) ↔ InGroup v k) :
    openPath (u ++ v) = (u.zipIdx.filter fun p => Stays (u ++ v) p.2 p.1).map Prod.fst ++ openPath v := by
  have hs : ∀ p : Char × ℕ, Stays (u ++ v) (u.length + p.2) p.1 ↔ Stays v p.2 p.1 := by
    intro p
    rw [Stays, Stays, h]
  have hv : v.zipIdx u.length = v.zipIdx.map fun p => (p.1, u.length + p.2) := List.zipIdx_eq_map_add
  rw [openPath, openPath, List.zipIdx_append, Nat.zero_add, List.filter_append, List.map_append, hv,
    List.filter_map, List.map_map]
  simp only [Function.comp_def, hs]

lemma openPath_cons (h : c ≠ '[' ∨ Rooted w) :
    openPath (c :: w) = if (Command.ofSymbol? c).isSome ∧ c ≠ ']' then c :: openPath w else openPath w := by
  have hs : Stays (c :: w) 0 c ↔ (Command.ofSymbol? c).isSome ∧ c ≠ ']' := by
    rw [Stays, and_iff_right (not_inGroup_zero h)]
  have hk : ∀ k, InGroup ([c] ++ w) ([c].length + k) ↔ InGroup w k := by
    intro k
    rw [Nat.add_comm]
    exact inGroup_cons h k
  rw [← List.singleton_append, openPath_append hk]
  by_cases hc : (Command.ofSymbol? c).isSome ∧ c ≠ ']'
  · rw [if_pos hc]
    simp [hs.mpr hc]
  · rw [if_neg hc]
    simp [mt hs.mp hc]

lemma openPath_group (hm : WellNested m) (v : Word) : openPath (m.enclosed ++ v) = openPath v := by
  have hnone : (m.enclosed.zipIdx.filter fun p => Stays (m.enclosed ++ v) p.2 p.1) = [] := by
    apply List.filter_eq_nil_iff.mpr
    intro p hp
    have hk : p.2 < m.enclosed.length := by simpa using List.snd_lt_add_of_mem_zipIdx hp
    simpa using fun hst : Stays _ _ _ => hst.2.1 (inGroup_of_lt hm v hk)
  rw [openPath_append (inGroup_append hm v), hnone]
  rfl

example : openPath "]F[+[F]&[-F]XF]]/[[^]F".toList = "F/[F".toList := by decide +kernel

lemma induction_groups {P : Word → Prop} (nil : P []) (plain : ∀ c w, c ≠ '[' → P w → P (c :: w))
    (group : ∀ m v, WellNested m → P v → P (m.enclosed ++ v))
    (opened : ∀ w, Rooted w → P w → P ('[' :: w)) (w : Word) : P w := by
  induction h : w.length using Nat.strong_induction_on generalizing w with
  | _ n ih =>
    cases w with
    | nil => exact nil
    | cons c w =>
      by_cases hc : c = '['
      · subst hc
        by_cases hr : Rooted w
        · exact opened w hr (ih w.length (by simp at h; omega) w rfl)
        · obtain ⟨m, v, hm, rfl⟩ := exists_of_not_rooted hr
          rw [← enclosed_append]
          exact group m v hm (ih v.length (by simp at h; omega) v rfl)
      · exact plain c w hc (ih w.length (by simp at h; omega) w rfl)

lemma close_not_mem_openPath (w : Word) : ']' ∉ openPath w := by
  simp [openPath, Stays]

end Woodland.Word
