import Mathlib.Tactic
import Woodland.Proofs.Drawing.Levels
import Woodland.Proofs.Words.OpenPath

/-!
The segments that are drawn on the open path of a word, read from the end of the word: a group leaves no trace, and
any other symbol can only add to them.
-/

namespace Woodland

namespace Word

def openSegments (w : Word) : List ℕ := (List.range w.length).filter fun i => w[i]? = some 'F' ∧ Stays w i 'F'

example : openSegments "]F[+F[F]&[-F]XF]]F[F[".toList = [1, 17, 19] := by decide +kernel

variable {u v w m : Word} {c : Char} {i j k : ℕ}

lemma depth_append_of_rooted (u : Word) (hm : Rooted m) : (u ++ m).depth + m.count ']' = u.depth + m.count '[' := by
  induction m using List.reverseRecOn with
  | nil => simp
  | append_singleton m c ih =>
    have hw := ih (hm.of_prefix (List.prefix_append m [c]))
    have hle := hm _ List.prefix_rfl
    rw [← List.append_assoc, depth_concat]
    rw [List.count_append, List.count_append] at hle ⊢
    obtain rfl | rfl | ⟨p, rfl⟩ := symbol_cases c
    · simp
      omega
    · simp at hle ⊢
      omega
    · simp [p.2.1, p.2.2]
      omega

lemma depth_opened (u : Word) (hm : WellNested m) : (u ++ '[' :: m).depth = u.depth + 1 := by
  have hd := depth_append_of_rooted u hm.rooted.opened
  have hc := hm.count_eq
  simp at hd
  omega

lemma exists_opened (h : 0 < w.depth) : ∃ u m, WellNested m ∧ w = u ++ '[' :: m := by
  induction hn : w.length using Nat.strong_induction_on generalizing w with
  | _ n ih =>
    cases w using List.reverseRecOn with
    | nil => exact absurd h (by decide)
    | append_singleton w c =>
      have hlt : w.length < n := by simp at hn; omega
      rw [depth_concat] at h
      obtain rfl | rfl | ⟨p, rfl⟩ := symbol_cases c
      · exact ⟨w, [], wellNested_nil, rfl⟩
      · -- the close ends a group, and what is open stands before this group
        obtain ⟨u, m, hm, rfl⟩ := ih _ hlt (by simp at h; omega) rfl
        rw [depth_opened u hm] at h
        obtain ⟨u', m', hm', rfl⟩ := ih u.length (by simp at hlt; omega) (by simpa using h) rfl
        exact ⟨u', m' ++ m.enclosed, hm'.append hm.enclosed, by simp [enclosed]⟩
      · obtain ⟨u, m, hm, rfl⟩ := ih _ hlt (by simpa [p.2.1, p.2.2] using h) rfl
        exact ⟨u, m ++ [p.1], hm.append (wellNested_plain p), by simp⟩

lemma induction_ends {P : Word → Prop} (nil : P []) (concat : ∀ w c, c ≠ ']' ∨ depth w = 0 → P w → P (w ++ [c]))
    (group : ∀ u m, WellNested m → P u → P (u ++ m.enclosed)) (w : Word) : P w := by
  induction h : w.length using Nat.strong_induction_on generalizing w with
  | _ n ih =>
    cases w using List.reverseRecOn with
    | nil => exact nil
    | append_singleton w c =>
      by_cases hc : c ≠ ']' ∨ depth w = 0
      · exact concat w c hc (ih w.length (by simp at h; omega) w rfl)
      · obtain ⟨rfl, hd⟩ : c = ']' ∧ 0 < depth w := by simpa [Nat.pos_iff_ne_zero] using hc
        obtain ⟨u, m, hm, rfl⟩ := exists_opened hd
        have he : u ++ '[' :: m ++ [']'] = u ++ m.enclosed := by simp [enclosed]
        rw [he]
        exact group u m hm (ih u.length (by simp at h; omega) u rfl)

lemma matched_append_right (h : j < u.length) : Matched (u ++ v) i j ↔ Matched u i j := by
  by_cases hij : i < j
  · rw [Matched, Matched, List.getElem?_append_left (hij.trans h), List.getElem?_append_left h,
      List.take_append_of_le_length h.le]
  · simp [Matched, hij]

lemma inGroup_append_right (h : ∀ i j, i < u.length → u.length ≤ j → ¬Matched (u ++ v) i j) (hk : k < u.length) :
    InGroup (u ++ v) k ↔ InGroup u k := by
  constructor
  · rintro ⟨i, hi, j, -, hkj, hm⟩
    have hj : j < u.length := by
      by_contra hj
      exact h i j (by omega) (by omega) hm
    exact ⟨i, hi, j, hj, hkj, (matched_append_right hj).mp hm⟩
  · rintro ⟨i, hi, j, hj, hkj, hm⟩
    exact ⟨i, hi, j, by rw [List.length_append]; omega, hkj, (matched_append_right hj).mpr hm⟩

lemma openSegments_append (h : ∀ i j, i < u.length → u.length ≤ j → ¬Matched (u ++ v) i j) :
    openSegments (u ++ v) = openSegments u ++
      ((List.range v.length).map (u.length + ·)).filter fun i =>
        (u ++ v)[i]? = some 'F' ∧ Stays (u ++ v) i 'F' := by
  rw [openSegments, openSegments, List.length_append, List.range_add, List.filter_append]
  congr 1
  apply List.filter_congr
  intro i hi
  have hi := List.mem_range.mp hi
  apply decide_eq_decide.mpr
  rw [List.getElem?_append_left hi, Stays, Stays, inGroup_append_right h hi]

lemma not_matched_concat (hc : c ≠ ']' ∨ u.depth = 0) (hj : u.length ≤ j) : ¬Matched (u ++ [c]) i j := by
  intro h
  obtain ⟨a, m, v, he, hm, rfl, rfl⟩ := matched_iff.mp h
  have hl := congrArg List.length he
  simp at hl
  obtain rfl : v = [] := List.eq_nil_of_length_eq_zero (by omega)
  have hu : u ++ [c] = a ++ '[' :: m ++ [']'] := by simpa [enclosed] using he
  obtain ⟨rfl, hc'⟩ := List.append_inj' hu rfl
  obtain rfl : c = ']' := List.singleton_inj.mp hc'
  rw [depth_opened a hm] at hc
  simp at hc

lemma not_matched_of_rooted (hv : Rooted v) (hi : i < u.length) (hj : u.length ≤ j) : ¬Matched (u ++ v) i j := by
  rintro ⟨-, -, hc, hm⟩
  obtain ⟨k, rfl⟩ := Nat.exists_eq_add_of_le hj
  rw [List.getElem?_append_right hj, Nat.add_sub_cancel_left] at hc
  rw [List.take_length_add_append, List.drop_append_of_le_length hi] at hm
  have hclosed := hv _ (List.take_prefix (k + 1) v)
  have hopened := hm.count_le_of_suffix (List.suffix_append (u.drop (i + 1)) (v.take k))
  rw [List.take_add_one, hc] at hclosed
  simp at hclosed
  omega

lemma openSegments_concat (hc : c ≠ ']' ∨ u.depth = 0) :
    openSegments (u ++ [c]) = if c = 'F' then u.openSegments ++ [u.length] else u.openSegments := by
  have hs : Stays (u ++ [c]) u.length 'F' := by
    refine ⟨rfl, ?_, by decide⟩
    rintro ⟨i, -, j, -, hj, hm⟩
    exact not_matched_concat hc hj hm
  rw [openSegments_append fun i j _ hj => not_matched_concat hc hj]
  by_cases hf : c = 'F'
  · subst hf
    simp [hs]
  · simp [hf]

lemma openSegments_group (hm : WellNested m) (u : Word) : openSegments (u ++ m.enclosed) = openSegments u := by
  rw [openSegments_append fun i j hi hj => not_matched_of_rooted hm.enclosed.rooted hi hj, List.append_right_eq_self]
  apply List.filter_eq_nil_iff.mpr
  intro i hi
  obtain ⟨k, hk, rfl⟩ := List.mem_map.mp hi
  obtain ⟨a, ha, b, hb, hkb, hg⟩ := inGroup_of_lt hm [] (List.mem_range.mp hk)
  rw [List.append_nil] at hb hg
  have hin : InGroup (u ++ m.enclosed) (u.length + k) :=
    ⟨u.length + a, by omega, u.length + b, by simp at hb ⊢; omega, by omega, (matched_append u).mpr hg⟩
  simp [Stays, hin]

end Word

end Woodland
