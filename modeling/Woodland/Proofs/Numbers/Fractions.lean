import Mathlib.Tactic
import Woodland.Binary.Format

/-!
Comparing a number `v` with fractions of small terms when only a `w` close to it is at hand. The fractions that could
stand on the wrong side lie in a short interval, and the simplest one there tells whether its terms are small.
-/

namespace Woodland.Binary

/-- Terms that no fraction between `a / b` and `c / d` falls below, by the continued fractions of the two. -/
def simplest : ℕ → ℕ → ℕ → ℕ → ℕ → ℕ × ℕ
  | 0, _, _, _, _ => (0, 0)
  | fuel + 1, a, b, c, d =>
    if a % b = 0 then (a / b, 1)
    else if (a / b + 1) * d ≤ c then (a / b + 1, 1)
    else
      let s := simplest fuel d (c - a / b * d) b (a % b)
      (a / b * s.1 + s.2, s.1)

lemma simplest_le (fuel : ℕ) {a b c d n m : ℕ} (hb : 0 < b) (hm : 0 < m) (h : a * m ≤ n * b) (h' : n * d ≤ c * m) :
    (simplest fuel a b c d).1 ≤ n ∧ (simplest fuel a b c d).2 ≤ m := by
  induction fuel generalizing a b c d n m with
  | zero => exact ⟨Nat.zero_le n, Nat.zero_le m⟩
  | succ fuel ih =>
    have hq := Nat.div_add_mod' a b
    rw [simplest]
    set q := a / b
    set r := a % b
    rw [← hq] at h
    -- without the whole part that they share, the fractions are `r / b`, `i / m` and `u / d`
    have hqm : q * m ≤ n := Nat.le_of_mul_le_mul_right (by linarith [Nat.zero_le (r * m)]) hb
    obtain ⟨i, rfl⟩ := Nat.exists_eq_add_of_le hqm
    have hri : r * m ≤ i * b := by linarith
    have hqle : q ≤ q * m := Nat.le_mul_of_pos_right q hm
    split_ifs with h₀ h₁
    · exact ⟨hqle.trans (Nat.le_add_right _ i), hm⟩
    all_goals
      have hi : 0 < i := Nat.pos_of_mul_pos_right ((Nat.mul_pos (Nat.pos_of_ne_zero h₀) hm).trans_le hri)
    · exact ⟨Nat.add_le_add hqle hi, hm⟩
    · have hc : q * d ≤ c := Nat.le_of_mul_le_mul_right (by linarith [Nat.zero_le (i * d)]) hm
      obtain ⟨u, rfl⟩ := Nat.exists_eq_add_of_le hc
      have hiu : i * d ≤ u * m := by linarith
      have hud : u < d := by linarith
      have hu : 0 < u := Nat.pos_of_mul_pos_right ((Nat.mul_pos hi (by omega)).trans_le hiu)
      obtain ⟨h₂, h₃⟩ := ih hu hi (by linarith : d * i ≤ m * u) (by linarith : m * r ≤ b * i)
      rw [Nat.add_sub_cancel_left]
      exact ⟨Nat.add_le_add (Nat.mul_le_mul_left q h₂) h₃, h₂⟩

/--
Whether `w` takes the place of `v` for `N / D`: it is on the same side, with room for an error of half a unit of 53
digits, or as exact.
-/
structure Agrees (v w : ℚ) (N D : ℕ) : Prop where
  below : D * v < N → D * w + 1 / 2 ^ 29 < N
  above : N < D * v → N + 1 / 2 ^ 29 < D * w
  exact : D * v = N → D * w = N

def least (x y : ℕ × ℕ) : ℕ × ℕ := if x.1 * y.2 ≤ y.1 * x.2 then x else y

def greatest (x y : ℕ × ℕ) : ℕ × ℕ := if x.1 * y.2 ≤ y.1 * x.2 then y else x

/-- The ends of an interval with every fraction of a numerator from `n` on for which `w` does not agree with `v`. -/
def bracket (v w : ℕ × ℕ) (n : ℕ) : (ℕ × ℕ) × (ℕ × ℕ) :=
  let t := 2 ^ 29 * n
  (least v (t * w.1, (t + 1) * w.2), greatest v (t * w.1, (t - 1) * w.2))

/-- Whether the interval has no fraction of a small numerator and denominator; a larger `n` makes it shorter. -/
def apart (v w : ℕ × ℕ) : ℕ → ℕ → Bool
  | 0, _ => false
  | fuel + 1, n =>
    let b := bracket v w n
    b.2.1 < b.2.2 || 2 ^ 25 * b.1.2 ≤ b.1.1 ||
      let s := simplest 60 b.1.1 b.1.2 b.2.1 b.2.2
      2 ^ 24 < s.2 || 2 ^ 25 ≤ s.1 || n < s.1 && apart v w fuel s.1

variable {v w x y : ℕ × ℕ} {n N D : ℕ}

lemma least_pos (hx : 0 < x.2) (hy : 0 < y.2) : 0 < (least x y).2 := by
  rw [least]
  split_ifs
  · exact hx
  · exact hy

lemma cross_trans {a b c d e f : ℕ} (hd : 0 < d) (h : a * d ≤ c * b) (h' : c * f ≤ e * d) : a * f ≤ e * b := by
  refine Nat.le_of_mul_le_mul_right ?_ hd
  calc a * f * d = a * d * f := Nat.mul_right_comm _ _ _
    _ ≤ c * b * f := Nat.mul_le_mul_right f h
    _ = c * f * b := Nat.mul_right_comm _ _ _
    _ ≤ e * d * b := Nat.mul_le_mul_right b h'
    _ = e * b * d := Nat.mul_right_comm _ _ _

lemma least_le (hx : 0 < x.2) (hy : 0 < y.2) (h : x.1 * D ≤ N * x.2 ∨ y.1 * D ≤ N * y.2) :
    (least x y).1 * D ≤ N * (least x y).2 := by
  rw [least]
  split_ifs with hc
  · exact h.elim id (cross_trans hy hc)
  · exact h.elim (cross_trans hx (Nat.le_of_not_le hc)) id

lemma le_greatest (hx : 0 < x.2) (hy : 0 < y.2) (h : N * x.2 ≤ x.1 * D ∨ N * y.2 ≤ y.1 * D) :
    N * (greatest x y).2 ≤ (greatest x y).1 * D := by
  rw [greatest]
  split_ifs with hc
  · exact h.elim (fun h => cross_trans hx h hc) id
  · exact h.elim id fun h => cross_trans hy h (Nat.le_of_not_le hc)

lemma agrees_or_between (hv : 0 < v.2) (hw : 0 < w.2) (hn : 0 < n) (hN : n ≤ N) :
    Agrees (v.1 / v.2) (w.1 / w.2) N D ∨ (bracket v w n).1.1 * D ≤ N * (bracket v w n).1.2 ∧
      N * (bracket v w n).2.2 ≤ (bracket v w n).2.1 * D := by
  have hv' : (0 : ℚ) < v.2 := by exact_mod_cast hv
  have hw' : (0 : ℚ) < w.2 := by exact_mod_cast hw
  have hnw : (n * w.2 : ℚ) ≤ N * w.2 := by exact_mod_cast Nat.mul_le_mul_right w.2 hN
  obtain ⟨t, ht⟩ : ∃ t, 2 ^ 29 * n = t + 1 := ⟨2 ^ 29 * n - 1, by omega⟩
  have ht' : (2 ^ 29 * n : ℚ) = t + 1 := by exact_mod_cast ht
  have hpos : 0 < (t + 1 + 1) * w.2 := Nat.mul_pos (Nat.succ_pos _) hw
  have hpos' : 0 < t * w.2 := Nat.mul_pos (by omega) hw
  have hlow (h : v.1 * D ≤ N * v.2 ∨ (t + 1) * w.1 * D ≤ N * ((t + 1 + 1) * w.2)) :
      (bracket v w n).1.1 * D ≤ N * (bracket v w n).1.2 := by
    simp only [bracket, ht]
    exact least_le hv hpos h
  have hhigh (h : N * v.2 ≤ v.1 * D ∨ N * (t * w.2) ≤ (t + 1) * w.1 * D) :
      N * (bracket v w n).2.2 ≤ (bracket v w n).2.1 * D := by
    simp only [bracket, ht, Nat.add_sub_cancel]
    exact le_greatest hv hpos' h
  have hx (i : ℕ) : (D : ℚ) * (i / w.2) * (w.2 * (t + 1)) = i * D * (t + 1) := by field_simp
  have hunit : (1 / 2 ^ 29 : ℚ) * (w.2 * (t + 1)) = n * w.2 := by
    rw [← ht']
    ring
  have hscale : (0 : ℚ) < w.2 * (t + 1) := by positivity
  rcases lt_trichotomy ((D : ℚ) * (v.1 / v.2)) N with h | h | h
  · by_cases g : (D : ℚ) * (w.1 / w.2) + 1 / 2 ^ 29 < N
    · exact .inl ⟨fun _ => g, fun h' => absurd h' h.not_gt, fun h' => absurd h' h.ne⟩
    · right
      have hv₁ : (v.1 * D : ℚ) < N * v.2 := by
        rw [mul_div_assoc', div_lt_iff₀ hv'] at h
        linarith
      have hw₁ : (N * (t * w.2) : ℚ) ≤ (t + 1) * w.1 * D := by
        have := mul_le_mul_of_nonneg_right (not_lt.mp g) hscale.le
        rw [add_mul, hx, hunit] at this
        linarith
      exact ⟨hlow (.inl (by exact_mod_cast hv₁.le)), hhigh (.inr (by exact_mod_cast hw₁))⟩
  · right
    have hv₁ : (v.1 * D : ℚ) = N * v.2 := by
      rw [mul_div_assoc', div_eq_iff hv'.ne'] at h
      linarith
    have hv₂ : v.1 * D = N * v.2 := by exact_mod_cast hv₁
    exact ⟨hlow (.inl hv₂.le), hhigh (.inl hv₂.ge)⟩
  · by_cases g : (N : ℚ) + 1 / 2 ^ 29 < D * (w.1 / w.2)
    · exact .inl ⟨fun h' => absurd h' h.not_gt, fun _ => g, fun h' => absurd h' h.ne'⟩
    · right
      have hv₁ : (N * v.2 : ℚ) < v.1 * D := by
        rw [mul_div_assoc', lt_div_iff₀ hv'] at h
        linarith
      have hw₁ : ((t + 1) * w.1 * D : ℚ) ≤ N * ((t + 1 + 1) * w.2) := by
        have := mul_le_mul_of_nonneg_right (not_lt.mp g) hscale.le
        rw [add_mul, hx, hunit] at this
        linarith
      exact ⟨hlow (.inr (by exact_mod_cast hw₁)), hhigh (.inl (by exact_mod_cast hv₁.le))⟩

structure Small (N D : ℕ) : Prop where
  le : 2 ^ 24 ≤ N
  lt : N < 2 ^ 25
  pos : 0 < D
  le' : D ≤ 2 ^ 24

lemma agrees_of_apart (fuel : ℕ) (hv : 0 < v.2) (hw : 0 < w.2) (h : apart v w fuel n = true) (hn : 0 < n) (hN : n ≤ N)
    (hs : Small N D) : Agrees (v.1 / v.2) (w.1 / w.2) N D := by
  induction fuel generalizing n with
  | zero => cases h
  | succ fuel ih =>
    by_contra hna
    obtain ⟨hlo, hhi⟩ := (agrees_or_between hv hw hn hN).resolve_left hna
    obtain ⟨hN₁, hN₂, hD₁, hD₂⟩ := hs
    have hpos : 0 < (bracket v w n).1.2 := least_pos hv (Nat.mul_pos (Nat.succ_pos _) hw)
    obtain ⟨h₁, h₂⟩ := simplest_le 60 hpos hD₁ hlo hhi
    simp only [apart, Bool.or_eq_true, Bool.and_eq_true, decide_eq_true_eq] at h
    rcases h with (h | h) | (h | h) | ⟨h, h'⟩
    · -- a fraction from `N / D` on is no less than one
      have hlt := Nat.mul_lt_mul_of_pos_right h hD₁
      have hle := Nat.mul_le_mul_right (bracket v w n).2.2 (hD₂.trans hN₁)
      linarith
    · have hle := Nat.mul_le_mul_left (bracket v w n).1.1 hD₁
      have hlt := Nat.mul_lt_mul_of_pos_right hN₂ hpos
      linarith
    · omega
    · omega
    · exact hna (ih h' (by omega) h₁)

end Woodland.Binary
