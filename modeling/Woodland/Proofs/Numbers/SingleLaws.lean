import Mathlib.Tactic
import Woodland.Proofs.Numbers.SingleScale

/-!
Products, differences and whole numbers in single precision: they keep the order of their operands whether they
overflow or not, and zero and one act on them as they do on exact numbers.
-/

namespace Woodland

namespace Single

open Float.Model (UnpackedFloat)
open Float.Model.UnpackedFloat
open Float.Model.Format (binary32)

variable {x y z : Float32}

lemma eq_of_unpacked (h : unpacked x = unpacked y) : x = y := by
  have hbits : x.toModel.toBits.toBitVec = y.toModel.toBits.toBitVec := by
    rw [← Binary.pack_unpack (by decide) x.toModel.valid, ← Binary.pack_unpack (by decide) y.toModel.valid]
    exact congrArg _ h
  obtain ⟨⟨⟨a⟩, ha⟩⟩ := x
  obtain ⟨⟨⟨b⟩, hb⟩⟩ := y
  cases hbits
  rfl

lemma numbers_of_compare {u v : UnpackedFloat} {o : Ordering} (h : UnpackedFloat.compare u v = some o) :
    u.isNaN = false ∧ v.isNaN = false := by
  cases u with
  | notANumber => cases h
  | infinity s | zero s | finite s m e hm =>
    cases v with
    | notANumber => cases s <;> cases h
    | infinity t | zero t | finite t m' e' hm' => exact ⟨rfl, rfl⟩

lemma numbers_of_lt (h : x < y) : x.isNaN = false ∧ y.isNaN = false := by
  rw [lt_iff, UnpackedFloat.lt, beq_iff_eq] at h
  exact numbers_of_compare h

lemma numbers_of_le (h : x ≤ y) : x.isNaN = false ∧ y.isNaN = false := by
  rw [le_iff, UnpackedFloat.le, Option.any_eq_true] at h
  obtain ⟨o, ho, -⟩ := h
  exact numbers_of_compare ho

protected lemma le_trans (h : x ≤ y) (h' : y ≤ z) : x ≤ z := by
  obtain ⟨hx, hy⟩ := numbers_of_le h
  obtain ⟨-, hz⟩ := numbers_of_le h'
  rw [le_iff_of_numbers hx hz]
  exact ((le_iff_of_numbers hx hy).mp h).trans ((le_iff_of_numbers hy hz).mp h')

protected lemma lt_of_le_of_lt (h : x ≤ y) (h' : y < z) : x < z := by
  obtain ⟨hx, hy⟩ := numbers_of_le h
  obtain ⟨-, hz⟩ := numbers_of_lt h'
  rw [lt_iff_of_numbers hx hz]
  exact ((le_iff_of_numbers hx hy).mp h).trans_lt ((lt_iff_of_numbers hy hz).mp h')

lemma not_lt_of_le (h : x ≤ y) : ¬y < x := by
  obtain ⟨hx, hy⟩ := numbers_of_le h
  rw [lt_iff_of_numbers hy hx, not_lt]
  exact (le_iff_of_numbers hx hy).mp h

lemma isNaN_of_isFinite (h : x.isFinite = true) : x.isNaN = false := isNaN_of_proper (regular_unpacked h).proper

lemma le_iff_exact (hx : x.isFinite = true) (hy : y.isFinite = true) :
    x ≤ y ↔ exact (unpacked x) ≤ exact (unpacked y) := by
  rw [le_iff_of_numbers (isNaN_of_isFinite hx) (isNaN_of_isFinite hy), (regular_unpacked hx).place_eq,
    (regular_unpacked hy).place_eq]
  norm_cast

lemma isFinite_of_place (hn : x.isNaN = false) (hb : place (unpacked x) ≠ ⊥) (ht : place (unpacked x) ≠ ⊤) :
    x.isFinite = true := by
  change (unpacked x).isNaN = false at hn
  change (unpacked x).isFinite = true
  cases hx : unpacked x with
  | notANumber => simp [hx, UnpackedFloat.isNaN] at hn
  | infinity s =>
    rw [hx] at hb ht
    cases s
    · exact absurd rfl hb
    · exact absurd rfl ht
  | zero s | finite s m e hm => rfl

lemma isFinite_of_bounds (hx : x.isFinite = true) (hz : z.isFinite = true) (h : x ≤ y) (h' : y ≤ z) :
    y.isFinite = true := by
  obtain ⟨hnx, hny⟩ := numbers_of_le h
  obtain ⟨-, hnz⟩ := numbers_of_le h'
  rw [le_iff_of_numbers hnx hny, (regular_unpacked hx).place_eq] at h
  rw [le_iff_of_numbers hny hnz, (regular_unpacked hz).place_eq] at h'
  exact isFinite_of_place hny (ne_bot_of_le_ne_bot (EReal.coe_ne_bot _) h) (ne_top_of_le_ne_top (EReal.coe_ne_top _) h')

lemma unpacked_mul (x y : Float32) :
    unpacked (x * y) = written (UnpackedFloat.mul binary32 (unpacked x) (unpacked y)) := rfl

lemma unpacked_sub (x y : Float32) :
    unpacked (x - y) = written (UnpackedFloat.sub binary32 (unpacked x) (unpacked y)) := rfl

lemma unpacked_add (x y : Float32) :
    unpacked (x + y) = written (UnpackedFloat.add binary32 (unpacked x) (unpacked y)) := rfl

lemma mul_sign_comm (s t : Sign) : s * t = t * s := by cases s <;> cases t <;> rfl

protected lemma mul_comm (x y : Float32) : x * y = y * x := by
  apply eq_of_unpacked
  rw [unpacked_mul, unpacked_mul]
  congr 1
  cases unpacked x with
  | notANumber => cases unpacked y <;> rfl
  | infinity s | zero s => cases unpacked y <;> simp only [UnpackedFloat.mul, mul_sign_comm s]
  | finite s m e hm =>
    cases unpacked y with
    | notANumber => rfl
    | infinity t | zero t => simp only [UnpackedFloat.mul, mul_sign_comm s]
    | finite t m' e' hm' => simp only [UnpackedFloat.mul, mul_sign_comm s, Nat.mul_comm m, add_comm e]

lemma isFinite_of_sub (h : (x - y).isFinite = true) : x.isFinite = true ∧ y.isFinite = true := by
  have hs : (UnpackedFloat.sub binary32 (unpacked x) (unpacked y)).isFinite = true := isFinite_of_written h
  change (unpacked x).isFinite = true ∧ (unpacked y).isFinite = true
  cases hx : unpacked x with
  | notANumber =>
    rw [hx] at hs
    cases hs
  | infinity s =>
    rw [hx] at hs
    cases hy : unpacked y with
    | notANumber | zero t | finite t m e hm =>
      rw [hy] at hs
      cases hs
    | infinity t =>
      rw [hy, UnpackedFloat.sub] at hs
      split_ifs at hs <;> cases hs
  | zero s | finite s m e hm =>
    cases hy : unpacked y with
    | notANumber | infinity t =>
      rw [hx, hy] at hs
      cases hs
    | zero t | finite t m' e' hm' => exact ⟨rfl, rfl⟩

lemma zero_le_iff_exact (hx : x.isFinite = true) : 0 ≤ x ↔ 0 ≤ exact (unpacked x) := by
  have hz : (0 : Float32).isFinite = true := by rfl
  rw [le_iff_exact hz hx, unpacked_zero, exact_zero]

lemma le_zero_iff_exact (hx : x.isFinite = true) : x ≤ 0 ↔ exact (unpacked x) ≤ 0 := by
  have hz : (0 : Float32).isFinite = true := by rfl
  rw [le_iff_exact hx hz, unpacked_zero, exact_zero]

lemma mul_le_mul_left {c : Float32} (hc : c.isFinite = true) (h₀ : 0 ≤ c) (hx : x.isFinite = true)
    (hy : y.isFinite = true) (h : x ≤ y) : c * x ≤ c * y := by
  rw [zero_le_iff_exact hc] at h₀
  rw [le_iff_exact hx hy] at h
  have hl := roundsTo_mul (regular_unpacked hc) (regular_unpacked hx)
  have hr := roundsTo_mul (regular_unpacked hc) (regular_unpacked hy)
  exact hl.le hr (mul_le_mul_of_nonneg_left h h₀) (unpacked_mul c x) (unpacked_mul c y)

lemma mul_le_mul_right {c : Float32} (hc : c.isFinite = true) (h₀ : 0 ≤ c) (hx : x.isFinite = true)
    (hy : y.isFinite = true) (h : x ≤ y) : x * c ≤ y * c := by
  rw [zero_le_iff_exact hc] at h₀
  rw [le_iff_exact hx hy] at h
  have hl := roundsTo_mul (regular_unpacked hx) (regular_unpacked hc)
  have hr := roundsTo_mul (regular_unpacked hy) (regular_unpacked hc)
  exact hl.le hr (mul_le_mul_of_nonneg_right h h₀) (unpacked_mul x c) (unpacked_mul y c)

lemma unpacked_sub_infinity {a : Float32} {s : Sign} (ha : a.isFinite = true) (hx : unpacked x = .infinity s) :
    unpacked (a - x) = .infinity (-s) := by
  obtain ⟨t, hu⟩ | ⟨t, m, e, hm, hu⟩ := (regular_unpacked ha).cases
  · rw [unpacked_sub, hx, hu]
    exact written_infinity (-s)
  · rw [unpacked_sub, hx, hu]
    exact written_infinity (-s)

lemma place_sub {a : Float32} (ha : a.isFinite = true) (hx : x.isNaN = false) :
    (a - x).isNaN = false ∧ (place (unpacked x) = ⊤ → place (unpacked (a - x)) = ⊥) ∧
      (place (unpacked x) = ⊥ → place (unpacked (a - x)) = ⊤) := by
  rcases (proper_unpacked hx).cases with ⟨s, hs⟩ | hr
  · have hsub := unpacked_sub_infinity ha hs
    refine ⟨isNaN_of_proper (by rw [hsub]; trivial), ?_⟩
    rw [hsub, hs]
    cases s
    · exact ⟨fun h => absurd h bot_ne_top, fun _ => rfl⟩
    · exact ⟨fun _ => rfl, fun h => absurd h top_ne_bot⟩
  · rw [hr.place_eq]
    exact ⟨((roundsTo_sub (regular_unpacked ha) hr).written (unpacked_sub a x)).1,
      fun h => absurd h (EReal.coe_ne_top _), fun h => absurd h (EReal.coe_ne_bot _)⟩

lemma le_of_not_lt (hx : x.isNaN = false) (hy : y.isNaN = false) (h : ¬x < y) : y ≤ x := by
  rw [lt_iff_of_numbers hx hy, not_lt] at h
  exact (le_iff_of_numbers hy hx).mpr h

/-- A product is a number unless zero meets an infinity, which a factor that is finite and not zero rules out. -/
lemma isNaN_mul {c : Float32} (hx : x.isNaN = false) (hc : c.isFinite = true) (h₀ : 0 < c) : (x * c).isNaN = false := by
  rcases (proper_unpacked hx).cases with ⟨s, hs⟩ | hr
  · obtain ⟨hnz, hnc⟩ := numbers_of_lt h₀
    rw [lt_iff_of_numbers hnz hnc, unpacked_zero] at h₀
    obtain ⟨t, hu⟩ | ⟨t, m, e, hm, hu⟩ := (regular_unpacked hc).cases
    · rw [hu] at h₀
      exact absurd h₀ (lt_irrefl _)
    · have hmul := unpacked_mul x c
      rw [hs, hu] at hmul
      refine isNaN_of_proper ?_
      rw [hmul.trans (written_infinity (s * t))]
      trivial
  · exact ((roundsTo_mul hr (regular_unpacked hc)).written (unpacked_mul x c)).1

lemma isNaN_add {a : Float32} (ha : a.isFinite = true) (hx : x.isNaN = false) : (a + x).isNaN = false := by
  rcases (proper_unpacked hx).cases with ⟨s, hs⟩ | hr
  · have hadd : unpacked (a + x) = .infinity s := by
      obtain ⟨t, hu⟩ | ⟨t, m, e, hm, hu⟩ := (regular_unpacked ha).cases
      · rw [unpacked_add, hs, hu]
        exact written_infinity s
      · rw [unpacked_add, hs, hu]
        exact written_infinity s
    exact isNaN_of_proper (by rw [hadd]; trivial)
  · exact ((roundsTo_add (regular_unpacked ha) hr).written (unpacked_add a x)).1

lemma sub_le_sub_left {a : Float32} (ha : a.isFinite = true) (h : x ≤ y) : a - y ≤ a - x := by
  obtain ⟨hx, hy⟩ := numbers_of_le h
  obtain ⟨hnx, -, hbx⟩ := place_sub ha hx
  obtain ⟨hny, hty, -⟩ := place_sub ha hy
  rw [le_iff_of_numbers hx hy] at h
  by_cases ht : place (unpacked y) = ⊤
  · rw [le_iff_of_numbers hny hnx, hty ht]
    exact bot_le
  · by_cases hb : place (unpacked x) = ⊥
    · rw [le_iff_of_numbers hny hnx, hbx hb]
      exact le_top
    · have hfx := isFinite_of_place hx hb (ne_top_of_le_ne_top ht h)
      have hfy := isFinite_of_place hy (ne_bot_of_le_ne_bot hb h) ht
      have hle := (le_iff_exact hfx hfy).mp ((le_iff_of_numbers hx hy).mpr h)
      have hl := roundsTo_sub (regular_unpacked ha) (regular_unpacked hfy)
      have hr := roundsTo_sub (regular_unpacked ha) (regular_unpacked hfx)
      exact hl.le hr (sub_le_sub le_rfl hle) (unpacked_sub a y) (unpacked_sub a x)

lemma sub_le_sub_right {a : Float32} (ha : a.isFinite = true) (hx : x.isFinite = true) (hy : y.isFinite = true)
    (h : x ≤ y) : x - a ≤ y - a := by
  rw [le_iff_exact hx hy] at h
  have hl := roundsTo_sub (regular_unpacked hx) (regular_unpacked ha)
  have hr := roundsTo_sub (regular_unpacked hy) (regular_unpacked ha)
  exact hl.le hr (sub_le_sub h le_rfl) (unpacked_sub x a) (unpacked_sub y a)

lemma add_le_add_right {a : Float32} (ha : a.isFinite = true) (hx : x.isFinite = true) (hy : y.isFinite = true)
    (h : x ≤ y) : x + a ≤ y + a := by
  rw [le_iff_exact hx hy] at h
  have hl := roundsTo_add (regular_unpacked hx) (regular_unpacked ha)
  have hr := roundsTo_add (regular_unpacked hy) (regular_unpacked ha)
  exact hl.le hr (add_le_add h le_rfl) (unpacked_add x a) (unpacked_add y a)

lemma unpacked_ofNat_zero : unpacked (Float32.ofNat 0) = .zero .positive := by rfl

lemma written_unpacked (x : Float32) : written (unpacked x) = unpacked x := by
  rw [written, unpacked]
  exact congrArg (UnpackedFloat.unpack binary32) (Binary.pack_unpack (by decide) x.toModel.valid)

lemma unpacked_one : unpacked 1 = .finite .positive (2 ^ 23) (-23) (by decide) := by rfl

lemma exact_unpacked_one : exact (unpacked 1) = 1 := by
  rw [unpacked_one, exact_finite]
  norm_num [Sign.apply]

lemma unpacked_zero_written : unpacked 0 = written (.zero .positive) := unpacked_zero.trans (written_zero _).symm

section Signs

variable {a : Float32} (hx : x.isFinite = true) (ha : a.isFinite = true)

include hx ha

lemma le_add_of_nonneg (h : 0 ≤ x) : a ≤ x + a := by
  rw [zero_le_iff_exact hx] at h
  have hr := roundsTo_add (regular_unpacked hx) (regular_unpacked ha)
  exact (roundsTo_self (regular_unpacked ha)).le hr (by linarith) (written_unpacked a).symm (unpacked_add x a)

lemma add_le_of_nonpos (h : x ≤ 0) : x + a ≤ a := by
  rw [le_zero_iff_exact hx] at h
  have hr := roundsTo_add (regular_unpacked hx) (regular_unpacked ha)
  exact hr.le (roundsTo_self (regular_unpacked ha)) (by linarith) (unpacked_add x a) (written_unpacked a).symm

protected lemma mul_nonneg (h : 0 ≤ x) (h' : 0 ≤ a) : 0 ≤ x * a := by
  rw [zero_le_iff_exact hx] at h
  rw [zero_le_iff_exact ha] at h'
  have hr := roundsTo_mul (regular_unpacked hx) (regular_unpacked ha)
  exact (roundsTo_zero .positive).le hr (mul_nonneg h h') unpacked_zero_written (unpacked_mul x a)

lemma mul_nonpos (h : x ≤ 0) (h' : 0 ≤ a) : x * a ≤ 0 := by
  rw [le_zero_iff_exact hx] at h
  rw [zero_le_iff_exact ha] at h'
  have hr := roundsTo_mul (regular_unpacked hx) (regular_unpacked ha)
  exact hr.le (roundsTo_zero .positive) (mul_nonpos_of_nonpos_of_nonneg h h') (unpacked_mul x a) unpacked_zero_written

lemma mul_le_of_le_one (h : 0 ≤ x) (h' : a ≤ 1) : x * a ≤ x := by
  rw [zero_le_iff_exact hx] at h
  rw [le_iff_exact ha rfl, exact_unpacked_one] at h'
  have hr := roundsTo_mul (regular_unpacked hx) (regular_unpacked ha)
  exact hr.le (roundsTo_self (regular_unpacked hx)) (mul_le_of_le_one_right h h') (unpacked_mul x a)
    (written_unpacked x).symm

lemma sub_nonneg (h : a ≤ x) : 0 ≤ x - a := by
  rw [le_iff_exact ha hx] at h
  have hr := roundsTo_sub (regular_unpacked hx) (regular_unpacked ha)
  exact (roundsTo_zero .positive).le hr (by linarith) unpacked_zero_written (unpacked_sub x a)

end Signs

lemma one_sub_zero_mul (hx : x.isFinite = true) : 1 - Float32.ofNat 0 * x = 1 := by
  have hz : ∃ s, unpacked (Float32.ofNat 0 * x) = .zero s := by
    obtain ⟨t, hu⟩ | ⟨t, m, e, hm, hu⟩ := (regular_unpacked hx).cases
    · rw [unpacked_mul, unpacked_ofNat_zero, hu]
      exact ⟨_, written_zero _⟩
    · rw [unpacked_mul, unpacked_ofNat_zero, hu]
      exact ⟨_, written_zero _⟩
  obtain ⟨s, hs⟩ := hz
  apply eq_of_unpacked
  rw [unpacked_sub, hs]
  exact written_unpacked 1

lemma mul_one_of_finite (hx : x.isFinite = true) : x * 1 = x := by
  apply eq_of_unpacked
  have hr := regular_unpacked hx
  have hmul := roundsTo_mul hr (regular_unpacked (by rfl : (1 : Float32).isFinite = true))
  rw [exact_unpacked_one, mul_one] at hmul
  have hu : UnpackedFloat.mul binary32 (unpacked x) (unpacked 1) = unpacked x := by
    obtain ⟨s, hx⟩ | ⟨s, m, e, hm, hx⟩ := hr.cases
    · rw [hx]
      cases s <;> rfl
    · rw [hx] at hr hmul ⊢
      have heq := hmul.rounds.unique (roundsTo_self hr).rounds
      exact eq_of_exact hmul.regular hr heq (heq ▸ exact_ne_zero s hm)
  rw [unpacked_mul, hu, written_unpacked]

lemma isFinite_of_roundsTo {u : UnpackedFloat} {q : ℚ} (h : RoundsTo q u) (hl : 0 ≤ q) (hh : q ≤ 2 ^ 32)
    (hx : unpacked x = written u) : x.isFinite = true := by
  obtain ⟨hn, hp⟩ := h.written hx
  have hpow : Canonical (2 ^ 23) 9 := ⟨by decide, by decide, .inl le_rfl⟩
  have hlow := (Binary.Format.Rounds.zero _).le h.rounds hl
  have hhigh := h.rounds.le hpow.format.rounds (hh.trans (by norm_num))
  rw [held_of_between (by linarith) (hhigh.trans_lt (by norm_num))] at hp
  exact isFinite_of_place hn (hp ▸ EReal.coe_ne_bot _) (hp ▸ EReal.coe_ne_top _)

lemma roundsTo_ofScientific {n : ℕ} (hn : 0 < n) : RoundsTo n (UnpackedFloat.ofScientific binary32 n 0) := by
  obtain ⟨m, hm⟩ : ∃ m, m = n <<< 24 * 1 := ⟨_, rfl⟩
  have hmul : m = n * 2 ^ 24 := by rw [hm, Nat.shiftLeft_eq, mul_one]
  have hpos : 0 < m := by omega
  have hs : UnpackedFloat.ofScientific binary32 n 0 = roundWithAccuracy binary32 .positive m (-24) .exact := by
    have hhigh : (0 : ℤ) ≤ 2 ^ binary32.exponentBits := by positivity
    have hlow : -(2 ^ binary32.exponentBits + n.log2 : ℤ) ≤ 0 := by linarith
    rw [UnpackedFloat.ofScientific, dif_neg hn.ne', if_neg hhigh.not_gt, if_neg hlow.not_gt, if_pos le_rfl, hm]
    rfl
  have hlog : 24 ≤ m.log2 := (Nat.le_log2 hpos.ne').mpr (by omega)
  have hr := roundsTo_roundWithAccuracy .positive (e := -24) hpos (by rw [targetExponent_eq]; omega)
  have hx : (Sign.positive.apply m * 2 ^ (-24 : ℤ) : ℚ) = n := by
    rw [hmul]
    simp only [Sign.apply]
    push_cast
    rw [mul_assoc]
    norm_num
  rwa [hx, ← hs] at hr

/-- Whole numbers are rounded once, though the small ones are multiplied by one after it. -/
lemma exists_roundsTo_ofNat (n : ℕ) : ∃ u, RoundsTo n u ∧ unpacked (Float32.ofNat n) = written u := by
  by_cases hn : n < 2 ^ 23
  · have hi := roundsTo_normalize n 0 .positive
    rw [zpow_zero, mul_one, Int.cast_natCast] at hi
    have hc : unpacked n.toUInt64.toFloat32 = written (UnpackedFloat.normalize binary32 n 0 .positive) := by
      have hu : n.toUInt64.toNat = n := Nat.mod_eq_of_lt (by omega)
      change written (UnpackedFloat.normalize binary32 n.toUInt64.toNat 0 .positive) = _
      rw [hu]
    have hfin := isFinite_of_roundsTo hi (by positivity) (by exact_mod_cast (show n ≤ 2 ^ 32 by omega)) hc
    have hof : Float32.ofNat n = n.toUInt64.toFloat32 * 1 := dif_pos ⟨hn, by decide⟩
    exact ⟨_, hi, by rw [hof, mul_one_of_finite hfin, hc]⟩
  · have hof : Float32.ofNat n = ⟨Float32.Model.ofScientific n 0⟩ := dif_neg fun h => hn h.1
    have hs := roundsTo_ofScientific (n := n) (by omega)
    exact ⟨_, hs, by rw [hof]; rfl⟩

end Single

end Woodland
