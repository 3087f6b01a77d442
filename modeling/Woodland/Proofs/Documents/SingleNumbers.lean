import Mathlib.Tactic
import Woodland.Proofs.Documents.Numerals
import Woodland.Proofs.Numbers.FloatBits
import Woodland.Proofs.Numbers.ShortestDecimals

/-! Every finite single-precision number is read back from the number that is written for it. -/

namespace Woodland

open Binary (Format single double toRat Rounded)

namespace Decimal

variable {x : Scaled} {n : Numeral} {ds : List Digit}

/-- `n` is a form of `x`: with the same digits, or with zeros up to one place after the point. -/
def Numeral.IsForm (n : Numeral) (x : Scaled) : Prop :=
  n.significand = x.digits ∧ n.scale = x.exponent ∨
    ∃ i : ℕ, x.exponent = i ∧ n.significand = x.digits * 10 ^ (i + 1) ∧ n.scale = -1 ∧ x.digits * 10 ^ i < 10 ^ 13

lemma scale_of_plain (negative : Bool) (whole fraction : List Digit) :
    Numeral.scale ⟨negative, whole, fraction, none⟩ = -fraction.length := zero_sub _

lemma isForm_placePoint (negative : Bool) (hx : 0 < x.digits) (hp : (digits x.digits).length + x.exponent ≤ 13) :
    let p := placePoint (digits x.digits) ((digits x.digits).length + x.exponent)
    let n : Numeral := ⟨negative, p.1, if p.2.isEmpty then [.zero] else p.2, none⟩
    n.WellFormed ∧ n.Broken ∧ n.IsForm x := by
  obtain ⟨d, es, hds, hd⟩ := digits_of_pos hx
  have hval := ofDigits_digits x.digits
  set ds := digits x.digits
  have hzero : Leading [.zero] := ⟨.zero, [], rfl, fun _ => rfl⟩
  have hplain {whole fraction : List Digit} (h : Leading whole) (hf : fraction ≠ []) :
      Numeral.WellFormed ⟨negative, whole, fraction, none⟩ ∧ Numeral.Broken ⟨negative, whole, fraction, none⟩ :=
    ⟨⟨h, fun _ _ h => by cases h⟩, .inl hf⟩
  have hne : ds ≠ [] := by simp [hds]
  have hlen : 0 < ds.length := List.length_pos_iff.mpr hne
  rcases hq : (ds.length : ℤ) + x.exponent with p | p
  · rcases Nat.eq_zero_or_pos p with rfl | hp₀
    · -- all digits stand after the point
      have hpl : placePoint ds (Int.ofNat 0) = ([.zero], ds) := rfl
      simp only [hpl, List.isEmpty_iff, hne, if_false]
      refine ⟨(hplain hzero hne).1, (hplain hzero hne).2, .inl ⟨?_, ?_⟩⟩
      · rw [Numeral.significand, ofDigits_append, hval]
        simp
      · rw [scale_of_plain]
        have hp' : (ds.length : ℤ) + x.exponent = 0 := hq
        omega
    · obtain ⟨p, rfl⟩ := Nat.exists_eq_succ_of_ne_zero hp₀.ne'
      have hpl : placePoint ds (Int.ofNat (p + 1)) =
        (ds.take (p + 1) ++ List.replicate (p + 1 - ds.length) .zero, ds.drop (p + 1)) := rfl
      have hp' : (ds.length : ℤ) + x.exponent = p + 1 := hq
      have hlead : Leading (ds.take (p + 1) ++ List.replicate (p + 1 - ds.length) .zero) := by
        rw [hds]
        exact ⟨d, _, rfl, fun hz => absurd hz hd⟩
      rcases Nat.lt_or_ge (p + 1) ds.length with hlt | hge
      · -- the point stands among the digits
        have hdrop : ds.drop (p + 1) ≠ [] := by simp [hlt]
        simp only [hpl, List.isEmpty_iff, hdrop, if_false]
        refine ⟨(hplain hlead hdrop).1, (hplain hlead hdrop).2, .inl ⟨?_, ?_⟩⟩
        · rw [Numeral.significand, Nat.sub_eq_zero_of_le hlt.le, List.replicate_zero, List.append_nil,
            List.take_append_drop, hval]
        · rw [scale_of_plain, List.length_drop]
          omega
      · -- zeros stand between the digits and the point
        have hdrop : ds.drop (p + 1) = [] := List.drop_eq_nil_of_le hge
        simp only [hpl, hdrop, List.isEmpty_nil, if_true]
        have hz : ([Digit.zero] : List Digit) ≠ [] := List.cons_ne_nil _ _
        obtain ⟨i, hi⟩ := Nat.exists_eq_add_of_le hge
        refine ⟨(hplain hlead hz).1, (hplain hlead hz).2, .inr ⟨i, by omega, ?_, ?_, ?_⟩⟩
        · rw [Numeral.significand, List.take_of_length_le hge, ofDigits_append, ofDigits_append, hval, hi]
          simp [pow_succ, Nat.mul_assoc]
        · rw [scale_of_plain]
          rfl
        · have hlt := ofDigits_lt ds
          rw [hval] at hlt
          calc x.digits * 10 ^ i < 10 ^ ds.length * 10 ^ i := Nat.mul_lt_mul_of_pos_right hlt (by positivity)
            _ = 10 ^ (ds.length + i) := (pow_add _ _ _).symm
            _ ≤ 10 ^ 13 := Nat.pow_le_pow_right (by decide) (by omega)
  · have hpl : placePoint ds (Int.negSucc p) = ([.zero], List.replicate (p + 1) .zero ++ ds) := rfl
    have hne' : List.replicate (p + 1) Digit.zero ++ ds ≠ [] := by simp [hne]
    simp only [hpl, List.isEmpty_iff, hne', if_false]
    refine ⟨(hplain hzero hne').1, (hplain hzero hne').2, .inl ⟨?_, ?_⟩⟩
    · rw [Numeral.significand, ofDigits_append, ofDigits_append, hval]
      simp
    · rw [scale_of_plain, List.length_append, List.length_replicate]
      omega

lemma isForm_scientific (negative : Bool) (hx : 0 < x.digits) :
    let point := (digits x.digits).length + x.exponent
    let n : Numeral := ⟨negative, (digits x.digits).take 1, (digits x.digits).drop 1,
      some (decide (point < 1), digits (point - 1).natAbs)⟩
    n.WellFormed ∧ n.Broken ∧ n.IsForm x := by
  obtain ⟨d, es, hds, hd⟩ := digits_of_pos hx
  have hval := ofDigits_digits x.digits
  intro point n
  have hexp : n.writtenExponent = point - 1 := by
    simp only [n, Numeral.writtenExponent, ofDigits_digits, decide_eq_true_eq]
    split_ifs <;> omega
  refine ⟨⟨⟨d, [], ?_, fun _ => rfl⟩, ?_⟩, .inr nofun, .inl ⟨?_, ?_⟩⟩
  · simp [n, hds]
  · rintro negative ds h
    obtain ⟨-, rfl⟩ := Prod.mk.inj (Option.some.inj h)
    obtain ⟨d, es, heq, -⟩ := leading_digits (point - 1).natAbs
    simp [heq]
  · rw [Numeral.significand, List.take_append_drop, hval]
  · have hlen : (digits x.digits).length = es.length + 1 := by rw [hds, List.length_cons]
    rw [Numeral.scale, hexp, List.length_drop, hlen]
    simp only [point, hlen]
    omega

lemma exists_numeral {f : Format} {m : ℕ} {e : ℤ} (negative : Bool) (hm : 0 < m)
    (hx : 0 < (shortest f .even m e).digits) : ∃ n, numeral f (.finite negative m e) = some n ∧ n.negative = negative ∧
      n.WellFormed ∧ n.Broken ∧ n.IsForm (shortest f .even m e) := by
  obtain ⟨m, rfl⟩ := Nat.exists_eq_succ_of_ne_zero hm.ne'
  set x := shortest f .even (m + 1) e
  have hnum : numeral f (.finite negative (m + 1) e) =
    if -6 < ((digits x.digits).length + x.exponent : ℤ) ∧ ((digits x.digits).length + x.exponent : ℤ) ≤ 13 then
      let p := placePoint (digits x.digits) ((digits x.digits).length + x.exponent)
      some ⟨negative, p.1, if p.2.isEmpty then [.zero] else p.2, none⟩
    else
      some ⟨negative, (digits x.digits).take 1, (digits x.digits).drop 1,
        some (decide (((digits x.digits).length + x.exponent : ℤ) < 1),
          digits ((digits x.digits).length + x.exponent - 1 : ℤ).natAbs)⟩ := rfl
  rw [hnum]
  split_ifs with h
  · exact ⟨_, rfl, rfl, isForm_placePoint negative hx h.2⟩
  · exact ⟨_, rfl, rfl, isForm_scientific negative hx⟩

end Decimal

namespace Json

open Decimal

variable {n : Numeral} {x : Float32} {m bits : ℕ} {e : ℤ}

lemma single?_of_scaled (hb : n.Broken) (hw : n.significand < wordBound)
    (hs : scaled? n.significand n.scale = some bits) :
    single? (.number n) = some (Binary.narrow (Float.ofBits (double.signOf n.negative + bits).toUInt64)) := by
  rw [single?, readInt?_of_broken hb, readDouble?, wordParts_eq hw]
  simp only [hs]
  rfl

lemma single?_of_near (hb : n.Broken) (hw : n.significand < wordBound) (hs : scaled? n.significand n.scale = some bits)
    (hbits : bits < double.infinity) (hm : 0 < m) (hc : single.Canonical m e)
    (hi : single.pattern m e < single.infinity) (hnear : single.Near m e (toRat bits)) :
    single? (.number n) = some (Float32.ofBits (single.signOf n.negative + single.pattern m e).toUInt32) := by
  obtain ⟨M, E, hv, ht⟩ := Binary.exists_value hbits
  have hratio : ((Binary.lower M 1 (-E)).1 : ℚ) / (Binary.lower M 1 (-E)).2 = toRat bits := by
    rw [Binary.ratio_lower, ht, zpow_neg, div_inv_eq_mul, Nat.cast_one, div_one]
  have hpos : 0 < (Binary.lower M 1 (-E)).1 := by
    have hu : (0 : ℚ) < 2 ^ e := by positivity
    have hm' : (1 : ℚ) ≤ m := by exact_mod_cast hm
    have hlow := hnear.bounds.1
    rcases Nat.eq_zero_or_pos (Binary.lower M 1 (-E)).1 with h₀ | h₀
    · rw [← hratio, h₀, Nat.cast_zero, zero_div] at hlow
      nlinarith
    · exact h₀
  rw [← hratio] at hnear
  rw [single?_of_scaled hb hw hs, Binary.narrow_ofBits hv hbits,
    Format.nearest_of_near (by decide) hpos (Binary.lower_pos one_pos _) hc hi hnear]

lemma exists_scaled_of_whole {d i : ℕ} (hd : 0 < d) (hlt : d * 10 ^ i < 10 ^ 13) :
    ∃ bits, scaled? (d * 10 ^ (i + 1)) (-1) = some bits ∧ bits < double.infinity ∧ toRat bits = d * 10 ^ (i : ℤ) := by
  have hpos : 0 < d * 10 ^ (i + 1) := Nat.mul_pos hd (by positivity)
  have hbound : d * 10 ^ (i + 1) < 2 ^ 53 := by
    rw [pow_succ, ← Nat.mul_assoc]
    omega
  obtain ⟨bits, hs, hbits, hr⟩ := rounded_scaled hpos hbound (k := -1) (by decide) (by decide)
  refine ⟨bits, hs, hbits, ?_⟩
  have hexact : ((d * 10 ^ (i + 1) : ℕ) : ℚ) * approximation (-1) = (d * 10 ^ i : ℕ) * 2 ^ (0 : ℤ) := by
    rw [approximation_of_exact (by decide) (by decide)]
    push_cast
    rw [pow_succ]
    field_simp
  rw [hr.eq_of_exact hexact (by omega), hexact, zpow_zero, mul_one, zpow_natCast]
  push_cast
  rfl

lemma exists_scaled_near {s : Scaled} (hform : n.IsForm s) (hf : Found m e s) (hm : 0 < m) (hc : single.Canonical m e)
    (he : e ≤ 104) : n.significand < wordBound ∧
      ∃ bits, scaled? n.significand n.scale = some bits ∧ bits < double.infinity ∧ single.Near m e (toRat bits) := by
  have hpos := hf.pos hm
  rcases hform with ⟨hsig, hscale⟩ | ⟨i, hi, hsig, hscale, hlt⟩ <;> rw [hsig, hscale]
  · obtain ⟨hk, hk'⟩ := hf.exponent_bounds hm hc he
    obtain ⟨bits, hs, hbits, hr⟩ := rounded_scaled hpos (hf.le.trans_lt (by decide)) (by omega) hk'
    exact ⟨hf.le.trans_lt (by decide), bits, hs, hbits, hf.near_of_rounded hm hc he hr⟩
  · obtain ⟨bits, hs, hbits, hr⟩ := exists_scaled_of_whole hpos hlt
    refine ⟨?_, bits, hs, hbits, ?_⟩
    · rw [pow_succ, ← Nat.mul_assoc]
      change _ < 2 ^ 64
      omega
    · rw [hr, ← hi]
      exact hf.near

lemma single?_ofSingle (hx : x.isFinite = true) :
    ∃ n, ofSingle x = .number n ∧ n.WellFormed ∧ single? (.number n) = some x := by
  obtain ⟨negative, m, e, hv⟩ := Binary.exists_ofSingle_eq hx
  obtain ⟨hc, hi, hbits⟩ := Binary.canonical_of_ofSingle hv
  rcases Nat.eq_zero_or_pos m with rfl | hm
  · let n : Numeral := ⟨negative, [.zero], [.zero], none⟩
    refine ⟨n, ?_, ⟨⟨.zero, [], rfl, fun _ => rfl⟩, nofun⟩, ?_⟩
    · rw [ofSingle, hv]
      rfl
    · have hz : double.value 0 = .finite false 0 (-1074) := rfl
      have hw : n.significand < wordBound := (by decide : 0 < wordBound)
      have hs : scaled? n.significand n.scale = some 0 := rfl
      have he : e = -149 := hc.full.resolve_left (by decide)
      rw [single?_of_scaled (.inl (List.cons_ne_nil _ _)) hw hs, Binary.narrow_ofBits hz (by decide), ← hbits, he]
      rfl
  · have he : e ≤ 104 := by
      have hlow : -149 ≤ e := hc.low
      have hlt : (e - -149).toNat * 2 ^ 23 + m < 255 * 2 ^ 23 := hi
      rcases hc.full with h | h
      · have : 2 ^ 23 ≤ m := h
        omega
      · have : e = -149 := h
        omega
    have hf : Found m e (shortest single .even m e) := found_shortest hm hc
    obtain ⟨n, hn, rfl, hwf, hb, hform⟩ := exists_numeral negative hm (hf.pos hm)
    obtain ⟨hw, bits, hs, hlt, hnear⟩ := exists_scaled_near hform hf hm hc he
    refine ⟨n, by rw [ofSingle, hv, hn], hwf, ?_⟩
    rw [single?_of_near hb hw hs hlt hm hc hi hnear, hbits]

end Json

end Woodland
