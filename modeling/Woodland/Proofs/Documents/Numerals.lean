import Mathlib.Tactic
import Woodland.Json.Number

/-! Written numbers as digits: which number they are, and how a single-precision number is written. -/

namespace Woodland.Decimal

variable {n : ℕ} {ds es : List Digit}

lemma ofDigits_append (ds es : List Digit) : ofDigits (ds ++ es) = ofDigits ds * 10 ^ es.length + ofDigits es := by
  have hfold (a : ℕ) (es : List Digit) :
      es.foldl (fun n (d : Digit) => n * 10 + d.val) a = a * 10 ^ es.length + ofDigits es := by
    induction es generalizing a with
    | nil => simp [ofDigits]
    | cons d es ih =>
      have h := ih d.val
      rw [ofDigits, List.foldl_cons, List.foldl_cons, ih, Nat.zero_mul, Nat.zero_add, h, List.length_cons, pow_succ]
      ring
  rw [ofDigits, List.foldl_append, hfold]
  rfl

@[simp] lemma ofDigits_nil : ofDigits [] = 0 := rfl

@[simp] lemma ofDigits_zero : ofDigits [.zero] = 0 := rfl

lemma ofDigits_singleton (d : Digit) : ofDigits [d] = d.val := Nat.zero_add _

lemma ofDigits_cons (d : Digit) (ds : List Digit) : ofDigits (d :: ds) = d.val * 10 ^ ds.length + ofDigits ds := by
  rw [← List.singleton_append, ofDigits_append, ofDigits_singleton]

@[simp] lemma ofDigits_replicate_zero (n : ℕ) : ofDigits (List.replicate n .zero) = 0 := by
  induction n with
  | zero => rfl
  | succ n ih =>
    rw [List.replicate_succ, ofDigits_cons, ih]
    exact Nat.zero_mul _

lemma ofDigits_lt (ds : List Digit) : ofDigits ds < 10 ^ ds.length := by
  induction ds with
  | nil => exact one_pos
  | cons d ds ih =>
    have hd := d.isLt
    rw [ofDigits_cons, List.length_cons, pow_succ]
    nlinarith

def Leading (ds : List Digit) : Prop := ∃ d es, ds = d :: es ∧ (d = .zero → es = [])

lemma digitsOnto_eq (n : ℕ) (rest : List Digit) : ∃ ds, digitsOnto n rest = ds ++ rest ∧ ofDigits ds = n ∧
    (0 < n → ∃ d es, ds = d :: es ∧ d ≠ .zero) := by
  induction n, rest using digitsOnto.induct with
  | case1 rest => exact ⟨[], by rw [digitsOnto, if_pos rfl]; rfl, rfl, fun h => absurd h (lt_irrefl 0)⟩
  | case2 n rest hn ih =>
    obtain ⟨ds, heq, hval, hlead⟩ := ih
    refine ⟨ds ++ [⟨n % 10, Nat.mod_lt n (by decide)⟩], ?_, ?_, fun _ => ?_⟩
    · rw [digitsOnto, if_neg hn, heq, List.append_assoc]
      rfl
    · rw [ofDigits_append, hval, ofDigits_singleton]
      change n / 10 * 10 ^ 1 + n % 10 = n
      omega
    · rcases Nat.eq_zero_or_pos (n / 10) with h₀ | h₀
      · rw [h₀, digitsOnto, if_pos rfl] at heq
        have hnil : ds = [] := by simpa using heq.symm
        refine ⟨_, [], by rw [hnil]; rfl, fun hz => ?_⟩
        have : n % 10 = 0 := congrArg Fin.val hz
        omega
      · obtain ⟨d, es, rfl, hd⟩ := hlead h₀
        exact ⟨d, _, rfl, hd⟩

@[simp] lemma ofDigits_digits (n : ℕ) : ofDigits (digits n) = n := by
  rw [digits]
  split_ifs with h
  · rw [h]
    rfl
  · obtain ⟨ds, heq, hval, -⟩ := digitsOnto_eq n []
    rw [heq, List.append_nil, hval]

lemma digits_of_pos (hn : 0 < n) : ∃ d es, digits n = d :: es ∧ d ≠ .zero := by
  obtain ⟨ds, heq, -, hlead⟩ := digitsOnto_eq n []
  rw [digits, if_neg hn.ne', heq, List.append_nil]
  exact hlead hn

lemma leading_digits (n : ℕ) : Leading (digits n) := by
  rcases Nat.eq_zero_or_pos n with rfl | hn
  · exact ⟨.zero, [], rfl, fun _ => rfl⟩
  · obtain ⟨d, es, heq, hd⟩ := digits_of_pos hn
    exact ⟨d, es, heq, fun hz => absurd hz hd⟩

structure Numeral.WellFormed (n : Numeral) : Prop where
  whole : Leading n.whole
  exponent : ∀ negative ds, n.exponent = some (negative, ds) → ds ≠ []

/-- A number with a point or an exponent is not read as a whole number. -/
def Numeral.Broken (n : Numeral) : Prop := n.fraction ≠ [] ∨ n.exponent ≠ none

end Woodland.Decimal

namespace Woodland.Json

open Decimal

lemma fill_eq {n : ℕ} {ds : List Digit} (h : n * 10 ^ ds.length + ofDigits ds < wordBound) :
    fill n ds = (n * 10 ^ ds.length + ofDigits ds, []) := by
  induction ds generalizing n with
  | nil => simp [fill]
  | cons d ds ih =>
    have hs : n * 10 ^ (d :: ds).length + ofDigits (d :: ds) = (n * 10 + d.val) * 10 ^ ds.length + ofDigits ds := by
      rw [ofDigits_cons, List.length_cons, pow_succ]
      ring
    rw [hs] at h ⊢
    have hone : 1 ≤ 10 ^ ds.length := Nat.one_le_pow _ _ (by decide)
    have hlt : n * 10 + d.val < wordBound := by nlinarith
    rw [fill, if_pos hlt, ih h]

lemma wordParts_eq {n : Numeral} (h : n.significand < wordBound) : wordParts n = (n.significand, n.scale) := by
  have hs : n.significand = ofDigits n.whole * 10 ^ n.fraction.length + ofDigits n.fraction := ofDigits_append _ _
  rw [hs] at h ⊢
  have hone : 1 ≤ 10 ^ n.fraction.length := Nat.one_le_pow _ _ (by decide)
  have hwhole : fill 0 n.whole = (ofDigits n.whole, []) := by
    rw [fill_eq (by nlinarith), Nat.zero_mul, Nat.zero_add]
  simp only [wordParts, hwhole, fill_eq h, List.length_nil, Numeral.scale]
  simp

lemma readInt?_of_broken {n : Numeral} (h : n.Broken) : readInt? n = none := by
  rw [readInt?, if_neg]
  rcases h with h | h <;> simp [h]

end Woodland.Json
