import Mathlib.Tactic
import Woodland.Proofs.Documents.Lexemes

/-!
How numbers are written between the options of a command line, as grammars: whole numbers, and numbers with a point,
an exponent or a name. A text is read as a number exactly where the grammar has it.
-/

namespace Woodland.Decimal

variable {text rest : List Char} {ds : List Digit}

lemma char_of_ofChar? {c : Char} {d : Digit} (h : Digit.ofChar? c = some d) : d.char = c := by
  rw [Digit.ofChar?] at h
  split at h
  · next hc =>
    obtain rfl := Option.some.inj h
    change Char.ofNat (48 + (c.toNat - 48)) = c
    rw [Nat.add_sub_cancel' hc.1, Char.ofNat_toNat]
  · cases h

lemma spanDigits_eq_iff : spanDigits text = (ds, rest) ↔
    text = digitText ds ++ rest ∧ ∀ c ∈ rest.head?, Digit.ofChar? c = none := by
  refine ⟨fun h => ?_, fun ⟨ht, hr⟩ => ht ▸ spanDigits_digitText ds hr⟩
  induction text generalizing ds with
  | nil =>
    obtain ⟨rfl, rfl⟩ := Prod.mk.inj h
    exact ⟨rfl, by simp⟩
  | cons c text ih =>
    rw [spanDigits] at h
    cases hc : Digit.ofChar? c with
    | none =>
      rw [hc] at h
      obtain ⟨rfl, rfl⟩ := Prod.mk.inj h
      refine ⟨rfl, fun c' hc' => ?_⟩
      obtain rfl : c = c' := Option.some.inj hc'
      exact hc
    | some d =>
      rw [hc] at h
      obtain ⟨rfl, hr⟩ := Prod.mk.inj h
      obtain ⟨ht, hrest⟩ := ih (Prod.ext rfl hr)
      refine ⟨?_, hrest⟩
      rw [digitText, List.map_cons, char_of_ofChar? hc, List.cons_append]
      exact congrArg (c :: ·) ht

lemma spanDigits_eq_nil_iff : spanDigits text = (ds, []) ↔ text = digitText ds := by
  rw [spanDigits_eq_iff, List.append_nil]
  exact and_iff_left (by simp)

inductive NaturalText : ℕ → List Char → Prop where
  | plain {ds : List Digit} (h : ds ≠ []) : NaturalText (ofDigits ds) (digitText ds)
  | plus {ds : List Digit} (h : ds ≠ []) : NaturalText (ofDigits ds) ('+' :: digitText ds)

def afterPlus (text : List Char) : List Char :=
  match text with
  | '+' :: rest => rest
  | _ => text

lemma char_ne_sign (d : Digit) : d.char ≠ '+' ∧ d.char ≠ '-' := by
  revert d
  decide

lemma afterPlus_digitText (ds : List Digit) : afterPlus (digitText ds) = digitText ds := by
  cases ds with
  | nil => rfl
  | cons d ds =>
    rw [afterPlus.eq_def]
    split
    · next h => exact absurd (List.cons.inj h).1 (char_ne_sign d).1
    · rfl

lemma naturalText_iff {n : ℕ} :
    NaturalText n text ↔ ∃ ds, ds ≠ [] ∧ afterPlus text = digitText ds ∧ ofDigits ds = n := by
  constructor
  · rintro (⟨h⟩ | ⟨h⟩)
    · exact ⟨_, h, afterPlus_digitText _, rfl⟩
    · exact ⟨_, h, rfl, rfl⟩
  · rintro ⟨ds, h, ht, rfl⟩
    rw [afterPlus.eq_def] at ht
    split at ht
    · exact ht ▸ .plus h
    · exact ht ▸ .plain h

lemma natural?_eq_some_iff {bound n : ℕ} : natural? bound text = some n ↔ NaturalText n text ∧ n < bound := by
  rw [natural?.eq_def, naturalText_iff]
  dsimp only
  generalize hp : spanDigits _ = p
  obtain ⟨ds, rest⟩ := p
  have hs : spanDigits (afterPlus text) = (ds, rest) := hp
  constructor
  · intro h
    split at h
    · cases h
    · next hne heq =>
      obtain ⟨rfl, rfl⟩ := Prod.mk.inj heq
      obtain ⟨hlt, hn⟩ := Option.ite_none_right_eq_some.mp h
      obtain rfl := Option.some.inj hn
      exact ⟨⟨ds, hne, spanDigits_eq_nil_iff.mp hs, rfl⟩, hlt⟩
    · cases h
  · rintro ⟨⟨ds', hne, ht, rfl⟩, hlt⟩
    obtain ⟨rfl, rfl⟩ := Prod.mk.inj (hs.symm.trans (spanDigits_eq_nil_iff.mpr ht))
    obtain ⟨d, ds, rfl⟩ := List.exists_cons_of_ne_nil hne
    exact if_pos hlt

inductive SignText : Bool → List Char → Prop where
  | none : SignText false []
  | plus : SignText false ['+']
  | minus : SignText true ['-']

def Unsigned (body : List Char) : Prop := ∀ c ∈ body.head?, c ≠ '+' ∧ c ≠ '-'

variable {negative : Bool} {sign body : List Char}

lemma spanSign_append (hs : SignText negative sign) (hb : Unsigned body) :
    spanSign (sign ++ body) = (negative, body) := by
  cases hs with
  | plus | minus => rfl
  | none =>
    rw [List.nil_append, spanSign.eq_def]
    split
    · exact absurd rfl (hb _ rfl).2
    · exact absurd rfl (hb _ rfl).1
    · rfl

lemma exists_signText (h : spanSign text = (negative, body)) :
    ∃ sign, SignText negative sign ∧ text = sign ++ body := by
  rw [spanSign.eq_def] at h
  split at h
  all_goals obtain ⟨rfl, rfl⟩ := Prod.mk.inj h
  · exact ⟨_, .minus, rfl⟩
  · exact ⟨_, .plus, rfl⟩
  · exact ⟨_, .none, rfl⟩

inductive ExponentText : Option (Bool × List Digit) → List Char → Prop where
  | none : ExponentText none []
  | marked {mark : Char} {negative : Bool} {sign : List Char} {ds : List Digit} (hm : mark = 'e' ∨ mark = 'E')
      (hs : SignText negative sign) (hd : ds ≠ []) :
      ExponentText (some (negative, ds)) (mark :: (sign ++ digitText ds))

inductive FractionText : List Digit → List Char → Prop where
  | none : FractionText [] []
  | point (ds : List Digit) : FractionText ds ('.' :: digitText ds)

inductive BodyText : Numeral → List Char → Prop where
  | digits (negative : Bool) {ds es : List Digit} {e : Option (Bool × List Digit)} {fraction exponent : List Char}
      (hd : ds ≠ [] ∨ es ≠ []) (hf : FractionText es fraction) (he : ExponentText e exponent) :
      BodyText ⟨negative, ds, es, e⟩ (digitText ds ++ (fraction ++ exponent))

inductive DoubleText : Float → List Char → Prop where
  | numeral {n : Numeral} {sign body : List Char} (hs : SignText n.negative sign) (hb : BodyText n body) :
      DoubleText n.nearestDouble (sign ++ body)
  | infinite {negative : Bool} {sign name : List Char} (hs : SignText negative sign)
      (hn : lowercase name = "inf".toList ∨ lowercase name = "infinity".toList) :
      DoubleText (Binary.toDouble (.infinite negative)) (sign ++ name)
  | nan {negative : Bool} {sign name : List Char} (hs : SignText negative sign) (hn : lowercase name = "nan".toList) :
      DoubleText (Binary.toDouble .nan) (sign ++ name)

lemma unsigned_digitText (ds : List Digit) : Unsigned (digitText ds) := by
  cases ds with
  | nil => simp [Unsigned, digitText]
  | cons d ds =>
    rintro c hc
    obtain rfl := Option.some.inj hc
    exact char_ne_sign d

variable {e : Option (Bool × List Digit)} {fraction exponent : List Char}

lemma exponent?_eq_some_iff : exponent? text = some e ↔ ExponentText e text := by
  constructor
  · intro h
    rw [exponent?.eq_def] at h
    split at h
    · obtain rfl := Option.some.inj h
      exact .none
    · next c rest =>
      split at h
      · next hc =>
        obtain ⟨negative, body, hs⟩ : ∃ negative body, spanSign rest = (negative, body) := ⟨_, _, rfl⟩
        simp only [hs] at h
        split at h
        · next d ds hd =>
          obtain rfl := Option.some.inj h
          obtain ⟨sign, hsign, rfl⟩ := exists_signText hs
          obtain rfl := spanDigits_eq_nil_iff.mp hd
          exact .marked hc hsign (List.cons_ne_nil d ds)
        · cases h
      · cases h
  · rintro (_ | @⟨mark, negative, sign, ds, hm, hs, hd⟩)
    · rfl
    · obtain ⟨d, ds, rfl⟩ := List.exists_cons_of_ne_nil hd
      have hspan := spanDigits_eq_nil_iff.mpr (rfl : digitText (d :: ds) = _)
      simp only [exponent?, if_pos hm, spanSign_append hs (unsigned_digitText _), hspan]

lemma head_exponentText (h : ExponentText e text) :
    ∀ c ∈ text.head?, Digit.ofChar? c = none ∧ c ≠ '.' := by
  cases h with
  | none => simp
  | marked hm hs hd =>
    rintro c hc
    obtain rfl := Option.some.inj hc
    rcases hm with rfl | rfl <;> decide

lemma head_fractionText (hf : FractionText ds fraction) (he : ExponentText e exponent) :
    ∀ c ∈ (fraction ++ exponent).head?, Digit.ofChar? c = none := by
  cases hf with
  | none => exact fun c hc => (head_exponentText he c hc).1
  | point ds =>
    rintro c hc
    obtain rfl := Option.some.inj hc
    decide

def spanFraction (text : List Char) : List Digit × List Char :=
  match text with
  | '.' :: rest => spanDigits rest
  | _ => ([], text)

lemma spanFraction_append (hf : FractionText ds fraction) (he : ExponentText e exponent) :
    spanFraction (fraction ++ exponent) = (ds, exponent) := by
  cases hf with
  | none =>
    rw [List.nil_append, spanFraction.eq_def]
    split
    · exact absurd rfl (head_exponentText he _ rfl).2
    · rfl
  | point ds => exact spanDigits_digitText ds fun c hc => (head_exponentText he c hc).1

lemma exists_fractionText (h : spanFraction text = (ds, rest)) :
    ∃ fraction, FractionText ds fraction ∧ text = fraction ++ rest := by
  rw [spanFraction.eq_def] at h
  split at h
  · obtain ⟨rfl, -⟩ := spanDigits_eq_iff.mp h
    exact ⟨_, .point ds, rfl⟩
  · obtain ⟨rfl, rfl⟩ := Prod.mk.inj h
    exact ⟨[], .none, rfl⟩

lemma numeral?_eq {es : List Digit} {rest' : List Char} (hd : spanDigits text = (ds, rest))
    (hf : spanFraction rest = (es, rest')) : numeral? negative text =
      if ds.isEmpty && es.isEmpty then none else (exponent? rest').map fun e => ⟨negative, ds, es, e⟩ := by
  have hread : numeral? negative text =
      let p := spanFraction (spanDigits text).2
      if (spanDigits text).1.isEmpty && p.1.isEmpty then none
      else (exponent? p.2).bind fun e => some ⟨negative, (spanDigits text).1, p.1, e⟩ := rfl
  rw [hread, hd]
  simp only [hf, Option.map_eq_bind]
  rfl

lemma numeral?_eq_some_iff {n : Numeral} :
    numeral? negative text = some n ↔ n.negative = negative ∧ BodyText n text := by
  obtain ⟨ds, rest, hd⟩ : ∃ ds rest, spanDigits text = (ds, rest) := ⟨_, _, rfl⟩
  obtain ⟨es, rest', hf⟩ : ∃ es rest', spanFraction rest = (es, rest') := ⟨_, _, rfl⟩
  rw [numeral?_eq hd hf]
  constructor
  · intro h
    split at h
    · cases h
    · next hne =>
      obtain ⟨e, he, rfl⟩ := Option.map_eq_some_iff.mp h
      obtain ⟨rfl, -⟩ := spanDigits_eq_iff.mp hd
      obtain ⟨fraction, hf', rfl⟩ := exists_fractionText hf
      refine ⟨rfl, .digits negative ?_ hf' (exponent?_eq_some_iff.mp he)⟩
      rw [Bool.and_eq_true, List.isEmpty_iff, List.isEmpty_iff] at hne
      exact not_and_or.mp hne
  · rintro ⟨rfl, @⟨negative, ds', es', e, fraction, exponent, hne, hf', he⟩⟩
    obtain ⟨rfl, rfl⟩ := Prod.mk.inj (hd.symm.trans (spanDigits_digitText ds' (head_fractionText hf' he)))
    obtain ⟨rfl, rfl⟩ := Prod.mk.inj (hf.symm.trans (spanFraction_append hf' he))
    rw [if_neg (by simpa [← not_and_or] using hne), exponent?_eq_some_iff.mpr he]
    rfl

lemma head_bodyText {n : Numeral} (h : BodyText n text) : ∀ c ∈ text.head?, c = '.' ∨ ∃ d : Digit, c = d.char := by
  obtain @⟨negative, ds, es, e, fraction, exponent, hne, hf, he⟩ := h
  cases ds with
  | cons d ds =>
    rintro c hc
    exact .inr ⟨d, (Option.some.inj hc).symm⟩
  | nil =>
    cases hf with
    | none => exact absurd rfl (hne.resolve_left fun h => h rfl)
    | point ds =>
      rintro c hc
      exact .inl (Option.some.inj hc).symm

lemma toLower_char (d : Digit) : d.char.toLower ≠ 'i' ∧ d.char.toLower ≠ 'n' := by
  revert d
  decide

lemma lowercase_bodyText {n : Numeral} (h : BodyText n text) :
    ¬(lowercase text = "inf".toList ∨ lowercase text = "infinity".toList) ∧ lowercase text ≠ "nan".toList := by
  have hc (c : Char) (hc : c ∈ (lowercase text).head?) : c ≠ 'i' ∧ c ≠ 'n' := by
    rw [lowercase, List.head?_map] at hc
    obtain ⟨c', hc', rfl⟩ := Option.map_eq_some_iff.mp hc
    rcases head_bodyText h c' hc' with rfl | ⟨d, rfl⟩
    · decide
    · exact toLower_char d
  refine ⟨not_or.mpr ⟨?_, ?_⟩, ?_⟩
  all_goals
    intro hn
    rw [hn] at hc
  · exact (hc 'i' rfl).1 rfl
  · exact (hc 'i' rfl).1 rfl
  · exact (hc 'n' rfl).2 rfl

lemma unsigned_name {name rest : List Char} {c : Char} (hc : c = 'i' ∨ c = 'n') (h : lowercase name = c :: rest) :
    Unsigned name := by
  obtain ⟨c', rest, rfl, rfl, -⟩ := List.map_eq_cons_iff.mp h
  rintro c hc'
  obtain rfl := Option.some.inj hc'
  constructor
  all_goals
    rintro rfl
    exact absurd hc (by decide)

lemma unsigned_bodyText {n : Numeral} (h : BodyText n text) : Unsigned text := by
  rintro c hc
  rcases head_bodyText h c hc with rfl | ⟨d, rfl⟩
  · decide
  · exact char_ne_sign d

lemma double?_append (hs : SignText negative sign) (hb : Unsigned body) : double? (sign ++ body) =
    if lowercase body = "inf".toList ∨ lowercase body = "infinity".toList then
      some (Binary.toDouble (.infinite negative))
    else if lowercase body = "nan".toList then some (Binary.toDouble .nan)
    else (numeral? negative body).map Numeral.nearestDouble := by
  simp only [double?, spanSign_append hs hb]

lemma double?_eq_some_iff {x : Float} : double? text = some x ↔ DoubleText x text := by
  constructor
  · intro h
    obtain ⟨negative, body, hs⟩ : ∃ negative body, spanSign text = (negative, body) := ⟨_, _, rfl⟩
    obtain ⟨sign, hsign, rfl⟩ := exists_signText hs
    simp only [double?, hs] at h
    split_ifs at h with hinf hnan
    · obtain rfl := Option.some.inj h
      exact .infinite hsign hinf
    · obtain rfl := Option.some.inj h
      exact .nan hsign hnan
    · obtain ⟨n, hn, rfl⟩ := Option.map_eq_some_iff.mp h
      obtain ⟨rfl, hb⟩ := numeral?_eq_some_iff.mp hn
      exact .numeral hsign hb
  · rintro (⟨hs, hb⟩ | ⟨hs, hn⟩ | ⟨hs, hn⟩)
    · obtain ⟨hinf, hnan⟩ := lowercase_bodyText hb
      rw [double?_append hs (unsigned_bodyText hb), if_neg hinf, if_neg hnan, numeral?_eq_some_iff.mpr ⟨rfl, hb⟩]
      rfl
    · have hu : Unsigned _ := hn.elim (unsigned_name (.inl rfl)) (unsigned_name (.inl rfl))
      rw [double?_append hs hu, if_pos hn]
    · rw [double?_append hs (unsigned_name (.inr rfl) hn), if_neg, if_pos hn]
      rw [hn]
      decide

end Woodland.Decimal
