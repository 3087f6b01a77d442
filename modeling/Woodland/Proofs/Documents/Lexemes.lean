import Mathlib.Tactic
import Woodland.Json.Printer
import Woodland.Json.Reader
import Woodland.Proofs.Documents.Numerals

/-!
Numbers and quoted texts of documents, in every spelling that the notation allows. They are read whatever follows them,
and they are written in one of these spellings.
-/

namespace Woodland

open Decimal (Digit Numeral Leading spanDigits digitText)

namespace Decimal

lemma ofChar?_char (d : Digit) : Digit.ofChar? d.char = some d := by
  revert d
  decide

lemma spanDigits_digitText (ds : List Digit) {rest : List Char} (h : ∀ c ∈ rest.head?, Digit.ofChar? c = none) :
    spanDigits (digitText ds ++ rest) = (ds, rest) := by
  induction ds with
  | nil =>
    cases rest with
    | nil => rfl
    | cons c rest =>
      change spanDigits (c :: rest) = _
      rw [spanDigits, h c rfl]
  | cons d ds ih =>
    change spanDigits (d.char :: (digitText ds ++ rest)) = _
    rw [spanDigits, ofChar?_char, ih]

end Decimal

namespace Json

open Decimal

/-- No number goes on with this text. -/
def Ends (s : List Char) : Prop := ∀ c ∈ s.head?, Digit.ofChar? c = none ∧ c ≠ '.' ∧ c ≠ 'e' ∧ c ≠ 'E'

variable {n : Numeral} {rest : List Char}

lemma ends_cons {c : Char} (h : Digit.ofChar? c = none ∧ c ≠ '.' ∧ c ≠ 'e' ∧ c ≠ 'E') (s : List Char) :
    Ends (c :: s) := by
  rintro c' hc
  obtain rfl : c = c' := Option.some.inj hc
  exact h

inductive ExponentSpelled : Option (Bool × List Digit) → List Char → Prop where
  | absent : ExponentSpelled none []
  | bare {mark : Char} (h : mark = 'e' ∨ mark = 'E') (d : Digit) (ds : List Digit) :
      ExponentSpelled (some (false, d :: ds)) (mark :: digitText (d :: ds))
  | plus {mark : Char} (h : mark = 'e' ∨ mark = 'E') (d : Digit) (ds : List Digit) :
      ExponentSpelled (some (false, d :: ds)) (mark :: '+' :: digitText (d :: ds))
  | minus {mark : Char} (h : mark = 'e' ∨ mark = 'E') (d : Digit) (ds : List Digit) :
      ExponentSpelled (some (true, d :: ds)) (mark :: '-' :: digitText (d :: ds))

def fractionText (fraction : List Digit) : List Char := if fraction.isEmpty then [] else '.' :: digitText fraction

inductive NumeralSpelled : Numeral → List Char → Prop where
  | mk (negative : Bool) {whole : List Digit} (hw : Leading whole) (fraction : List Digit)
      {exponent : Option (Bool × List Digit)} {s : List Char} (he : ExponentSpelled exponent s) :
      NumeralSpelled ⟨negative, whole, fraction, exponent⟩
        ((if negative then ['-'] else []) ++ (digitText whole ++ (fractionText fraction ++ s)))

variable {exponent : Option (Bool × List Digit)} {s : List Char}

lemma not_mem_of_mark {c : Char} (h : c = 'e' ∨ c = 'E') : Digit.ofChar? c = none ∧ c ≠ '.' := by
  rcases h with rfl | rfl <;> decide

lemma ExponentSpelled.head (he : ExponentSpelled exponent s) (hr : Ends rest) :
    ∀ c ∈ (s ++ rest).head?, Digit.ofChar? c = none ∧ c ≠ '.' := by
  rintro c hc
  cases he with
  | absent => exact ⟨(hr c hc).1, (hr c hc).2.1⟩
  | bare h | plus h | minus h =>
    obtain rfl := Option.some.inj hc
    exact not_mem_of_mark h

lemma spanSign_char (d : Digit) (s : List Char) : Decimal.spanSign (d.char :: s) = (false, d.char :: s) := by
  have h : d.char ≠ '-' ∧ d.char ≠ '+' := by
    revert d
    decide
  rw [Decimal.spanSign]
  · exact fun _ ht => h.1 (List.cons.inj ht).1
  · exact fun _ ht => h.2 (List.cons.inj ht).1

lemma exponent?_spelled (he : ExponentSpelled exponent s) (hr : Ends rest) :
    exponent? (s ++ rest) = some (exponent, rest) := by
  have hspan (d : Digit) (ds : List Digit) := spanDigits_digitText (d :: ds) fun c hc => (hr c hc).1
  cases he with
  | absent =>
    cases rest with
    | nil => rfl
    | cons c rest =>
      obtain ⟨-, -, he, hE⟩ := hr c rfl
      rw [List.nil_append, exponent?, if_neg (by simp [he, hE])]
  | bare h d ds =>
    have hsign : Decimal.spanSign (digitText (d :: ds) ++ rest) = (false, digitText (d :: ds) ++ rest) :=
      spanSign_char d _
    rw [List.cons_append, exponent?, if_pos h, hsign]
    simp only [hspan]
  | plus h d ds | minus h d ds =>
    rw [List.cons_append, exponent?, if_pos h]
    simp only [List.cons_append, Decimal.spanSign, hspan]

lemma fraction?_spelled (fraction : List Digit) (he : ExponentSpelled exponent s) (hr : Ends rest) :
    fraction? (fractionText fraction ++ (s ++ rest)) = some (fraction, s ++ rest) := by
  have hhead := he.head hr
  cases fraction with
  | nil =>
    change fraction? (s ++ rest) = _
    cases hs : s ++ rest with
    | nil => rfl
    | cons c t =>
      rw [hs] at hhead
      rw [fraction?]
      intro u hu
      exact (hhead c rfl).2 (List.cons.inj hu).1
  | cons d ds =>
    have hspan := spanDigits_digitText (d :: ds) fun c hc => (hhead c hc).1
    change fraction? ('.' :: (digitText (d :: ds) ++ (s ++ rest))) = _
    rw [fraction?, hspan]

lemma char_ne_minus (d : Digit) : d.char ≠ '-' := by
  revert d
  decide

lemma spanDigits_whole (ds fraction : List Digit) (he : ExponentSpelled exponent s) (hr : Ends rest) :
    spanDigits (digitText ds ++ (fractionText fraction ++ (s ++ rest))) =
      (ds, fractionText fraction ++ (s ++ rest)) := by
  apply spanDigits_digitText
  cases fraction with
  | nil => exact fun c hc => (he.head hr c hc).1
  | cons d ds =>
    rintro c hc
    obtain rfl : '.' = c := Option.some.inj hc
    decide

lemma numeral?_signed (negative : Bool) {s body : List Char} {ds : List Digit} (hd : Leading ds)
    (hs : spanDigits s = (ds, body)) (hne : ∀ t, s ≠ '-' :: t) :
    numeral? ((if negative then ['-'] else []) ++ s) = (fraction? body).bind fun p =>
      (exponent? p.2).bind fun q => some (⟨negative, ds, p.1, q.1⟩, q.2) := by
  obtain ⟨d, es, rfl, hlead⟩ := hd
  have hzero (d' : Digit) (es' : List Digit) : d :: es ≠ .zero :: d' :: es' := by
    intro h
    obtain ⟨rfl, rfl⟩ := List.cons.inj h
    exact List.cons_ne_nil _ _ (hlead rfl)
  cases negative with
  | true =>
    change numeral? ('-' :: s) = _
    rw [numeral?, hs]
    split
    · next h => cases h
    · next h => exact absurd (Prod.mk.inj h).1 (hzero _ _)
    · next h =>
      obtain ⟨rfl, rfl⟩ := Prod.mk.inj h
      rfl
  | false =>
    change numeral? s = _
    rw [numeral?, hs]
    · split
      · next h => cases h
      · next h => exact absurd (Prod.mk.inj h).1 (hzero _ _)
      · next h =>
        obtain ⟨rfl, rfl⟩ := Prod.mk.inj h
        rfl
    · exact fun t ht => hne t ht

lemma numeral?_spelled (hn : NumeralSpelled n s) (hr : Ends rest) : numeral? (s ++ rest) = some (n, rest) := by
  obtain @⟨negative, whole, hlead, fraction, exponent, s, he⟩ := hn
  have hne (t : List Char) : digitText whole ++ (fractionText fraction ++ (s ++ rest)) ≠ '-' :: t := by
    obtain ⟨d, es, rfl, -⟩ := hlead
    exact fun h => char_ne_minus d (List.cons.inj h).1
  simp only [List.append_assoc]
  rw [numeral?_signed negative hlead (spanDigits_whole whole fraction he hr) hne, fraction?_spelled fraction he hr,
    Option.bind_some, exponent?_spelled he hr, Option.bind_some]

lemma spelled_numeralText (hn : n.WellFormed) : NumeralSpelled n (numeralText n) := by
  obtain ⟨negative, whole, fraction, exponent⟩ := n
  obtain ⟨hlead, hexp⟩ := hn
  have htext {s : List Char} (he : ExponentSpelled exponent s) := NumeralSpelled.mk negative hlead fraction he
  cases exponent with
  | none =>
    have h := htext .absent
    simp only [← List.append_assoc] at h
    exact h
  | some p =>
    obtain ⟨down, ds⟩ := p
    obtain ⟨d, ds, rfl⟩ := List.exists_cons_of_ne_nil (hexp down ds rfl)
    cases down with
    | true =>
      have h := htext (.minus (.inl rfl) d ds)
      simp only [← List.append_assoc] at h
      exact h
    | false =>
      have h := htext (.plus (.inl rfl) d ds)
      simp only [← List.append_assoc] at h
      exact h

lemma exists_of_spelled (hn : NumeralSpelled n s) : ∃ c t, s = c :: t ∧ (c = '-' ∨ ∃ d : Digit, c = d.char) := by
  obtain ⟨negative, ⟨d, ds, rfl, -⟩, fraction, he⟩ := hn
  cases negative with
  | true => exact ⟨'-', _, rfl, .inl rfl⟩
  | false => exact ⟨d.char, _, rfl, .inr ⟨d, rfl⟩⟩

inductive GlyphSpelled : Glyph → List Char → Prop where
  | plain {c : Char} (h : ¬c.toNat < 32) (hq : c ≠ '"') (hb : c ≠ '\\') : GlyphSpelled (.char c) [c]
  | escaped {c e : Char} (h : escaped? e = some c) : GlyphSpelled (.char c) ['\\', e]
  | unit {a b c d : Char} {k : ℕ} (h : hexUnit? a b c d = some k) : GlyphSpelled (.ofUnit k) ['\\', 'u', a, b, c, d]

inductive GlyphsSpelled : List Glyph → List Char → Prop where
  | nil : GlyphsSpelled [] []
  | cons {g : Glyph} {s : List Char} (h : GlyphSpelled g s) {gs : List Glyph} {t : List Char}
      (h' : GlyphsSpelled gs t) : GlyphsSpelled (g :: gs) (s ++ t)

def textOf? (gs : List Glyph) : Option String := (charsOnto [] gs.reverse).map String.ofList

inductive Quoted : Option String → List Char → Prop where
  | mk {gs : List Glyph} {s : List Char} (h : GlyphsSpelled gs s) : Quoted (textOf? gs) ('"' :: (s ++ ['"']))

lemma glyphsOnto_spelled {g : Glyph} (h : GlyphSpelled g s) (done : List Glyph) (rest : List Char) :
    glyphsOnto done (s ++ rest) = glyphsOnto (g :: done) rest := by
  cases h with
  | plain h hq hb =>
    change glyphsOnto done (_ :: rest) = _
    rw [glyphsOnto, if_neg h]
    · exact hq
    · exact fun _ _ _ _ _ h _ => hb h
    · exact fun _ _ h _ => hb h
  | @escaped c e h =>
    have hu : e ≠ 'u' := by
      rintro rfl
      cases h
    change glyphsOnto done ('\\' :: e :: rest) = _
    rw [glyphsOnto, h]
    exact fun _ _ _ _ _ h _ => hu h
  | @unit a b c d k h =>
    change glyphsOnto done ('\\' :: 'u' :: a :: b :: c :: d :: rest) = _
    rw [glyphsOnto, h]

lemma glyphsOnto_all {gs : List Glyph} (h : GlyphsSpelled gs s) (done : List Glyph) (rest : List Char) :
    glyphsOnto done (s ++ '"' :: rest) = some (gs.reverse ++ done, rest) := by
  induction h generalizing done with
  | nil => rfl
  | cons h _ ih =>
    rw [List.append_assoc, glyphsOnto_spelled h, ih, List.reverse_cons, List.append_assoc]
    rfl

lemma exists_quoted {o : Option String} (h : Quoted o s) :
    ∃ t, s = '"' :: t ∧ ∀ rest, quoted? (t ++ rest) = some (o, rest) := by
  obtain ⟨h⟩ := h
  refine ⟨_, rfl, fun rest => ?_⟩
  rw [List.append_assoc, List.singleton_append, quoted?, glyphsOnto_all h, List.append_nil]
  rfl

lemma hexUnit?_control : ∀ n < 32, hexUnit? '0' '0' (hexChar (n / 16)) (hexChar (n % 16)) = some n := by decide

lemma spelled_escape (c : Char) : GlyphSpelled (.char c) (escape c) := by
  rw [escape]
  split_ifs with h₁ h₂ h₃ h₄ h₅ h₆ h₇ h₈
  · rw [h₁]
    exact .escaped rfl
  · rw [h₂]
    exact .escaped rfl
  · rw [h₃]
    exact .escaped rfl
  · rw [h₄]
    exact .escaped rfl
  · rw [h₅]
    exact .escaped rfl
  · rw [h₆]
    exact .escaped rfl
  · rw [h₇]
    exact .escaped rfl
  · have hunit : Glyph.ofUnit c.toNat = .char c := by
      have hhigh : isHigh c.toNat = false := decide_eq_false (by omega)
      have hlow : isLow c.toNat = false := decide_eq_false (by omega)
      rw [Glyph.ofUnit, hhigh, hlow]
      exact congrArg Glyph.char c.ofNat_toNat
    rw [← hunit]
    exact .unit (hexUnit?_control _ h₈)
  · exact .plain h₈ h₁ h₂

lemma spelled_flatMap_escape (cs : List Char) : GlyphsSpelled (cs.map Glyph.char) (cs.flatMap escape) := by
  induction cs with
  | nil => exact .nil
  | cons c cs ih => exact .cons (spelled_escape c) ih

lemma charsOnto_map_char (s : List Char) (done : List Char) :
    charsOnto done (s.map Glyph.char) = some (s.reverse ++ done) := by
  induction s generalizing done with
  | nil => rfl
  | cons c s ih =>
    rw [List.map_cons, charsOnto, ih]
    simp

lemma exists_quotedOnto (o : Option String) : ∃ s, Quoted o s ∧ ∀ rest, quotedOnto o rest = s ++ rest := by
  cases o with
  | none =>
    have hq := Quoted.mk (.cons (.unit (by decide : hexUnit? 'd' '8' '0' '0' = some 0xD800)) .nil)
    have ht : textOf? [.ofUnit 0xD800] = none := by decide
    rw [ht] at hq
    exact ⟨_, hq, fun _ => rfl⟩
  | some t =>
    have ht : textOf? (t.toList.map Glyph.char) = some t := by
      rw [textOf?, ← List.map_reverse, charsOnto_map_char, List.append_nil, List.reverse_reverse, Option.map_some,
        String.ofList_toList]
    have hq := Quoted.mk (spelled_flatMap_escape t.toList)
    rw [ht] at hq
    refine ⟨_, hq, fun rest => ?_⟩
    change '"' :: (t.toList.flatMap escape ++ '"' :: rest) = _
    rw [List.cons_append, List.append_assoc, List.singleton_append]

end Json

end Woodland
