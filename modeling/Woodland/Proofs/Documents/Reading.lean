import Mathlib.Tactic
import Woodland.Proofs.Documents.Lexemes

/-!
Texts of documents: numbers and quoted texts in any of their spellings, with blanks around every value and every mark.
Each of them is read as the document that it spells, and laying a document out over lines gives one of them.
-/

namespace Woodland.Json

open Decimal (Digit)

section Blanks

def Blanks (s : List Char) : Prop := ∀ c ∈ s, isBlank c = true

variable {c : Char} {b s t : List Char}

lemma skipBlanks_cons (h : isBlank c = false) (s : List Char) : skipBlanks (c :: s) = c :: s := by
  rw [skipBlanks, List.dropWhile_cons_of_neg (by rw [h]; exact Bool.false_ne_true)]

lemma Blanks.skip (h : Blanks b) (s : List Char) : skipBlanks (b ++ s) = skipBlanks s := List.dropWhile_append_of_pos h

lemma Blanks.skip_cons (h : Blanks b) (hc : isBlank c = false) (s : List Char) : skipBlanks (b ++ c :: s) = c :: s := by
  rw [h.skip, skipBlanks_cons hc]

lemma Blanks.ends (h : Blanks b) (hs : Ends s) : Ends (b ++ s) := by
  cases b with
  | nil => exact hs
  | cons c b =>
    have hc : isBlank c = true := h c List.mem_cons_self
    have hcases : c = ' ' ∨ c = '\n' ∨ c = '\t' ∨ c = '\r' := of_decide_eq_true hc
    refine ends_cons ?_ _
    rcases hcases with rfl | rfl | rfl | rfl <;> decide

lemma value?_congr (h : skipBlanks s = skipBlanks t) (fuel : ℕ) : value? fuel s = value? fuel t := by
  cases fuel with
  | zero => rw [value?, value?]
  | succ fuel => rw [value?, value?, h]

lemma blanks_nil : Blanks [] := fun _ h => nomatch h

lemma blanks_space : Blanks [' '] := by
  intro c hc
  rw [List.mem_singleton.mp hc]
  rfl

lemma newline_eq (depth : ℕ) : ∃ b, Blanks b ∧ ∀ s, newline depth s = b ++ s := by
  refine ⟨'\n' :: List.replicate (2 * depth) ' ', fun c hc => ?_, fun s => rfl⟩
  rcases List.mem_cons.mp hc with rfl | hc
  · rfl
  · rw [List.eq_of_mem_replicate hc]
    rfl

end Blanks

def itemText (b s b' t : List Char) : List Char := b ++ (s ++ (b' ++ t))

def memberText (b name b₁ b₂ s b' t : List Char) : List Char := b ++ (name ++ (b₁ ++ ':' :: itemText b₂ s b' t))

lemma itemText_append (b s b' t rest : List Char) : itemText b s b' t ++ rest = itemText b s b' (t ++ rest) := by
  simp [itemText]

lemma memberText_append (b q b₁ b₂ s b' t rest : List Char) :
    memberText b q b₁ b₂ s b' t ++ rest = memberText b q b₁ b₂ s b' (t ++ rest) := by
  simp [memberText, itemText]

@[simp] lemma length_itemText (b s b' t : List Char) :
    (itemText b s b' t).length = b.length + s.length + b'.length + t.length := by
  simp only [itemText, List.length_append]
  omega

@[simp] lemma length_memberText (b q b₁ b₂ s b' t : List Char) :
    (memberText b q b₁ b₂ s b' t).length = b.length + q.length + b₁.length + 1 + (itemText b₂ s b' t).length := by
  simp only [memberText, List.length_append, List.length_cons]
  omega

mutual

inductive Spells : Json → List Char → Prop where
  | null : Spells null ['n', 'u', 'l', 'l']
  | true : Spells (bool true) ['t', 'r', 'u', 'e']
  | false : Spells (bool false) ['f', 'a', 'l', 's', 'e']
  | number {n : Decimal.Numeral} {s : List Char} (h : NumeralSpelled n s) : Spells (number n) s
  | text {o : Option String} {s : List Char} (h : Quoted o s) : Spells (text o) s
  | noItems {b : List Char} (hb : Blanks b) : Spells (array []) ('[' :: (b ++ [']']))
  | items {v : Json} {vs : List Json} {b s b' t : List Char} (hb : Blanks b) (h : Spells v s) (hb' : Blanks b')
      (ht : SpellsItems vs t) : Spells (array (v :: vs)) ('[' :: itemText b s b' t)
  | noMembers {b : List Char} (hb : Blanks b) : Spells (object []) ('\x7b' :: (b ++ ['\x7d']))
  | members {name : Option String} {v : Json} {ms : List (Option String × Json)} {b q b₁ b₂ s b' t : List Char}
      (hb : Blanks b) (hq : Quoted name q) (hb₁ : Blanks b₁) (hb₂ : Blanks b₂) (h : Spells v s) (hb' : Blanks b')
      (ht : SpellsMembers ms t) : Spells (object ((name, v) :: ms)) ('\x7b' :: memberText b q b₁ b₂ s b' t)

inductive SpellsItems : List Json → List Char → Prop where
  | close : SpellsItems [] [']']
  | next {v : Json} {vs : List Json} {b s b' t : List Char} (hb : Blanks b) (h : Spells v s) (hb' : Blanks b')
      (ht : SpellsItems vs t) : SpellsItems (v :: vs) (',' :: itemText b s b' t)

inductive SpellsMembers : List (Option String × Json) → List Char → Prop where
  | close : SpellsMembers [] ['\x7d']
  | next {name : Option String} {v : Json} {ms : List (Option String × Json)} {b q b₁ b₂ s b' t : List Char}
      (hb : Blanks b) (hq : Quoted name q) (hb₁ : Blanks b₁) (hb₂ : Blanks b₂) (h : Spells v s) (hb' : Blanks b')
      (ht : SpellsMembers ms t) : SpellsMembers ((name, v) :: ms) (',' :: memberText b q b₁ b₂ s b' t)

end

def WrittenAs (v : Json) (text : String) : Prop :=
  ∃ b s b', Blanks b ∧ Spells v s ∧ Blanks b' ∧ text.toList = b ++ (s ++ b')

variable {v : Json} {vs : List Json} {name : Option String} {ms : List (Option String × Json)}
  {b q b₁ b₂ s b' t rest : List Char} {fuel : ℕ}

lemma not_mem_of_number {c : Char} (h : c = '-' ∨ ∃ d : Digit, c = d.char) :
    isBlank c = false ∧ c ∉ ['n', 't', 'f', '"', '[', ']', '\x7b'] := by
  rcases h with rfl | ⟨d, rfl⟩
  · decide
  · revert d
    decide

def Opens (c : Char) : Prop := isBlank c = false ∧ c ≠ ']'

lemma Spells.exists_opens (h : Spells v s) : ∃ c t, s = c :: t ∧ Opens c := by
  cases h with
  | null | true | false | noItems _ | items _ _ _ _ | noMembers _ | members _ _ _ _ _ _ _ =>
    exact ⟨_, _, rfl, by decide, by decide⟩
  | number h =>
    obtain ⟨c, t, rfl, hc⟩ := exists_of_spelled h
    obtain ⟨hblank, hne⟩ := not_mem_of_number hc
    refine ⟨c, t, rfl, hblank, ?_⟩
    rintro rfl
    exact hne (by decide)
  | text h =>
    obtain ⟨t, rfl, -⟩ := exists_quoted h
    exact ⟨'"', t, rfl, by decide, by decide⟩

lemma SpellsItems.ends (h : SpellsItems vs t) (hb : Blanks b) (rest : List Char) : Ends (b ++ (t ++ rest)) := by
  cases h with
  | close | next _ _ _ _ => exact hb.ends (ends_cons (by decide) _)

lemma SpellsMembers.ends (h : SpellsMembers ms t) (hb : Blanks b) (rest : List Char) : Ends (b ++ (t ++ rest)) := by
  cases h with
  | close | next _ _ _ _ _ _ _ => exact hb.ends (ends_cons (by decide) _)

lemma value?_number {n : Decimal.Numeral} (h : NumeralSpelled n s) (hr : Ends rest) (fuel : ℕ) :
    value? (fuel + 1) (s ++ rest) = some (number n, rest) := by
  have hread := numeral?_spelled h hr
  obtain ⟨c, t, rfl, hc⟩ := exists_of_spelled h
  obtain ⟨hblank, hne⟩ := not_mem_of_number hc
  rw [List.cons_append] at hread ⊢
  rw [value?, skipBlanks_cons hblank]
  simp only [List.mem_cons, not_or] at hne
  obtain ⟨hn, ht, hf, hq, ha, -, ho, -⟩ := hne
  split
  · next h => exact absurd (List.cons.inj h).1 hn
  · next h => exact absurd (List.cons.inj h).1 ht
  · next h => exact absurd (List.cons.inj h).1 hf
  · next h => exact absurd (List.cons.inj h).1 hq
  · next h => exact absurd (List.cons.inj h).1 ha
  · next h => exact absurd (List.cons.inj h).1 ho
  · rw [hread]
    rfl

lemma SpellsItems.length_pos (h : SpellsItems vs t) : 0 < t.length := by
  cases h with
  | close | next _ _ _ _ => exact Nat.succ_pos _

lemma SpellsMembers.length_pos (h : SpellsMembers ms t) : 0 < t.length := by
  cases h with
  | close | next _ _ _ _ _ _ _ => exact Nat.succ_pos _

/-- So much fuel is enough for texts of half its length. -/
structure Reads (fuel : ℕ) : Prop where
  value : ∀ {v s rest}, Spells v s → Ends rest → 2 * s.length ≤ fuel → value? fuel (s ++ rest) = some (v, rest)
  items : ∀ {v s vs t b b'} (rest : List Char), Blanks b → Spells v s → Blanks b' → SpellsItems vs t →
    2 * (itemText b s b' t).length ≤ fuel → items? fuel (itemText b s b' (t ++ rest)) = some (v :: vs, rest)
  members : ∀ {name q v s ms t b b₁ b₂ b'} (rest : List Char), Blanks b → Quoted name q → Blanks b₁ → Blanks b₂ →
    Spells v s → Blanks b' → SpellsMembers ms t → 2 * (memberText b q b₁ b₂ s b' t).length ≤ fuel →
    members? fuel (memberText b q b₁ b₂ s b' (t ++ rest)) = some ((name, v) :: ms, rest)

lemma reads_zero : Reads 0 := by
  refine ⟨fun h _ hl => ?_, fun _ _ _ _ ht hl => ?_, fun _ _ _ _ _ _ _ ht hl => ?_⟩
  · obtain ⟨c, t, rfl, -⟩ := h.exists_opens
    rw [List.length_cons] at hl
    omega
  · have hpos := ht.length_pos
    rw [length_itemText] at hl
    omega
  · rw [length_memberText] at hl
    omega

lemma Reads.item (ih : Reads fuel) (hb : Blanks b) (h : Spells v s) (hr : Ends rest) (hl : 2 * s.length ≤ fuel) :
    value? fuel (b ++ (s ++ rest)) = some (v, rest) := by
  rw [value?_congr (hb.skip _)]
  exact ih.value h hr hl

lemma Reads.items_succ (ih : Reads fuel) (rest : List Char) (hb : Blanks b) (h : Spells v s) (hb' : Blanks b')
    (ht : SpellsItems vs t) (hl : 2 * (itemText b s b' t).length ≤ fuel + 1) :
    items? (fuel + 1) (itemText b s b' (t ++ rest)) = some (v :: vs, rest) := by
  have hpos := ht.length_pos
  rw [length_itemText] at hl
  have hvalue : value? fuel (itemText b s b' (t ++ rest)) = some (v, b' ++ (t ++ rest)) :=
    ih.item hb h (ht.ends hb' rest) (by omega)
  cases ht with
  | close =>
    have hclose : skipBlanks (b' ++ ([']'] ++ rest)) = ']' :: rest := hb'.skip_cons (by decide) rest
    simp only [items?, hvalue, Option.bind_eq_bind, Option.bind_some, hclose]
    rfl
  | @next v₂ vs b₂ s₂ b₂' t hb₂ h₂ hb₂' ht =>
    have hcomma : skipBlanks (b' ++ (',' :: itemText b₂ s₂ b₂' t ++ rest)) = ',' :: itemText b₂ s₂ b₂' (t ++ rest) := by
      rw [List.cons_append, itemText_append]
      exact hb'.skip_cons (by decide) _
    rw [List.length_cons] at hl
    have hitems := ih.items rest hb₂ h₂ hb₂' ht (by omega)
    simp only [items?, hvalue, Option.bind_eq_bind, Option.bind_some, hcomma, hitems]
    rfl

lemma Reads.members_succ (ih : Reads fuel) (rest : List Char) (hb : Blanks b) (hq : Quoted name q) (hb₁ : Blanks b₁)
    (hb₂ : Blanks b₂) (h : Spells v s) (hb' : Blanks b') (ht : SpellsMembers ms t)
    (hl : 2 * (memberText b q b₁ b₂ s b' t).length ≤ fuel + 1) :
    members? (fuel + 1) (memberText b q b₁ b₂ s b' (t ++ rest)) = some ((name, v) :: ms, rest) := by
  have hpos := ht.length_pos
  rw [length_memberText, length_itemText] at hl
  obtain ⟨q, rfl, hquoted⟩ := exists_quoted hq
  have hopen : skipBlanks (memberText b ('"' :: q) b₁ b₂ s b' (t ++ rest)) =
      '"' :: (q ++ (b₁ ++ ':' :: itemText b₂ s b' (t ++ rest))) := hb.skip_cons (by decide) _
  have hcolon : skipBlanks (b₁ ++ ':' :: itemText b₂ s b' (t ++ rest)) = ':' :: itemText b₂ s b' (t ++ rest) :=
    hb₁.skip_cons (by decide) _
  have hvalue : value? fuel (itemText b₂ s b' (t ++ rest)) = some (v, b' ++ (t ++ rest)) :=
    ih.item hb₂ h (ht.ends hb' rest) (by omega)
  simp only [members?, hopen, hquoted, Option.bind_eq_bind, Option.bind_some, hcolon, hvalue]
  cases ht with
  | close =>
    have hclose : skipBlanks (b' ++ (['\x7d'] ++ rest)) = '\x7d' :: rest := hb'.skip_cons (by decide) rest
    simp only [hclose]
    rfl
  | @next name₂ v₂ ms c q₂ c₁ c₂ s₂ c' t hc hq₂ hc₁ hc₂ h₂ hc' ht =>
    have hcomma : skipBlanks (b' ++ (',' :: memberText c q₂ c₁ c₂ s₂ c' t ++ rest)) =
        ',' :: memberText c q₂ c₁ c₂ s₂ c' (t ++ rest) := by
      rw [List.cons_append, memberText_append]
      exact hb'.skip_cons (by decide) _
    simp only [List.length_cons] at hl
    have hmembers := ih.members rest hc hq₂ hc₁ hc₂ h₂ hc' ht (by omega)
    simp only [hcomma, hmembers, Option.bind_some]
    rfl

lemma Reads.value_succ (ih : Reads fuel) (h : Spells v s) (hr : Ends rest) (hl : 2 * s.length ≤ fuel + 1) :
    value? (fuel + 1) (s ++ rest) = some (v, rest) := by
  cases h with
  | null | true | false => rfl
  | number h => exact value?_number h hr fuel
  | text h =>
    obtain ⟨t, rfl, hquoted⟩ := exists_quoted h
    rw [List.cons_append, value?, skipBlanks_cons (by decide)]
    simp only [hquoted, Option.map_some]
  | @noItems b hb =>
    have hclose : skipBlanks (b ++ ']' :: rest) = ']' :: rest := hb.skip_cons (by decide) rest
    rw [List.cons_append, List.append_assoc, List.singleton_append, value?, skipBlanks_cons (by decide)]
    simp only [hclose]
  | @items v vs b s b' t hb h hb' ht =>
    rw [List.length_cons] at hl
    have hitems := ih.items rest hb h hb' ht (by omega)
    -- what follows the bracket is not the other bracket
    obtain ⟨c, u, rfl, hblank, hne⟩ := h.exists_opens
    have hopen : skipBlanks (itemText b (c :: u) b' (t ++ rest)) = c :: (u ++ (b' ++ (t ++ rest))) :=
      hb.skip_cons hblank _
    rw [List.cons_append, itemText_append, value?, skipBlanks_cons (by decide)]
    simp only [hopen]
    split
    · next h => exact absurd (List.cons.inj h).1 hne
    · rw [hitems]
      rfl
  | @noMembers b hb =>
    have hclose : skipBlanks (b ++ '\x7d' :: rest) = '\x7d' :: rest := hb.skip_cons (by decide) rest
    rw [List.cons_append, List.append_assoc, List.singleton_append, value?, skipBlanks_cons (by decide)]
    simp only [hclose]
  | @members name v ms b q b₁ b₂ s b' t hb hq hb₁ hb₂ h hb' ht =>
    rw [List.length_cons] at hl
    have hmembers := ih.members rest hb hq hb₁ hb₂ h hb' ht (by omega)
    obtain ⟨q, rfl, -⟩ := exists_quoted hq
    have hopen : skipBlanks (memberText b ('"' :: q) b₁ b₂ s b' (t ++ rest)) =
        '"' :: (q ++ (b₁ ++ ':' :: itemText b₂ s b' (t ++ rest))) := hb.skip_cons (by decide) _
    rw [List.cons_append, memberText_append, value?, skipBlanks_cons (by decide)]
    simp only [hopen]
    rw [hmembers]
    rfl

lemma reads (fuel : ℕ) : Reads fuel := by
  -- a step down into a value and a step along its items each leave a shorter text
  induction fuel with
  | zero => exact reads_zero
  | succ fuel ih => exact ⟨ih.value_succ, ih.items_succ, ih.members_succ⟩

lemma WrittenAs.read? {text : String} (h : v.WrittenAs text) : read? text = some v := by
  obtain ⟨b, s, b', hb, hs, hb', htext⟩ := h
  have hnil : Ends [] := fun c hc => nomatch hc
  have hends : Ends b' := b'.append_nil ▸ hb'.ends hnil
  have hvalue := (reads (2 * text.toList.length + 2)).item hb hs hends (by
    rw [htext, List.length_append, List.length_append]
    omega)
  have hrest : skipBlanks b' = [] := by
    rw [← b'.append_nil, hb'.skip]
    rfl
  rw [Json.read?]
  simp only [← htext] at hvalue
  simp only [hvalue, hrest]
  rfl

inductive WellFormed : Json → Prop
  | null : WellFormed null
  | bool (b : Bool) : WellFormed (bool b)
  | number {n : Decimal.Numeral} (h : n.WellFormed) : WellFormed (number n)
  | text (s : Option String) : WellFormed (text s)
  | array {vs : List Json} (h : ∀ v ∈ vs, WellFormed v) : WellFormed (array vs)
  | object {ms : List (Option String × Json)} (h : ∀ m ∈ ms, WellFormed m.2) : WellFormed (object ms)

mutual

theorem exists_prettyOnto (v : Json) (h : v.WellFormed) (depth : ℕ) :
    ∃ s, Spells v s ∧ ∀ rest, prettyOnto depth v rest = s ++ rest :=
  match v with
  | null => ⟨_, .null, fun rest => by simp only [prettyOnto, compactOnto]; rfl⟩
  | bool true => ⟨_, .true, fun rest => by simp only [prettyOnto, compactOnto]; rfl⟩
  | bool false => ⟨_, .false, fun rest => by simp only [prettyOnto, compactOnto]; rfl⟩
  | number n => by
    cases h with
    | number h => exact ⟨_, .number (spelled_numeralText h), fun rest => by simp only [prettyOnto, compactOnto]⟩
  | text o => by
    obtain ⟨s, hq, hs⟩ := exists_quotedOnto o
    exact ⟨s, .text hq, fun rest => by simp only [prettyOnto, compactOnto, hs]⟩
  | array [] => ⟨_, .noItems blanks_nil, fun rest => by simp only [prettyOnto, compactOnto]; rfl⟩
  | array (v :: vs) => by
    cases h with
    | array h =>
      obtain ⟨hv, hvs⟩ := List.forall_mem_cons.mp h
      obtain ⟨s, hs, hsv⟩ := exists_prettyOnto v hv (depth + 1)
      obtain ⟨b', t, hb', ht, hst⟩ := exists_prettyItems vs hvs (depth + 1) depth
      obtain ⟨b, hb, hnew⟩ := newline_eq (depth + 1)
      refine ⟨_, .items hb hs hb' ht, fun rest => ?_⟩
      rw [prettyOnto, hnew, hsv, hst, List.cons_append, itemText_append, itemText]
  | object [] => ⟨_, .noMembers blanks_nil, fun rest => by simp only [prettyOnto, compactOnto]; rfl⟩
  | object ((name, v) :: ms) => by
    cases h with
    | object h =>
      obtain ⟨hv, hms⟩ := List.forall_mem_cons.mp h
      obtain ⟨q, hq, hsq⟩ := exists_quotedOnto name
      obtain ⟨s, hs, hsv⟩ := exists_prettyOnto v hv (depth + 1)
      obtain ⟨b', t, hb', ht, hst⟩ := exists_prettyMembers ms hms (depth + 1) depth
      obtain ⟨b, hb, hnew⟩ := newline_eq (depth + 1)
      refine ⟨_, .members hb hq blanks_nil blanks_space hs hb' ht, fun rest => ?_⟩
      rw [prettyOnto, hnew, hsq, hsv, hst, List.cons_append, memberText_append, memberText, itemText]
      rfl

theorem exists_prettyItems (vs : List Json) (h : ∀ v ∈ vs, v.WellFormed) (depth depth' : ℕ) :
    ∃ b t, Blanks b ∧ SpellsItems vs t ∧
      ∀ rest, prettyItems depth vs (newline depth' (']' :: rest)) = b ++ (t ++ rest) :=
  match vs with
  | [] => by
    obtain ⟨b, hb, hnew⟩ := newline_eq depth'
    exact ⟨b, _, hb, .close, fun rest => by rw [prettyItems, hnew]; rfl⟩
  | v :: vs => by
    obtain ⟨hv, hvs⟩ := List.forall_mem_cons.mp h
    obtain ⟨s, hs, hsv⟩ := exists_prettyOnto v hv depth
    obtain ⟨b', t, hb', ht, hst⟩ := exists_prettyItems vs hvs depth depth'
    obtain ⟨b, hb, hnew⟩ := newline_eq depth
    refine ⟨[], _, blanks_nil, .next hb hs hb' ht, fun rest => ?_⟩
    rw [prettyItems, hnew, hsv, hst, List.nil_append, List.cons_append, itemText_append, itemText]

theorem exists_prettyMembers (ms : List (Option String × Json)) (h : ∀ m ∈ ms, m.2.WellFormed) (depth depth' : ℕ) :
    ∃ b t, Blanks b ∧ SpellsMembers ms t ∧
      ∀ rest, prettyMembers depth ms (newline depth' ('\x7d' :: rest)) = b ++ (t ++ rest) :=
  match ms with
  | [] => by
    obtain ⟨b, hb, hnew⟩ := newline_eq depth'
    exact ⟨b, _, hb, .close, fun rest => by rw [prettyMembers, hnew]; rfl⟩
  | (name, v) :: ms => by
    obtain ⟨hv, hms⟩ := List.forall_mem_cons.mp h
    obtain ⟨q, hq, hsq⟩ := exists_quotedOnto name
    obtain ⟨s, hs, hsv⟩ := exists_prettyOnto v hv depth
    obtain ⟨b', t, hb', ht, hst⟩ := exists_prettyMembers ms hms depth depth'
    obtain ⟨b, hb, hnew⟩ := newline_eq depth
    refine ⟨[], _, blanks_nil, .next hb hq blanks_nil blanks_space hs hb' ht, fun rest => ?_⟩
    rw [prettyMembers, hnew, hsq, hsv, hst, List.nil_append, List.cons_append, memberText_append, memberText, itemText]
    rfl

end

lemma writtenAs_pretty (h : v.WellFormed) : v.WrittenAs v.pretty := by
  obtain ⟨s, hs, htext⟩ := exists_prettyOnto v h 0
  refine ⟨[], s, [], blanks_nil, hs, blanks_nil, ?_⟩
  rw [pretty, String.toList_ofList, htext]
  rfl

lemma read?_pretty (h : v.WellFormed) : read? v.pretty = some v := (writtenAs_pretty h).read?

end Woodland.Json
