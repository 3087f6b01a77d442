import Mathlib.Tactic
import Woodland.Proofs.Drawing.Depth
import Woodland.Proofs.Drawing.Groups
import Woodland.Proofs.Words.OpenPath

/-! Where a turtle stands after a word, and what it has saved by then, is due to the open path of the word alone. -/

namespace Woodland

variable {α : Type} [Scalar α]

def Command.carry (s : Shape α) (m : Mat4 α) : Command → Mat4 α
  | forward => m.displace ⟨0, s.length, 0⟩
  | rollLeft => m.rotate s.turnAngle .unitZ
  | rollRight => m.rotate (-s.turnAngle) .unitZ
  | pitchUp => m.rotate s.turnAngle .unitX
  | pitchDown => m.rotate (-s.turnAngle) .unitX
  | turnLeft => m.rotate s.turnAngle .unitY
  | turnRight => m.rotate (-s.turnAngle) .unitY
  | push | pop => m

namespace Turtle

def standing (t : Turtle α) : Pose α × List (Pose α) := (t.pose, t.saved)

variable (s : Shape α) {t t' : Turtle α} {w m : Word}

lemma standing_step_open (t : Turtle α) : (t.step s '[').standing = (t.pose.enter s, t.pose :: t.saved) := rfl

lemma standing_step_plain (t : Turtle α) (c : Plain) : (t.step s c).standing = (t.pose.move s c, t.saved) := by
  rw [step_plain]
  rfl

lemma standing_step_close_nil (h : t.saved = []) : (t.step s ']').standing = t.standing := by
  rw [step_close_nil s h]
  simp [standing]

lemma standing_step_close_cons {p : Pose α} {rest : List (Pose α)} (h : t.saved = p :: rest) :
    (t.step s ']').standing = (p, rest) := by
  rw [step_close_cons s h]
  rfl

lemma standing_step_congr (h : t.standing = t'.standing) (c : Char) :
    (t.step s c).standing = (t'.step s c).standing := by
  obtain ⟨hp, hs⟩ := Prod.mk.inj h
  obtain rfl | rfl | ⟨p, rfl⟩ := symbol_cases c
  · rw [standing_step_open, standing_step_open, hp, hs]
  · cases ht : t'.saved with
    | nil => rw [standing_step_close_nil s ht, standing_step_close_nil s (hs.trans ht), h]
    | cons q rest => rw [standing_step_close_cons s ht, standing_step_close_cons s (hs.trans ht)]
  · rw [standing_step_plain, standing_step_plain, hp, hs]

lemma standing_walk_congr (h : t.standing = t'.standing) (w : Word) :
    (t.walk s w).standing = (t'.walk s w).standing := by
  induction w generalizing t t' with
  | nil => exact h
  | cons c w ih => exact ih (standing_step_congr s h c)

lemma standing_walk_enclosed (t : Turtle α) (hm : WellNested m) : (t.walk s m.enclosed).standing = t.standing := by
  obtain ⟨n, hn⟩ := hm.exists_parse?
  obtain ⟨pose, saved, clusters, drawn, unmatched⟩ := t
  have hg := walk_word s clusters (Nesting.group n .done) pose saved 0 drawn unmatched
  have hw : (Nesting.group n .done).word = m.enclosed := by
    rw [← Nesting.word_of_parse? hn]
    rfl
  rw [List.drop_zero, hw] at hg
  rw [hg]
  rfl

lemma step_of_unknown (t : Turtle α) {c : Char} (h : Command.ofSymbol? c = none) : t.step s c = t := by
  rw [step, h]

lemma standing_walk_openPath (t : Turtle α) (w : Word) (h : t.saved = [] ∨ Rooted w) :
    (t.walk s w).standing = (t.walk s w.openPath).standing := by
  -- with something saved before, a close without an open would not be one: it is ruled out by `Rooted`
  induction w using Word.induction_groups generalizing t with
  | nil => rfl
  | plain c w hc ih =>
    rw [Word.openPath_cons (Or.inl hc), walk_cons]
    by_cases hp : c = ']'
    · subst hp
      have hs : t.saved = [] := by
        rcases h with h | h
        · exact h
        · exact absurd h (not_rooted_of_closed (m := []) le_rfl w)
      have hstand := standing_step_close_nil s hs
      rw [if_neg (by simp), ih _ (Or.inl ((Prod.mk.inj hstand).2.trans hs))]
      exact standing_walk_congr s hstand _
    · have hrest : (t.step s c).saved = [] ∨ Rooted w := by
        rw [step_plain s t ⟨c, hc, hp⟩]
        rcases h with h | h
        · exact Or.inl h
        · exact Or.inr ((wellNested_plain ⟨c, hc, hp⟩).rooted_of_append h)
      by_cases hk : (Command.ofSymbol? c).isSome
      · rw [if_pos ⟨hk, hp⟩, walk_cons]
        exact ih _ hrest
      · rw [if_neg (by simp [hk]), ih _ hrest, step_of_unknown s t (by simpa using hk)]
  | group m v hm ih =>
    have hstand := standing_walk_enclosed s t hm
    have hrest : (t.walk s m.enclosed).saved = [] ∨ Rooted v := by
      rcases h with h | h
      · exact Or.inl ((Prod.mk.inj hstand).2.trans h)
      · exact Or.inr (hm.enclosed.rooted_of_append h)
    rw [walk_append, Word.openPath_group hm, ih _ hrest]
    exact standing_walk_congr s hstand _
  | opened w hw ih =>
    rw [Word.openPath_cons (Or.inr hw), if_pos (by decide), walk_cons, walk_cons]
    exact ih _ (Or.inr hw)

lemma frame_execute (t : Turtle α) {k : Command} (hk : k ≠ .pop) :
    (t.execute s k).pose.frame = k.carry s t.pose.frame := by
  cases k with
  | pop => exact absurd rfl hk
  | forward =>
    simp only [execute, forward, Pose.advance, Command.carry, Pose.taper]
    split <;> rfl
  | rollLeft | rollRight | pitchUp | pitchDown | turnLeft | turnRight | push => rfl

lemma frame_walk (t : Turtle α) {w : Word} (h : ']' ∉ w) :
    (t.walk s w).pose.frame = (w.filterMap Command.ofSymbol?).foldl (Command.carry s) t.pose.frame := by
  induction w generalizing t with
  | nil => rfl
  | cons c w ih =>
    obtain ⟨hc, hw⟩ : c ≠ ']' ∧ ']' ∉ w := by simpa [eq_comm] using h
    rw [walk_cons, ih _ hw]
    cases hk : Command.ofSymbol? c with
    | none => rw [step_of_unknown s t hk, List.filterMap_cons_none hk]
    | some k =>
      have hpop : k ≠ .pop := by
        rintro rfl
        unfold Command.ofSymbol? at hk
        split at hk <;> simp_all
      have hstep : t.step s c = t.execute s k := by rw [step, hk]
      rw [List.filterMap_cons_some hk, List.foldl_cons, hstep, frame_execute s t hpop]

theorem walk_openPath (clusters : List (Cluster α)) (origin : Mat4 α) (w : Word) :
    let t := (start s clusters origin).walk s w
    let r := (start s clusters origin).walk s w.openPath
    t.pose = r.pose ∧ t.saved = r.saved ∧
      t.pose.frame = (w.openPath.filterMap Command.ofSymbol?).foldl (Command.carry s) origin := by
  intro t r
  obtain ⟨hp, hs⟩ := Prod.mk.inj (standing_walk_openPath s (start s clusters origin) w (Or.inl rfl))
  have hf := frame_walk s (start s clusters origin) (Word.close_not_mem_openPath w)
  exact ⟨hp, hs, (congrArg Pose.frame hp).trans hf⟩

end Turtle

end Woodland
