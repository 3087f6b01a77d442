import Mathlib.Tactic
import Woodland.Proofs.Planting.Changes
import Woodland.Proofs.Planting.Progress

/-! Refused updates leave no trace: a history without them ends in the same forest. -/

namespace Woodland.Forest

def accepted (us : List Update) (rs : List (Except Error Unit)) : List Update :=
  ((us.zip rs).filter fun p => p.2.isOk).map Prod.fst

variable {us : List Update} {rs : List (Except Error Unit)}

@[simp] lemma accepted_cons_ok (u : Update) : accepted (u :: us) (.ok () :: rs) = u :: accepted us rs := rfl

@[simp] lemma accepted_cons_error (u : Update) (e : Error) :
    accepted (u :: us) (.error e :: rs) = accepted us rs := rfl

theorem performAll_accepted (f f' : Forest) (us : List Update) (rs : List (Except Error Unit))
    (h : (f.performAll us).value = .ok (rs, f')) :
    rs.length = us.length ∧ (f.performAll (accepted us rs)).value = .ok (rs.filter Except.isOk, f') := by
  induction us generalizing f rs with
  | nil =>
    obtain ⟨rfl, rfl⟩ := Prod.mk.inj (Except.ok.inj h)
    exact ⟨rfl, rfl⟩
  | cons u us ih =>
    obtain ⟨r, f₁, rs, hu, hus, rfl⟩ := performAll_cons.mp h
    obtain ⟨hl, ha⟩ := ih f₁ rs hus
    refine ⟨by rw [List.length_cons, List.length_cons, hl], ?_⟩
    -- A refused update hands on the forest that it was given, so the rest runs from there.
    rcases perform_cases hu with ⟨e, rfl, rfl⟩ | ⟨rfl, -⟩
    · rw [accepted_cons_error, List.filter_cons_of_neg (by rintro ⟨⟩)]
      exact ha
    · rw [accepted_cons_ok, List.filter_cons_of_pos rfl]
      exact performAll_cons.mpr ⟨.ok (), f₁, _, hu, ha, rfl⟩

theorem performAll_accepted_replant :
    ∃ f', ((Forest.mk default (.ofSeed 7) []).performAll
        [.retarget 301, .regenerate, .set "wind" 1.0]).value =
          .ok ([.error (.invalid (.targetAbove 301)), .ok (), .error (.unknownParameter "wind")], f') ∧
      ((Forest.mk default (.ofSeed 7) []).performAll [.regenerate]).value = .ok ([.ok ()], f') := by
  let f : Forest := ⟨default, .ofSeed 7, []⟩
  obtain ⟨f', hf, -⟩ := exists_planted (s := default) (by decide +kernel) (.ofSeed 7)
  have hr : (f.perform (.retarget 301)).value = .ok (.error (.invalid (.targetAbove 301)), f) := by
    rw [value_perform]
    rfl
  have hp : (f.perform .regenerate).value = .ok (.ok (), f') := by
    rw [value_perform, plan, decided, Plan.carryOut, hf]
    rfl
  have hw : (f'.perform (.set "wind" 1.0)).value = .ok (.error (.unknownParameter "wind"), f') := by
    rw [value_perform]
    rfl
  have hd : (f'.performAll []).value = .ok ([], f') := rfl
  have h₂ := performAll_cons.mpr ⟨_, _, _, hw, hd, rfl⟩
  have h₁ := performAll_cons.mpr ⟨_, _, _, hp, h₂, rfl⟩
  have h := performAll_cons.mpr ⟨_, _, _, hr, h₁, rfl⟩
  exact ⟨f', h, (performAll_accepted f f' _ _ h).2⟩

end Woodland.Forest
