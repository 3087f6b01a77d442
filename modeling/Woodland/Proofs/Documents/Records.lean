import Mathlib.Tactic
import Woodland.Json.Fields

/-!
The fields of a record are found again among its members. Where the members stand makes no difference, nor do members
of other names.
-/

namespace Woodland.Json

abbrev Members := List (Option String × Json)

section

variable {ms ms' : Members} {name : String} {v : Json}

lemma member?_of_not_mem (h : some name ∉ ms.map Prod.fst) : member? ms name = some none := by
  have hf : ms.filter (·.1 = some name) = [] :=
    List.filter_eq_nil_iff.mpr fun m hm hn => h (List.mem_map.mpr ⟨m, hm, of_decide_eq_true hn⟩)
  rw [member?, hf]

lemma member?_of_count (hc : (ms.map Prod.fst).count (some name) = 1) (hm : (some name, v) ∈ ms) :
    member? ms name = some (some v) := by
  have hlen : (ms.filter (·.1 = some name)).length = 1 := by
    rw [← List.countP_eq_length_filter, ← hc, List.count, List.countP_map]
    exact List.countP_congr fun m _ => by simp
  have hmem : (some name, v) ∈ ms.filter (·.1 = some name) := List.mem_filter.mpr ⟨hm, decide_eq_true rfl⟩
  obtain ⟨m, hf⟩ := List.length_eq_one_iff.mp hlen
  rw [hf, List.mem_singleton] at hmem
  rw [member?, hf, ← hmem]

lemma member?_cons_of_ne {m : Option String × Json} (h : m.1 ≠ some name) (ms : Members) :
    member? (m :: ms) name = member? ms name := by
  rw [member?, List.filter_cons_of_neg (by simpa using h), member?]

lemma fields?_object (h : ∀ m ∈ ms, m.1.isSome) (names : List String) :
    fields? names (object ms) = names.mapM (member? ms) := if_pos (List.all_eq_true.mpr h)

lemma member?_perm (h : ms.Perm ms') (name : String) : member? ms name = member? ms' name := by
  have hf := h.filter (·.1 = some name)
  rw [member?, member?]
  generalize ms.filter (·.1 = some name) = l at hf ⊢
  generalize ms'.filter (·.1 = some name) = l' at hf ⊢
  rcases l with _ | ⟨m, _ | ⟨n, l⟩⟩
  · rw [← hf.nil_eq]
  · rw [List.singleton_perm.mp hf]
  · rcases l' with _ | ⟨m', _ | ⟨n', l'⟩⟩
    · exact absurd hf.length_eq (by simp)
    · exact absurd hf.length_eq (by simp)
    · rfl

end

section

variable {ms : List (String × Json)} {name : String} {v : Json}

lemma member?_ofMembers (hd : (ms.map Prod.fst).Nodup) (h : (name, v) ∈ ms) :
    member? (ms.map fun (name, v) => (some name, v)) name = some (some v) := by
  have hkeys : (ms.map fun m => ((some m.1, m.2) : Option String × Json)).map Prod.fst =
      (ms.map Prod.fst).map some := by
    rw [List.map_map, List.map_map]
    rfl
  have hmem : (some name, v) ∈ ms.map fun m => ((some m.1, m.2) : Option String × Json) :=
    List.mem_map.mpr ⟨(name, v), h, rfl⟩
  refine member?_of_count ?_ hmem
  rw [hkeys]
  exact List.count_eq_one_of_mem (hd.map (Option.some_injective _))
    (List.mem_map.mpr ⟨name, List.mem_map.mpr ⟨_, h, rfl⟩, rfl⟩)

lemma fields?_ofMembers (h : (ms.map Prod.fst).Nodup) :
    fields? (ms.map Prod.fst) (ofMembers ms) = some (ms.map fun m => some m.2) := by
  have hall : (ms.map fun (name, v) => (some name, v)).all (·.1.isSome) = true := by simp
  have hmapM (l : List (String × Json)) (hl : l ⊆ ms) :
      (l.map Prod.fst).mapM (member? (ms.map fun (name, v) => (some name, v))) = some (l.map fun m => some m.2) := by
    induction l with
    | nil => rfl
    | cons m l ih =>
      obtain ⟨hm, hl⟩ := List.cons_subset.mp hl
      rw [List.map_cons, List.mapM_cons, member?_ofMembers h hm, ih hl]
      rfl
  rw [ofMembers, fields?, if_pos hall, hmapM ms (List.Subset.refl ms)]

end

inductive SameFields (names : List String) : Members → Members → Prop where
  | perm {ms ms' : Members} (h : ms.Perm ms') : SameFields names ms ms'
  | unknown {name : String} (h : name ∉ names) (v : Json) (ms : Members) : SameFields names ((some name, v) :: ms) ms
  | symm {ms ms' : Members} (h : SameFields names ms ms') : SameFields names ms' ms
  | trans {ms ms' ms'' : Members} (h : SameFields names ms ms') (h' : SameFields names ms' ms'') :
      SameFields names ms ms''

namespace SameFields

variable {names : List String} {ms ms' : Members}

lemma member?_eq (h : SameFields names ms ms') {name : String} (hn : name ∈ names) :
    member? ms name = member? ms' name := by
  induction h with
  | perm h => exact member?_perm h name
  | unknown h v ms =>
    refine member?_cons_of_ne (fun he => h ?_) ms
    rw [Option.some_inj.mp he]
    exact hn
  | symm _ ih => exact ih.symm
  | trans _ _ ih ih' => exact ih.trans ih'

lemma all_isSome (h : SameFields names ms ms') : ms.all (·.1.isSome) = ms'.all (·.1.isSome) := by
  induction h with
  | perm h => exact h.all_eq
  | unknown h v ms => rfl
  | symm _ ih => exact ih.symm
  | trans _ _ ih ih' => exact ih.trans ih'

lemma fields?_eq (h : SameFields names ms ms') : fields? names (object ms) = fields? names (object ms') := by
  have hmapM (l : List String) (hl : l ⊆ names) : l.mapM (member? ms) = l.mapM (member? ms') := by
    induction l with
    | nil => rfl
    | cons name l ih =>
      obtain ⟨hn, hl⟩ := List.cons_subset.mp hl
      rw [List.mapM_cons, List.mapM_cons, h.member?_eq hn, ih hl]
  rw [fields?, fields?, h.all_isSome, hmapM names (List.Subset.refl names)]

end SameFields

end Woodland.Json
