import Mathlib.Tactic
import Woodland.Files.FileTree
import Woodland.Proofs.Results

/-! A text that was written to a file is read again, and whether it can be written does not depend on the text. -/

namespace Woodland

namespace Path

variable {a : Char} {cs : List Char}

lemma getLast?_splitOn (h : (cs.splitOn a).getLast? = some []) : cs = [] ∨ cs.getLast? = some a := by
  induction cs with
  | nil => exact .inl rfl
  | cons c cs ih =>
    right
    rw [List.splitOn_cons_eq_if_modifyHead] at h
    split_ifs at h with hc
    · obtain rfl : c = a := by simpa using hc
      rw [List.getLast?_cons_of_ne_nil (List.splitOn_ne_nil _ _)] at h
      rcases ih h with rfl | hl
      · rfl
      · rw [List.getLast?_cons, hl]
        rfl
    · rcases hs : cs.splitOn a with - | ⟨y, - | ⟨z, l⟩⟩
      · exact absurd hs (List.splitOn_ne_nil _ _)
      · rw [hs] at h
        simp at h
      · rw [hs] at h ih
        rcases ih (by simpa using h) with rfl | hl
        · simp at hs
        · rw [List.getLast?_cons, hl]
          rfl

lemma names_of_endsWith {path : String} (h : path.endsWith "/" = true) : ∃ names, Path.names path = names ++ [""] := by
  rw [String.endsWith_eq_endsWith_toSlice, String.Slice.endsWith_string_iff] at h
  obtain ⟨cs, hcs⟩ := h
  have hpath : path.toList = cs ++ '/' :: [] := by simpa using hcs.symm
  refine ⟨(cs.splitOn '/').map String.ofList, ?_⟩
  rw [names, hpath, List.splitOn_append_cons_self, List.map_append]
  rfl

lemma endsWith_of_names {path : String} {init : List String} (h : Path.names path = init ++ [""]) :
    path = "" ∨ path.endsWith "/" = true := by
  have hlast : (path.toList.splitOn '/').getLast? = some [] := by
    have hmap : ((path.toList.splitOn '/').map String.ofList).getLast? = some "" := by
      rw [← names, h, List.getLast?_concat]
    rw [List.getLast?_map] at hmap
    obtain ⟨cs, hcs, hempty⟩ := Option.map_eq_some_iff.mp hmap
    rw [hcs, String.ofList_eq_empty_iff.mp hempty]
  rcases getLast?_splitOn hlast with hnil | hslash
  · exact .inl (String.toList_eq_nil_iff.mp hnil)
  · right
    rw [String.endsWith_eq_endsWith_toSlice, String.Slice.endsWith_string_iff]
    obtain ⟨cs, hcs⟩ := List.getLast?_eq_some_iff.mp hslash
    exact ⟨cs, by simpa using hcs.symm⟩

lemma check_eq_ok {path : String} (h : check path = .ok ()) : path ≠ "" := by
  rintro rfl
  cases h

structure Plain (name : String) : Prop where
  ne_empty : name ≠ ""
  ne_dot : name ≠ "."
  ne_dots : name ≠ ".."
  size : name.utf8ByteSize ≤ nameLimit

end Path

namespace FileTree

open Woodland.Path (Plain)

lemma entry?_congr (t : FileTree) {place p : Place} (h : place.number = p.number) (name : String) :
    t.entry? place name = t.entry? p name := congrArg (fun n => t.entries.lookup (n, name)) h

lemma entry?_insert (t : FileTree) (place p : Place) (name n : String) (e : Entry) :
    FileTree.entry? (t.insert place name e) p n =
      if p.number = place.number ∧ n = name then some e else t.entry? p n := by
  change List.lookup (p.number, n) (((place.number, name), e) :: t.entries) = _
  rw [List.lookup_cons]
  by_cases h : p.number = place.number ∧ n = name
  · simp [h.1, h.2]
  · have hne : ((p.number, n) == (place.number, name)) = false := by
      rw [beq_eq_false_iff_ne]
      exact fun he => h (Prod.mk.inj he)
    rw [hne, if_neg h]
    rfl

inductive Leads (t : FileTree) : Place → List String → Place → Prop
  | here (place : Place) : Leads t place [] place
  | stay {place target : Place} {names : List String} (name : String) (hn : name = "" ∨ name = ".")
    (h : Leads t place names target) : Leads t place (name :: names) target
  | up {place target : Place} {names : List String} (h : Leads t place.tail names target) :
    Leads t place (".." :: names) target
  | down {place target : Place} {names : List String} {name : String} {n : ℕ} (hn : Plain name)
    (he : t.entry? place name = some (.directory n)) (h : Leads t (n :: place) names target) :
    Leads t place (name :: names) target

variable {t t' : FileTree} {place target : Place} {path text name : String} {names : List String}

namespace Leads

lemma of_walk (h : t.walk place names = .ok (.directory target)) : t.Leads place names target := by
  induction names generalizing place with
  | nil =>
    obtain rfl := Target.directory.inj (Except.ok.inj h)
    exact .here _
  | cons name names ih =>
    rw [walk] at h
    by_cases hstay : name = "" ∨ name = "."
    · rw [if_pos hstay] at h
      exact .stay name hstay (ih h)
    rw [if_neg hstay] at h
    by_cases hup : name = ".."
    · rw [if_pos hup] at h
      rw [hup]
      exact .up (ih h)
    rw [if_neg hup] at h
    by_cases hsize : Path.nameLimit < name.utf8ByteSize
    · rw [if_pos hsize] at h
      cases h
    rw [if_neg hsize] at h
    rw [not_or] at hstay
    split at h
    · next n he => exact .down ⟨hstay.1, hstay.2, hup, Nat.le_of_not_lt hsize⟩ he (ih h)
    · split at h <;> cases h
    · cases h

lemma walk_append (h : t.Leads place names target) (rest : List String) :
    t.walk place (names ++ rest) = t.walk target rest := by
  induction h with
  | here place => rfl
  | stay name hn h ih => rw [List.cons_append, walk, if_pos hn, ih]
  | up h ih => rw [List.cons_append, walk, if_neg (by decide), if_pos rfl, ih]
  | down hn he h ih =>
    rw [List.cons_append, walk, if_neg (not_or.mpr ⟨hn.ne_empty, hn.ne_dot⟩), if_neg hn.ne_dots,
      if_neg (Nat.not_lt.mpr hn.size), he]
    exact ih

lemma walk_eq (h : t.Leads place names target) : t.walk place names = .ok (.directory target) := by
  have hwalk := h.walk_append []
  rwa [List.append_nil] at hwalk

lemma filter_iff : t.Leads place (names.filter (· ≠ "")) target ↔ t.Leads place names target := by
  constructor
  · intro h
    induction names generalizing place with
    | nil => exact h
    | cons name names ih =>
      by_cases hn : name = ""
      · rw [List.filter_cons_of_neg (by simpa using hn)] at h
        exact .stay name (.inl hn) (ih h)
      · rw [List.filter_cons_of_pos (by simpa using hn)] at h
        cases h with
        | stay _ hn h => exact .stay _ hn (ih h)
        | up h => exact .up (ih h)
        | down hn he h => exact .down hn he (ih h)
  · intro h
    induction h with
    | here place => exact .here place
    | stay name hn h ih =>
      by_cases he : name = ""
      · rwa [List.filter_cons_of_neg (by simpa using he)]
      · rw [List.filter_cons_of_pos (by simpa using he)]
        exact .stay name hn ih
    | up h ih => exact .up ih
    | down hn he h ih =>
      rw [List.filter_cons_of_pos (by simpa using hn.ne_empty)]
      exact .down hn he ih

lemma insert_file (h : t.Leads place names target) {p : Place} (hfree : ∀ n, t.entry? p name ≠ some (.directory n))
    (content : ByteArray) : (t.insert p name (.file content)).Leads place names target := by
  induction h with
  | here place => exact .here place
  | stay name hn h ih => exact .stay name hn ih
  | up h ih => exact .up ih
  | @down place names target entry n hn he h ih =>
    refine .down hn ?_ ih
    rw [entry?_insert, if_neg, he]
    rintro ⟨hplace, rfl⟩
    exact hfree n ((t.entry?_congr hplace _).symm.trans he)

end Leads

structure Keeps (t : FileTree) (path : String) (place : Place) (name : String) : Prop where
  check : Path.check path = .ok ()
  names : ∃ init, Path.names path = init ++ [name] ∧ t.Leads (t.start path) init place
  plain : Plain name
  free : ∀ n, t.entry? place name ≠ some (.directory n)

lemma filter_names {init : List String} (h : name ≠ "") :
    (init ++ [name]).filter (· ≠ "") = init.filter (· ≠ "") ++ [name] := by
  rw [List.filter_append, List.filter_cons_of_pos (by simpa using h), List.filter_nil]

lemma Keeps.writeText_eq (h : t.Keeps path place name) (text : String) :
    t.writeText path text = .ok (t.insert place name (.file text.toUTF8)) := by
  obtain ⟨hcheck, ⟨init, hnames, hleads⟩, hplain, hfree⟩ := h
  have hslash : ¬path.endsWith "/" = true := by
    intro h
    obtain ⟨names, hn⟩ := Path.names_of_endsWith h
    rw [hnames] at hn
    exact hplain.ne_empty (List.singleton_inj.mp (List.append_inj_right' hn rfl))
  have hwalk := (Leads.filter_iff.mpr hleads).walk_eq
  simp only [writeText, hnames, filter_names hplain.ne_empty, List.dropLast_concat, List.getLast?_concat]
  refine bind_ok_iff.mpr ⟨(), hcheck, bind_ok_iff.mpr ⟨_, hwalk, ?_⟩⟩
  dsimp only
  split
  · next h => cases h
  · next h => exact absurd (Option.some.inj h) hplain.ne_dot
  · next h => exact absurd (Option.some.inj h) hplain.ne_dots
  · next h =>
    obtain rfl := Option.some.inj h
    refine (guard_ok_iff _ _ _ _).mpr ⟨hslash, (guard_ok_iff _ _ _ _).mpr ⟨Nat.not_lt.mpr hplain.size, ?_⟩⟩
    split
    · next n he => exact absurd he (hfree n)
    · rfl

lemma exists_keeps (h : t.writeText path text = .ok t') :
    ∃ place name, t.Keeps path place name ∧ t' = t.insert place name (.file text.toUTF8) := by
  rw [writeText] at h
  obtain ⟨u, hcheck, h⟩ := bind_ok_iff.mp h
  obtain ⟨found, hwalk, h⟩ := bind_ok_iff.mp h
  cases found with
  | file content => cases h
  | directory place =>
    dsimp only at h
    split at h
    · cases h
    · cases h
    · cases h
    · next name hdot hdots hlast =>
      obtain ⟨hslash, h⟩ := (guard_ok_iff _ _ _ _).mp h
      obtain ⟨hsize, h⟩ := (guard_ok_iff _ _ _ _).mp h
      split at h
      · cases h
      · next hfree =>
        obtain ⟨init, last, hnames⟩ := (List.eq_nil_or_concat' (Path.names path)).resolve_left
          (by simp [Path.names, List.splitOn_ne_nil])
        have hne : last ≠ "" := by
          rintro rfl
          exact (Path.endsWith_of_names hnames).elim (Path.check_eq_ok hcheck) hslash
        rw [hnames, filter_names hne] at hwalk hlast
        rw [List.dropLast_concat] at hwalk
        rw [List.getLast?_concat] at hlast
        obtain rfl := Option.some.inj hlast
        exact ⟨place, last, ⟨hcheck, ⟨init, hnames, Leads.filter_iff.mp (.of_walk hwalk)⟩,
          ⟨hne, hdot, hdots, Nat.le_of_not_lt hsize⟩, hfree⟩, (Except.ok.inj h).symm⟩

lemma Keeps.textAt_insert (h : t.Keeps path place name) (text : String) :
    (t.insert place name (.file text.toUTF8)).textAt path = .ok text := by
  obtain ⟨hcheck, ⟨init, hnames, hleads⟩, hplain, hfree⟩ := h
  have hentry : FileTree.entry? (t.insert place name (.file text.toUTF8)) place name =
      some (.file text.toUTF8) := by
    rw [entry?_insert, if_pos ⟨rfl, rfl⟩]
  have hwalk : (t.insert place name (.file text.toUTF8)).walk (t.start path) (Path.names path) =
      .ok (.file text.toUTF8) := by
    rw [hnames, (hleads.insert_file hfree _).walk_append, walk,
      if_neg (not_or.mpr ⟨hplain.ne_empty, hplain.ne_dot⟩), if_neg hplain.ne_dots,
      if_neg (Nat.not_lt.mpr hplain.size), hentry]
    rfl
  have htext : String.fromUTF8? text.toUTF8 = some text := dif_pos text.isValidUTF8
  refine bind_ok_iff.mpr ⟨(), hcheck, bind_ok_iff.mpr ⟨_, hwalk, ?_⟩⟩
  simp only [htext]
  rfl

end FileTree

end Woodland
