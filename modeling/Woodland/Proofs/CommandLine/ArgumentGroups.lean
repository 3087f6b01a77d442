import Mathlib.Tactic
import Woodland.Proofs.CommandLine.NumberTexts
import Woodland.Proofs.CommandLine.OptionOrder

/-!
The grammar of a command line: groups of an option and its value, up to the end, to a request for help or to the first
place where no group stands. Arguments are read exactly as the grammar has them, each of them once.
-/

namespace Woodland.CommandLine

open Decimal (NaturalText DoubleText natural?_eq_some_iff double?_eq_some_iff)

def Flag.spellings : Flag → List String
  | help => ["-h", "--help"]
  | valued .config => ["-c", "--config"]
  | valued .writeConfig => ["-w", "--write-config"]
  | valued .seed => ["--seed"]
  | valued .count => ["-n", "--count"]
  | valued .iterations => ["-i", "--iterations"]
  | valued .param => ["-p", "--param"]

inductive Reads : Key → String → Entry → Prop where
  | config (path : String) : Reads .config path (.config path)
  | writeConfig (path : String) : Reads .writeConfig path (.writeConfig path)
  | seed {text : String} {n : ℕ} (h : NaturalText n text.toList) (hn : n < 2 ^ 64) :
      Reads .seed text (.seed n.toUInt64)
  | count {text : String} {n : ℕ} (h : NaturalText n text.toList) (hn : n < 2 ^ 64) : Reads .count text (.count n)
  | iterations {text : String} {n : ℕ} (h : NaturalText n text.toList) (hn : n < 2 ^ 32) :
      Reads .iterations text (.iterations n)
  | param {name number : String} {x : Float} (hn : '=' ∉ name.toList) (hx : DoubleText x number.toList) :
      Reads .param (name ++ "=" ++ number) (.param name x)

inductive Rejects : Key → String → UsageFault → Prop where
  | seed {text : String} (h : ∀ n, NaturalText n text.toList → 2 ^ 64 ≤ n) : Rejects .seed text (.seed text)
  | count {text : String} (h : ∀ n, NaturalText n text.toList → 2 ^ 64 ≤ n) : Rejects .count text (.count text)
  | iterations {text : String} (h : ∀ n, NaturalText n text.toList → 2 ^ 32 ≤ n) :
      Rejects .iterations text (.iterations text)
  | notAPair {text : String} (h : '=' ∉ text.toList) : Rejects .param text (.notAPair text)
  | paramValue {name number : String} (hn : '=' ∉ name.toList) (hx : ∀ x, ¬DoubleText x number.toList) :
      Rejects .param (name ++ "=" ++ number) (.paramValue name number)

def Group.Tells (g : Group) (e : Entry) : Prop := ∃ k, g.1 ∈ (Flag.valued k).spellings ∧ Reads k g.2 e

inductive Faulty : List String → UsageFault → Prop where
  | unknown {name : String} {rest : List String} (h : ∀ flag : Flag, name ∉ flag.spellings) :
      Faulty (name :: rest) (.unknownOption name)
  | missing {name : String} {k : Key} (h : name ∈ (Flag.valued k).spellings) : Faulty [name] (.missingValue name)
  | rejected {name text : String} {rest : List String} {k : Key} {fault : UsageFault}
      (h : name ∈ (Flag.valued k).spellings) (hr : Rejects k text fault) : Faulty (name :: text :: rest) fault

/-- What entries leave: the last one of each kind, and all parameters in their order. -/
def Options.ofEntries (es : List Entry) : Options where
  config := (es.filterMap fun | .config path => some path | _ => none).getLast?
  writeConfig := (es.filterMap fun | .writeConfig path => some path | _ => none).getLast?
  seed := (es.filterMap fun | .seed seed => some seed | _ => none).getLast?
  count := (es.filterMap fun | .count n => some n | _ => none).getLast?
  iterations := (es.filterMap fun | .iterations n => some n | _ => none).getLast?
  params := es.filterMap fun | .param name x => some (name, x) | _ => none

inductive Parse : List String → Except UsageFault Request → Prop where
  | run {gs : List Group} {es : List Entry} (h : List.Forall₂ Group.Tells gs es) :
      Parse (arguments gs) (.ok (.run (.ofEntries es)))
  | help {gs : List Group} {es : List Entry} {name : String} (h : List.Forall₂ Group.Tells gs es)
      (hn : name ∈ Flag.help.spellings) (rest : List String) : Parse (arguments gs ++ name :: rest) (.ok .help)
  | fault {gs : List Group} {es : List Entry} {rest : List String} {fault : UsageFault}
      (h : List.Forall₂ Group.Tells gs es) (hf : Faulty rest fault) : Parse (arguments gs ++ rest) (.error fault)

lemma Flag.ofName?_eq_some_iff {name : String} {flag : Flag} : ofName? name = some flag ↔ name ∈ flag.spellings := by
  constructor
  · intro h
    rw [ofName?.eq_def] at h
    split at h
    all_goals cases h
    all_goals decide
  · intro h
    rcases flag with _ | k
    · fin_cases h <;> rfl
    · cases k <;> fin_cases h <;> rfl

lemma Flag.ofName?_eq_none_iff {name : String} : ofName? name = none ↔ ∀ flag : Flag, name ∉ flag.spellings := by
  simp only [Option.eq_none_iff_forall_ne_some, ne_eq, ofName?_eq_some_iff]

variable {k : Key} {name number text : String} {e : Entry} {fault : UsageFault} {bound : ℕ}

lemma natural?_eq_none_iff {text : List Char} :
    Decimal.natural? bound text = none ↔ ∀ n, NaturalText n text → bound ≤ n := by
  simp only [Option.eq_none_iff_forall_ne_some, ne_eq, natural?_eq_some_iff, not_and, not_lt]

lemma double?_eq_none_iff {text : List Char} : Decimal.double? text = none ↔ ∀ x, ¬DoubleText x text := by
  simp only [Option.eq_none_iff_forall_ne_some, ne_eq, double?_eq_some_iff]

lemma param_of_not_mem (h : '=' ∉ text.toList) : param text = .error (.notAPair text) := by
  rw [param, List.span_eq_takeWhile_dropWhile, List.dropWhile_eq_nil_iff.mpr (ne_of_not_mem h)]

lemma span_pair (h : '=' ∉ name.toList) (number : String) :
    (name ++ "=" ++ number).toList.span (· ≠ '=') = (name.toList, '=' :: number.toList) := by
  rw [String.toList_append, String.toList_append, List.append_assoc, List.span_eq_takeWhile_dropWhile,
    List.takeWhile_append_of_pos (ne_of_not_mem h), List.dropWhile_append_of_pos (ne_of_not_mem h)]
  simp

lemma exists_pair (h : '=' ∈ text.toList) : ∃ name number, '=' ∉ String.toList name ∧ text = name ++ "=" ++ number := by
  obtain ⟨cs, ds, ht, hc⟩ := List.eq_append_cons_of_mem h
  refine ⟨String.ofList cs, String.ofList ds, by rwa [String.toList_ofList], String.toList_inj.mp ?_⟩
  simp [ht]

lemma read_of_reads (h : Reads k text e) : Entry.read k text = .ok e := by
  cases h with
  | config | writeConfig => rfl
  | @seed text n h hn | @count text n h hn =>
    have hs : Decimal.natural? Json.wordBound text.toList = some n := natural?_eq_some_iff.mpr ⟨h, hn⟩
    rw [Entry.read, hs]
  | @iterations text n h hn =>
    have hs : Decimal.natural? Shape.iterationBound text.toList = some n := natural?_eq_some_iff.mpr ⟨h, hn⟩
    rw [Entry.read, hs]
  | param hn hx =>
    simp only [Entry.read, param, span_pair hn, double?_eq_some_iff.mpr hx, String.ofList_toList]
    rfl

lemma read_of_rejects (h : Rejects k text fault) : Entry.read k text = .error fault := by
  cases h with
  | seed h | count h =>
    have hs : Decimal.natural? Json.wordBound text.toList = none := natural?_eq_none_iff.mpr h
    rw [Entry.read, hs]
  | iterations h =>
    have hs : Decimal.natural? Shape.iterationBound text.toList = none := natural?_eq_none_iff.mpr h
    rw [Entry.read, hs]
  | notAPair h =>
    rw [Entry.read, param_of_not_mem h]
    rfl
  | paramValue hn hx =>
    simp only [Entry.read, param, span_pair hn, double?_eq_none_iff.mpr hx, String.ofList_toList]
    rfl

lemma natural_or_not (bound : ℕ) (text : List Char) :
    (∃ n, NaturalText n text ∧ n < bound) ∨ ∀ n, NaturalText n text → bound ≤ n := by
  by_cases h : ∃ n, NaturalText n text ∧ n < bound
  · exact .inl h
  · exact .inr fun n hn => not_lt.mp fun hlt => h ⟨n, hn, hlt⟩

lemma reads_or_rejects (k : Key) (text : String) : (∃ e, Reads k text e) ∨ ∃ fault, Rejects k text fault := by
  cases k with
  | config => exact .inl ⟨_, .config text⟩
  | writeConfig => exact .inl ⟨_, .writeConfig text⟩
  | seed => exact (natural_or_not _ _).imp (fun ⟨_, h, hn⟩ => ⟨_, .seed h hn⟩) fun h => ⟨_, .seed h⟩
  | count => exact (natural_or_not _ _).imp (fun ⟨_, h, hn⟩ => ⟨_, .count h hn⟩) fun h => ⟨_, .count h⟩
  | iterations => exact (natural_or_not _ _).imp (fun ⟨_, h, hn⟩ => ⟨_, .iterations h hn⟩) fun h => ⟨_, .iterations h⟩
  | param =>
    by_cases h : '=' ∈ text.toList
    · obtain ⟨name, number, hn, rfl⟩ := exists_pair h
      by_cases hx : ∃ x, DoubleText x number.toList
      · obtain ⟨x, hx⟩ := hx
        exact .inl ⟨_, .param hn hx⟩
      · exact .inr ⟨_, .paramValue hn (not_exists.mp hx)⟩
    · exact .inr ⟨_, .notAPair h⟩

variable {gs : List Group} {es : List Entry} {rest : List String} (o : Options)

lemma read_append (h : List.Forall₂ Group.Tells gs es) (rest : List String) :
    o.read (arguments gs ++ rest) = (es.foldl Options.enter o).read rest := by
  induction h generalizing o with
  | nil => rfl
  | @cons g e gs es hg _ ih =>
    obtain ⟨k, hk, he⟩ := hg
    have ha : arguments (g :: gs) ++ rest = g.1 :: g.2 :: (arguments gs ++ rest) := rfl
    rw [ha, Options.read, Flag.ofName?_eq_some_iff.mpr hk]
    simp only [give_eq, read_of_reads he]
    exact ih _

lemma read_help (h : name ∈ Flag.help.spellings) (rest : List String) : o.read (name :: rest) = .ok .help := by
  cases rest <;> rw [Options.read, Flag.ofName?_eq_some_iff.mpr h]

lemma read_of_faulty (h : Faulty rest fault) : o.read rest = .error fault := by
  cases h with
  | @unknown name rest h => cases rest <;> rw [Options.read, Flag.ofName?_eq_none_iff.mpr h]
  | missing h => rw [Options.read, Flag.ofName?_eq_some_iff.mpr h]
  | rejected h hr =>
    rw [Options.read, Flag.ofName?_eq_some_iff.mpr h]
    simp only [give_eq, read_of_rejects hr]
    rfl

namespace Options

lemma ofEntries_concat (es : List Entry) (e : Entry) : ofEntries (es ++ [e]) = (ofEntries es).enter e := by
  cases e <;> simp [ofEntries, enter]

lemma foldl_enter (es : List Entry) : es.foldl enter {} = ofEntries es := by
  induction es using List.reverseRecOn with
  | nil => rfl
  | append_singleton es e ih => rw [List.foldl_concat, ih, ofEntries_concat]

end Options

variable {r : Except UsageFault Request}

lemma ofArguments_of_parse {as : List String} (h : Parse as r) : Request.ofArguments as = r := by
  cases h with
  | @run gs es h =>
    rw [Request.ofArguments, ← List.append_nil (arguments gs), read_append {} h, Options.read, Options.foldl_enter]
  | help h hn rest => rw [Request.ofArguments, read_append {} h, read_help _ hn]
  | fault h hf => rw [Request.ofArguments, read_append {} h, read_of_faulty _ hf]

lemma Parse.cons {g : Group} (hg : g.Tells e) (h : Parse rest r) : ∃ r', Parse (g.1 :: g.2 :: rest) r' := by
  cases h with
  | run h => exact ⟨_, .run (.cons hg h)⟩
  | help h hn rest => exact ⟨_, .help (.cons hg h) hn rest⟩
  | fault h hf => exact ⟨_, .fault (.cons hg h) hf⟩

lemma exists_parse : ∀ as : List String, ∃ r, Parse as r
  | [] => ⟨_, .run .nil⟩
  | name :: rest => by
    cases hf : Flag.ofName? name with
    | none => exact ⟨_, .fault .nil (.unknown (Flag.ofName?_eq_none_iff.mp hf))⟩
    | some flag =>
      have hn := Flag.ofName?_eq_some_iff.mp hf
      cases flag with
      | help => exact ⟨_, .help .nil hn rest⟩
      | valued k =>
        cases rest with
        | nil => exact ⟨_, .fault .nil (.missing hn)⟩
        | cons text rest =>
          obtain ⟨e, he⟩ | ⟨fault, hr⟩ := reads_or_rejects k text
          · obtain ⟨r, h⟩ := exists_parse rest
            exact h.cons (g := (name, text)) ⟨k, hn, he⟩
          · exact ⟨_, .fault .nil (.rejected hn hr)⟩

theorem ofArguments_eq_iff_parse {m : Type → Type} [Monad m] [FileAccess m] [LawfulMonad m] (as : List String) :
    (∀ r, Request.ofArguments as = r ↔ Parse as r) ∧
      (Parse as (.ok .help) → run (m := m) as = pure ⟨0, [], usage⟩) ∧
      ∀ fault, Parse as (.error fault) →
        run (m := m) as = pure ⟨1, [], ["Error: " ++ fault.message, ""] ++ usage⟩ := by
  refine ⟨fun r => ⟨fun h => ?_, ofArguments_of_parse⟩, fun h => ?_, fun fault h => ?_⟩
  · obtain ⟨r', h'⟩ := exists_parse as
    obtain rfl := (ofArguments_of_parse h').symm.trans h
    exact h'
  · simp only [run, prepare, ofArguments_of_parse h, pure_bind]
  · simp only [run, prepare, ofArguments_of_parse h, pure_bind]

theorem ofArguments_eq_iff_parse_help :
    let as := ["-w", "--help", "-n", "+7", "-p", "taper=0.5", "-n", "8"]
    let bs := as ++ ["-h", "--seed"]
    let cs := ["-c", "-n", "--seed", "-h"]
    (∃ x, Parse as (.ok (.run ⟨none, some "--help", none, some 8, none, [("taper", x)]⟩))) ∧
      Parse bs (.ok .help) ∧ run (m := StateM FileTree) bs = pure ⟨0, [], usage⟩ ∧
      Parse cs (.error (.seed "-h")) ∧
      run (m := StateM FileTree) cs = pure ⟨1, [], ["Error: Invalid seed: -h", ""] ++ usage⟩ := by
  intro as bs cs
  obtain ⟨has, -, -⟩ := ofArguments_eq_iff_parse (m := StateM FileTree) as
  obtain ⟨hbs, hhelp, -⟩ := ofArguments_eq_iff_parse (m := StateM FileTree) bs
  obtain ⟨hcs, -, hfault⟩ := ofArguments_eq_iff_parse (m := StateM FileTree) cs
  have hb : Parse bs (.ok .help) := (hbs _).mp rfl
  have hc : Parse cs (.error (.seed "-h")) := (hcs _).mp rfl
  exact ⟨⟨_, (has _).mp rfl⟩, hb, hhelp hb, hc, hfault _ hc⟩

end Woodland.CommandLine
