import Mathlib.Tactic
import Woodland.Proofs.CommandLine.OptionOrder
import Woodland.Proofs.Frames.Rendering
import Woodland.Proofs.Planting.Faults
import Woodland.Proofs.Planting.Soundness

/-!
Whole runs of the program. Settings that pass the command line never refuse a forest, and what a run tells of its
forest at the end fits together.
-/

namespace Woodland

namespace Species

lemma sum_counts (ts : List Tree) : (all.map fun s => ts.countP (·.species = s)).sum = ts.length := by
  induction ts with
  | nil => rfl
  | cons t ts ih =>
    simp only [all, List.map_cons, List.map_nil, List.sum_cons, List.sum_nil, List.countP_cons,
      List.length_cons] at ih ⊢
    cases t.species <;> simp <;> omega

end Species

namespace Forest

variable {f : Forest} {s : Settings}

lemma size_batch_render (f : Forest) (c : Camera) (b : InstanceBatch) (m : Mesh) :
    ((f.render c b).value.batch m).size = f.meshes.count m := by
  rw [batch_render, Array.size_map, ← Array.length_toList, Array.toList_filter, Instruction.length_filter_mesh, meshes]

lemma generate_ne_refused (h : s.validate = .ok ()) (e : Error) : (generate s).run.value ≠ .error (.refused e) := by
  rw [value_generate, h]
  cases planted s (.ofSeed s.seed) <;> rintro ⟨⟩

end Forest

namespace CommandLine

/-- The last lines of a run, where no word of a tree was cut short. -/
def tally (counts : Species → ℕ) (placed target branches leaves : ℕ) : List String :=
  ["Trees by preset:",
    s!"  simple3d   {counts .simple3d}",
    s!"  minimal3d  {counts .minimal3d}",
    s!"  basic3d    {counts .basic3d}",
    "",
    "Summary:",
    s!"  Trees placed: {placed} of {target}",
    s!"  Branch instances: {branches}",
    s!"  Leaf instances: {leaves}",
    s!"  Instance upload: {96 * (1 + branches + leaves) / 1024} KiB"]

lemma byteCount_render (f : Forest) :
    let batch := (f.render default InstanceBatch.empty).value
    batch.byteCount .branch + batch.byteCount .leaf + batch.byteCount .ground =
      96 * (1 + f.meshes.count .branch + f.meshes.count .leaf) := by
  simp only [InstanceBatch.byteCount, Forest.size_batch_render, Forest.count_ground_meshes, Instance.size]
  omega

lemma closing_of_sound {f : Forest} (hf : f.Sound) :
    closing f = tally (fun s => f.trees.countP (·.species = s)) f.trees.length f.settings.targetCount
      (f.meshes.count .branch) (f.meshes.count .leaf) := by
  have hclosing : closing f = (Summary.ofForest f (f.render default FrameCount.empty).value
    (f.render default InstanceBatch.empty).value).lines := rfl
  have hwhole : f.trees.countP (·.expansion.truncated) = 0 := by
    rw [List.countP_eq_zero]
    intro t ht
    simp [(hf.grown t ht).whole]
  -- names are filled up to ten columns, which are part of the texts here
  have hcolumn (s : Species) (n : ℕ) :
      "  " ++ Summary.padded 10 s.name ++ s!" {n}" = "  " ++ Summary.padded 10 s.name ++ " " ++ toString n :=
    String.append_assoc.symm
  have hsimple : "  " ++ Summary.padded 10 Species.simple3d.name ++ " " = "  simple3d   " := by decide +kernel
  have hminimal : "  " ++ Summary.padded 10 Species.minimal3d.name ++ " " = "  minimal3d  " := by decide +kernel
  have hbasic : "  " ++ Summary.padded 10 Species.basic3d.name ++ " " = "  basic3d    " := by decide +kernel
  rw [hclosing, Summary.ofForest, byteCount_render, hwhole, Forest.value_render_frameCount]
  simp only [Summary.lines, lt_irrefl, if_false, List.append_nil, Species.all, List.map_cons, List.map_nil, hcolumn,
    hsimple, hminimal, hbasic]
  rfl

end CommandLine

namespace FileTree

variable {α β : Type}

def result (t : FileTree) (x : StateM FileTree α) : α := (StateT.run x t).1

def after (t : FileTree) (x : StateM FileTree α) : FileTree := (StateT.run x t).2

lemma result_bind (t : FileTree) (x : StateM FileTree α) (k : α → StateM FileTree β) :
    t.result (x >>= k) = (t.after x).result (k (t.result x)) := rfl

@[simp] lemma result_pure (t : FileTree) (a : α) : t.result (pure a) = a := rfl

end FileTree

namespace CommandLine

variable {arguments : List String} {t : FileTree} {o : Options} {s : Settings} {written : Option String}

lemma validate_of_overlay {r : Settings} (h : o.overlay s = .ok r) : r.validate = .ok () := by
  obtain ⟨-, -, -, hv⟩ := Options.overlay_ok_iff.mp h
  exact hv

lemma result_settings (o : Options) (t : FileTree) :
    t.result o.settings = match o.config with
      | none => o.overlay default
      | some path => (t.result (Settings.load path)).bind o.overlay := by
  rw [Options.settings]
  cases o.config <;> rfl

lemma validate_of_settings (h : t.result o.settings = .ok s) : s.validate = .ok () := by
  rw [result_settings] at h
  split at h
  · exact validate_of_overlay h
  · obtain ⟨_, -, hs⟩ := bind_ok_iff.mp h
    exact validate_of_overlay hs

lemma effective_eq_some_iff : t.result (effective arguments) = some (s, written) ↔
    ∃ o, Request.ofArguments arguments = .ok (.run o) ∧ t.result o.settings = .ok s ∧ o.writeConfig = written := by
  rw [effective]
  cases Request.ofArguments arguments with
  | error fault => exact iff_of_false (by rintro ⟨⟩) (by rintro ⟨_, ⟨⟩, -⟩)
  | ok r =>
    cases r with
    | help => exact iff_of_false (by rintro ⟨⟩) (by rintro ⟨_, ⟨⟩, -⟩)
    | run o =>
      rw [FileTree.result_bind, FileTree.result_pure]
      cases hs : t.result o.settings with
      | error e => simp [Except.toOption, hs]
      | ok s' => simp [Except.toOption, hs]

lemma validate_of_effective (h : t.result (effective arguments) = some (s, written)) : s.validate = .ok () := by
  obtain ⟨o, -, hs, -⟩ := effective_eq_some_iff.mp h
  exact validate_of_settings hs

def announced (written : Option String) : List String :=
  written.toList.map fun path => "Wrote configuration to " ++ path

lemma announced_of_writeSettings {lines : List String} (h : t.result (o.writeSettings s) = .ok lines) :
    lines = announced o.writeConfig := by
  rw [Options.writeSettings] at h
  cases hw : o.writeConfig with
  | none =>
    rw [hw] at h
    exact (Except.ok.inj h).symm
  | some path =>
    rw [hw] at h
    obtain ⟨-, -, rfl⟩ := map_ok_iff.mp h
    rfl

lemma writeConfig_of_error {e : Error} (h : t.result (o.writeSettings s) = .error e) :
    ∃ path, o.writeConfig = some path := by
  rw [Options.writeSettings] at h
  cases hw : o.writeConfig with
  | none =>
    rw [hw] at h
    cases h
  | some path => exact ⟨path, rfl⟩

/-- How a run can end on some files: what it prints and what that comes from. -/
inductive Ending (arguments : List String) (t : FileTree) : Report → Prop where
  | misused {fault : UsageFault} (h : Request.ofArguments arguments = .error fault) :
      Ending arguments t ⟨1, [], ["Error: " ++ fault.message, ""] ++ usage⟩
  | helped (h : Request.ofArguments arguments = .ok .help) : Ending arguments t ⟨0, [], usage⟩
  | refused {o : Options} {e : Error} (h : Request.ofArguments arguments = .ok (.run o))
      (hs : t.result o.settings = .error e) : Ending arguments t ⟨1, [], ["Error: " ++ e.message]⟩
  | unwritten {s : Settings} {path : String} {e : Error} (h : t.result (effective arguments) = some (s, some path)) :
      Ending arguments t ⟨1, [], ["Error writing config: " ++ e.message]⟩
  | prepared {s : Settings} {written : Option String} (h : t.result (effective arguments) = some (s, written)) :
      Ending arguments t (Preparation.finish ⟨s, announced written ++ heading s⟩)

lemma ending_run (arguments : List String) (t : FileTree) : Ending arguments t (t.result (run arguments)) := by
  rw [run, prepare]
  cases hr : Request.ofArguments arguments with
  | error fault => exact .misused hr
  | ok r =>
    cases r with
    | help => exact .helped hr
    | run o =>
      simp only [bind_assoc, FileTree.result_bind]
      cases hs : t.result o.settings with
      | error e => exact .refused hr hs
      | ok s =>
        have he := effective_eq_some_iff.mpr ⟨o, hr, hs, rfl⟩
        simp only [FileTree.result_bind]
        cases hw : (t.after o.settings).result (o.writeSettings s) with
        | error e =>
          obtain ⟨path, hp⟩ := writeConfig_of_error hw
          exact .unwritten (hp ▸ he)
        | ok lines =>
          obtain rfl := announced_of_writeSettings hw
          exact .prepared he

lemma finish_cases (h : s.validate = .ok ()) (before : List String) :
    Preparation.finish ⟨s, before⟩ = ⟨101, before, ["The plot is too wide to place trees on"]⟩ ∨
      ∃ f, (Forest.generate s).run.value = .ok f ∧ Preparation.finish ⟨s, before⟩ = ⟨0, before ++ closing f, []⟩ := by
  rw [Preparation.finish, Preparation.forest]
  cases hg : (Forest.generate s).run.value with
  | ok f => exact .inr ⟨f, rfl, rfl⟩
  | error fault =>
    cases fault with
    | refused e => exact absurd hg (Forest.generate_ne_refused h e)
    | range _ =>
      exact .inl (congrArg (Report.mk 101 · ["The plot is too wide to place trees on"]) (List.append_nil before))

def Opens (text line : String) : Prop := text.toList <+: line.toList

instance (text line : String) : Decidable (Opens text line) :=
  inferInstanceAs (Decidable (text.toList <+: line.toList))

lemma not_opens_append {text opening : String} (h : ¬Opens text opening ∧ ¬Opens opening text) (rest : String) :
    ¬Opens text (opening ++ rest) := by
  intro ht
  have ho : opening.toList <+: (opening ++ rest).toList := by
    rw [String.toList_append]
    exact List.prefix_append _ _
  exact (List.prefix_or_prefix_of_prefix ht ho).elim h.1 h.2

lemma not_opens_summary_announced (written : Option String) : ∀ line ∈ announced written, ¬Opens "Summary:" line := by
  rintro line h
  obtain ⟨path, -, rfl⟩ := List.mem_map.mp h
  exact not_opens_append (by decide) path

lemma not_opens_summary_heading (s : Settings) : ∀ line ∈ heading s, ¬Opens "Summary:" line := by
  simp only [heading, List.forall_mem_cons, String.append_assoc]
  exact ⟨by decide, by decide, not_opens_append (by decide) _, not_opens_append (by decide) _,
    not_opens_append (by decide) _, not_opens_append (by decide) _, by decide, List.forall_mem_nil _⟩

lemma not_opens_generating_usage : ∀ line ∈ usage, ¬Opens "Error generating forest" line := by decide +kernel

lemma not_opens_generating {report : Report} (h : Ending arguments t report) :
    ∀ line ∈ report.errors, ¬Opens "Error generating forest" line := by
  cases h with
  | misused h =>
    rw [List.forall_mem_append, List.forall_mem_cons]
    exact ⟨⟨not_opens_append (by decide) _, by decide⟩, not_opens_generating_usage⟩
  | helped h => exact not_opens_generating_usage
  | refused h hs => exact List.forall_mem_singleton.mpr (not_opens_append (by decide) _)
  | unwritten h => exact List.forall_mem_singleton.mpr (not_opens_append (by decide) _)
  | prepared h =>
    obtain hw | ⟨f, -, hf⟩ := finish_cases (validate_of_effective h) _
    · rw [hw]
      exact List.forall_mem_singleton.mpr (by decide)
    · rw [hf]
      exact List.forall_mem_nil _

lemma ending_with_summary {report : Report} (h : Ending arguments t report) (hm : "Summary:" ∈ report.output) :
    ∃ s written f, t.result (effective arguments) = some (s, written) ∧ (Forest.generate s).run.value = .ok f ∧
      report = ⟨0, announced written ++ heading s ++ closing f, []⟩ := by
  cases h with
  | misused h => cases hm
  | helped h => cases hm
  | refused h hs => cases hm
  | unwritten h => cases hm
  | @prepared s written h =>
    -- what is printed before the forest is there has no such line
    obtain hw | ⟨f, hg, hf⟩ := finish_cases (validate_of_effective h) (announced written ++ heading s)
    · rw [hw] at hm
      rcases List.mem_append.mp hm with hm | hm
      · exact absurd List.prefix_rfl (not_opens_summary_announced written _ hm)
      · exact absurd List.prefix_rfl (not_opens_summary_heading s _ hm)
    · exact ⟨s, written, f, h, hg, hf⟩

lemma finish_of_effective (h : t.result (effective arguments) = some (s, none)) :
    t.result (run arguments) = Preparation.finish ⟨s, heading s⟩ := by
  obtain ⟨o, ho, hs, -⟩ := effective_eq_some_iff.mp h
  have hend := ending_run arguments t
  generalize t.result (run arguments) = report at hend
  cases hend with
  | misused hr => cases ho.symm.trans hr
  | helped hr => cases ho.symm.trans hr
  | refused hr hs' =>
    obtain rfl := Request.run.inj (Except.ok.inj (ho.symm.trans hr))
    cases hs.symm.trans hs'
  | unwritten hw => cases h.symm.trans hw
  | prepared hp =>
    obtain ⟨rfl, rfl⟩ := Prod.mk.inj (Option.some.inj (h.symm.trans hp))
    rfl

theorem run_consistent (arguments : List String) (t : FileTree) :
    (∀ s written, t.result (effective arguments) = some (s, written) →
      s.validate = .ok () ∧ ∀ e, (Forest.generate s).run.value ≠ .error (.refused e)) ∧
    (∀ line ∈ (t.result (run arguments)).errors, ¬Opens "Error generating forest" line) ∧
    ("Summary:" ∈ (t.result (run arguments)).output → ∃ s written f,
      t.result (effective arguments) = some (s, written) ∧ (Forest.generate s).run.value = .ok f ∧
      let counts (species : Species) := f.trees.countP (·.species = species)
      t.result (run arguments) = ⟨0, announced written ++ heading s ++
        tally counts f.trees.length s.targetCount (f.meshes.count .branch) (f.meshes.count .leaf), []⟩ ∧
      (Species.all.map counts).sum = f.trees.length ∧ f.trees.length ≤ s.targetCount ∧ s.targetCount ≤ 300) := by
  refine ⟨fun s written h => ?_, not_opens_generating (ending_run arguments t), fun hm => ?_⟩
  · have hv := validate_of_effective h
    exact ⟨hv, Forest.generate_ne_refused hv⟩
  · obtain ⟨s, written, f, he, hg, hr⟩ := ending_with_summary (ending_run arguments t) hm
    have hf := Forest.sound_generate hg
    obtain rfl := Forest.settings_generate hg
    refine ⟨f.settings, written, f, he, hg, ?_, Species.sum_counts f.trees, hf.length_le, hf.target_le⟩
    rw [hr, closing_of_sound hf]

theorem run_consistent_longest :
    let t := FileTree.empty.insert [] "a.json" (.file "\x7b\"seed\": 7\x7d".toUTF8)
    let arguments := ["-n", "12", "-c", "a.json", "-p", "iterations=6"]
    "Summary:" ∈ (t.result (run arguments)).output ∧
      ∃ s f, t.result (effective arguments) = some (s, none) ∧ s.targetCount = 12 ∧ s.shape.iterations = 6 ∧
        (Forest.generate s).run.value = .ok f ∧
        t.result (run arguments) = ⟨0, heading s ++ tally (fun species => f.trees.countP (·.species = species))
          f.trees.length 12 (f.meshes.count .branch) (f.meshes.count .leaf), []⟩ := by
  intro t arguments
  let s : Settings := ⟨7, 12, 80.0, 10.0, 5.0, { (default : Shape Float32) with iterations := 6 }⟩
  have he : t.result (effective arguments) = some (s, none) := by decide +kernel
  obtain ⟨hall, -, hsummary⟩ := run_consistent arguments t
  obtain ⟨f, hf, -⟩ := Forest.exists_generate (hall s none he).1 (by decide +kernel)
  have hfinish : t.result (run arguments) = ⟨0, heading s ++ closing f, []⟩ := by
    rw [finish_of_effective he, Preparation.finish, Preparation.forest, hf]
    rfl
  have hm : "Summary:" ∈ (t.result (run arguments)).output := by
    rw [hfinish, closing_of_sound (Forest.sound_generate hf)]
    exact List.mem_append_right _ (by simp [tally])
  obtain ⟨s', written, f', he', hf', hr, -⟩ := hsummary hm
  obtain ⟨rfl, rfl⟩ := Prod.mk.inj (Option.some.inj (he.symm.trans he'))
  obtain rfl := Except.ok.inj (hf.symm.trans hf')
  exact ⟨hm, s, f, he, rfl, rfl, hf, hr⟩

end CommandLine

end Woodland
