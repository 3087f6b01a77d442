import Mathlib.Tactic
import Woodland.Document.SettingsFile
import Woodland.Proofs.Documents.Records
import Woodland.Proofs.Documents.SavedSettings
import Woodland.Proofs.Planting.ValidSettings

/-!
Files that list some of the settings, in any order and among members of other names. What is listed is laid over the
defaults.
-/

namespace Woodland

namespace Json

/-- What an object lists of a field: it is named once, with a value that is read, or not at all. -/
inductive Lists {α : Type} (Reads : Json → α → Prop) (ms : Members) (name : String) : Option α → Prop where
  | absent (h : some name ∉ ms.map Prod.fst) : Lists Reads ms name none
  | once {v : Json} {x : α} (hc : (ms.map Prod.fst).count (some name) = 1) (hm : (some name, v) ∈ ms)
      (hv : Reads v x) : Lists Reads ms name (some x)

namespace Lists

variable {α β : Type} {ms : Members} {name : String} {o : Option α}

lemma exists_given_map {Reads : Json → α → Prop} (h : Lists Reads ms name o) {read : Json → Option β} {f : α → β}
    (hread : ∀ v x, Reads v x → read v = some (f x)) (d : β) :
    ∃ v, member? ms name = some v ∧ given? read d v = some ((o.map f).getD d) := by
  cases h with
  | absent h => exact ⟨none, member?_of_not_mem h, rfl⟩
  | once hc hm hv => exact ⟨_, member?_of_count hc hm, hread _ _ hv⟩

lemma exists_given {read : Json → Option α} (h : Lists (read · = some ·) ms name o) (d : α) :
    ∃ v, member? ms name = some v ∧ given? read d v = some (o.getD d) := by
  obtain ⟨v, hm, hg⟩ := h.exists_given_map (fun _ _ hv => hv) d
  exact ⟨v, hm, by simpa using hg⟩

end Lists

end Json

open Json

namespace Shape

structure Overlay where
  iterations : Option ℕ
  angle : Option Float32
  length : Option Float32
  trunkScale : Option Float32
  taper : Option Float32
  branchScale : Option Float32
  leafDensity : Option Float32

namespace Overlay

def onto (o : Overlay) (s : Shape Float32) : Shape Float32 where
  iterations := o.iterations.getD s.iterations
  angle := o.angle.getD s.angle
  length := o.length.getD s.length
  trunkScale := o.trunkScale.getD s.trunkScale
  taper := o.taper.getD s.taper
  branchScale := o.branchScale.getD s.branchScale
  leafDensity := o.leafDensity.getD s.leafDensity

structure ListedIn (o : Overlay) (ms : Members) : Prop where
  texts : ∀ m ∈ ms, m.1.isSome
  iterations : Lists (natural? iterationBound · = some ·) ms "iterations" o.iterations
  angle : Lists (single? · = some ·) ms "angle" o.angle
  length : Lists (single? · = some ·) ms "length" o.length
  trunkScale : Lists (single? · = some ·) ms "trunk_scale" o.trunkScale
  taper : Lists (single? · = some ·) ms "taper" o.taper
  branchScale : Lists (single? · = some ·) ms "branch_scale" o.branchScale
  leafDensity : Lists (single? · = some ·) ms "leaf_density" o.leafDensity

variable {o : Overlay} {ms : Members}

lemma ListedIn.ofJson? (h : o.ListedIn ms) : ofJson? (.object ms) = some (o.onto default) := by
  obtain ⟨iterations, hm₁, hg₁⟩ := h.iterations.exists_given (default : Shape Float32).iterations
  obtain ⟨angle, hm₂, hg₂⟩ := h.angle.exists_given (default : Shape Float32).angle
  obtain ⟨length, hm₃, hg₃⟩ := h.length.exists_given (default : Shape Float32).length
  obtain ⟨trunkScale, hm₄, hg₄⟩ := h.trunkScale.exists_given (default : Shape Float32).trunkScale
  obtain ⟨taper, hm₅, hg₅⟩ := h.taper.exists_given (default : Shape Float32).taper
  obtain ⟨branchScale, hm₆, hg₆⟩ := h.branchScale.exists_given (default : Shape Float32).branchScale
  obtain ⟨leafDensity, hm₇, hg₇⟩ := h.leafDensity.exists_given (default : Shape Float32).leafDensity
  have hfields : fields? fieldNames (.object ms) =
      some [iterations, angle, length, trunkScale, taper, branchScale, leafDensity] := by
    rw [fields?_object h.texts]
    simp [fieldNames, Parameter.all, Parameter.name, hm₁, hm₂, hm₃, hm₄, hm₅, hm₆, hm₇]
  simp only [Shape.ofJson?, hfields, Option.bind_eq_bind, Option.bind_some, hg₁, hg₂, hg₃, hg₄, hg₅, hg₆, hg₇]
  rfl

end Overlay

end Shape

namespace Settings

structure Overlay where
  seed : Option UInt64
  targetCount : Option ℕ
  groundHalfSize : Option Float32
  minSeparation : Option Float32
  edgeMargin : Option Float32
  shape : Option Shape.Overlay

namespace Overlay

def onto (o : Overlay) (s : Settings) : Settings where
  seed := o.seed.getD s.seed
  targetCount := o.targetCount.getD s.targetCount
  groundHalfSize := o.groundHalfSize.getD s.groundHalfSize
  minSeparation := o.minSeparation.getD s.minSeparation
  edgeMargin := o.edgeMargin.getD s.edgeMargin
  shape := (o.shape.map (·.onto s.shape)).getD s.shape

structure ListedIn (o : Overlay) (ms : Members) : Prop where
  texts : ∀ m ∈ ms, m.1.isSome
  seed : Lists (fun v (n : UInt64) => natural? wordBound v = some n.toNat) ms "seed" o.seed
  targetCount : Lists (natural? wordBound · = some ·) ms "target_count" o.targetCount
  groundHalfSize : Lists (single? · = some ·) ms "ground_half_size" o.groundHalfSize
  minSeparation : Lists (single? · = some ·) ms "min_separation" o.minSeparation
  edgeMargin : Lists (single? · = some ·) ms "edge_margin" o.edgeMargin
  shape : Lists (fun v p => ∃ ts, v = .object ts ∧ p.ListedIn ts) ms "tree" o.shape

variable {o : Overlay} {ms : Members}

lemma ListedIn.ofJson? (h : o.ListedIn ms) : ofJson? (.object ms) = some (o.onto default) := by
  have hshape : ∀ v (p : Shape.Overlay), (∃ ts, v = .object ts ∧ p.ListedIn ts) →
      Shape.ofJson? v = some (p.onto (default : Settings).shape) := by
    rintro _ p ⟨ts, rfl, hp⟩
    exact hp.ofJson?
  obtain ⟨seed, hm₁, hg₁⟩ := h.seed.exists_given_map (fun _ _ h => h) (default : Settings).seed.toNat
  obtain ⟨targetCount, hm₂, hg₂⟩ := h.targetCount.exists_given (default : Settings).targetCount
  obtain ⟨groundHalfSize, hm₃, hg₃⟩ := h.groundHalfSize.exists_given (default : Settings).groundHalfSize
  obtain ⟨minSeparation, hm₄, hg₄⟩ := h.minSeparation.exists_given (default : Settings).minSeparation
  obtain ⟨edgeMargin, hm₅, hg₅⟩ := h.edgeMargin.exists_given (default : Settings).edgeMargin
  obtain ⟨shape, hm₆, hg₆⟩ := h.shape.exists_given_map hshape (default : Settings).shape
  have hseed : ((o.seed.map UInt64.toNat).getD (default : Settings).seed.toNat).toUInt64 =
      o.seed.getD (default : Settings).seed := by
    cases o.seed <;> simp
  have hfields : fields? fieldNames (.object ms) =
      some [seed, targetCount, groundHalfSize, minSeparation, edgeMargin, shape] := by
    rw [fields?_object h.texts]
    simp [fieldNames, hm₁, hm₂, hm₃, hm₄, hm₅, hm₆]
  simp only [Settings.ofJson?, hfields, Option.bind_eq_bind, Option.bind_some, hg₁, hg₂, hg₃, hg₄, hg₅, hg₆,
    hseed]
  rfl

end Overlay

/-- The same settings are listed in some order, and so are the proportions; members of other names may differ. -/
inductive SameFields : Members → Members → Prop where
  | fields {ms ms' : Members} (h : Json.SameFields fieldNames ms ms') : SameFields ms ms'
  | tree {ts ts' : Members} (h : Json.SameFields Shape.fieldNames ts ts') (ms : Members) :
      SameFields ((some "tree", .object ts) :: ms) ((some "tree", .object ts') :: ms)
  | symm {ms ms' : Members} (h : SameFields ms ms') : SameFields ms' ms
  | trans {ms ms' ms'' : Members} (h : SameFields ms ms') (h' : SameFields ms' ms'') : SameFields ms ms''

variable {ms ms' : Members}

lemma ofJson?_cons_tree {v w : Json} (h : Shape.ofJson? v = Shape.ofJson? w) (ms : Members) :
    ofJson? (.object ((some "tree", v) :: ms)) = ofJson? (.object ((some "tree", w) :: ms)) := by
  have hmember (u : Json) : member? ((some "tree", u) :: ms) "tree" =
      if ms.filter (·.1 = some "tree") = [] then some (some u) else none := by
    rw [member?, List.filter_cons_of_pos (by simp)]
    cases ms.filter (·.1 = some "tree") <;> rfl
  have hrest (u : Json) {name : String} (hn : some "tree" ≠ some name) :
      member? ((some "tree", u) :: ms) name = member? ms name := member?_cons_of_ne hn ms
  simp (disch := decide) only [ofJson?, fields?, fieldNames, List.all_cons, List.mapM_cons, List.mapM_nil, hmember,
    hrest]
  split_ifs
  · -- the tree is read last, and both fail where a field before it is named twice
    cases member? ms "seed"
    · rfl
    cases member? ms "target_count"
    · rfl
    cases member? ms "ground_half_size"
    · rfl
    cases member? ms "min_separation"
    · rfl
    cases member? ms "edge_margin"
    · rfl
    simp only [Option.bind_eq_bind, Option.bind_some, Option.pure_def, given?, h]
  · rfl
  · rfl

lemma SameFields.ofJson?_eq (h : SameFields ms ms') : ofJson? (.object ms) = ofJson? (.object ms') := by
  induction h with
  | fields h => simp only [ofJson?, h.fields?_eq]
  | tree h ms => exact ofJson?_cons_tree (by simp only [Shape.ofJson?, h.fields?_eq]) ms
  | symm _ ih => exact ih.symm
  | trans _ _ ih ih' => exact ih.trans ih'

def loadFrom (t : FileTree) (path : String) : Except Error Settings × FileTree :=
  StateT.run (load path : StateM FileTree (Except Error Settings)) t

lemma loadFrom_eq {t : FileTree} {path text : String} (hfile : t.textAt path = .ok text)
    (htext : (Json.object ms).WrittenAs text) :
    loadFrom t path = ((ofJson? (.object ms)).elim (.error .json) fun s => s.validate.map fun _ => s, t) := by
  rw [loadFrom, run_load, hfile]
  simp only [ofText, htext.read?, Option.bind_some]
  cases ofJson? (.object ms) with
  | none => rfl
  | some s =>
    cases hv : s.validate with
    | ok _ | error e =>
      simp only [hv, Option.elim_some]
      rfl

theorem load_overlay {t : FileTree} {path text : String} (hfile : t.textAt path = .ok text)
    (htext : (Json.object ms).WrittenAs text) :
    (∀ o : Overlay, o.ListedIn ms →
      ((o.onto default).validate = .ok () → loadFrom t path = (.ok (o.onto default), t)) ∧
      ∀ e, (o.onto default).validate = .error e → (∃ r, e = .invalid r) ∧ loadFrom t path = (.error e, t)) ∧
    ∀ (t' : FileTree) (path' text' : String) (ms' : Members), t'.textAt path' = .ok text' →
      (Json.object ms').WrittenAs text' → SameFields ms ms' → (loadFrom t path).1 = (loadFrom t' path').1 := by
  refine ⟨fun o ho => ?_, fun t' path' text' ms' hfile' htext' hsame => ?_⟩
  · have hload : loadFrom t path = ((o.onto default).validate.map fun _ => o.onto default, t) := by
      rw [loadFrom_eq hfile htext, ho.ofJson?]
      rfl
    refine ⟨fun hv => ?_, fun e he => ⟨exists_refusal he, ?_⟩⟩
    · rw [hload, hv]
      rfl
    · rw [hload, he]
      rfl
  · rw [loadFrom_eq hfile htext, loadFrom_eq hfile' htext', hsame.ofJson?_eq]

theorem load_overlay_reordered :
    let half : Json := .number ⟨false, [0], [5], none⟩
    let ts : Members := [(some "angle", half), (some "bark", .null), (some "iterations", .ofNat 2)]
    let ts' : Members := [(some "iterations", .ofNat 2), (some "angle", half)]
    let ms : Members := [(some "moss", .array [.null]), (some "tree", .object ts), (some "ground_half_size", .ofNat 6),
      (some "target_count", .ofNat 12)]
    let ms' : Members := [(some "target_count", .ofNat 12), (some "tree", .object ts'),
      (some "ground_half_size", .ofNat 6)]
    let file (ms : Members) : FileTree :=
      FileTree.empty.insert [] "forest.json" (.file (Json.object ms).pretty.toUTF8)
    let o : Overlay := ⟨none, some 12, some 6, none, none, some ⟨some 2, some 0.5, none, none, none, none, none⟩⟩
    (file ms).textAt "forest.json" = .ok (Json.object ms).pretty ∧
      (Json.object ms).WrittenAs (Json.object ms).pretty ∧ o.ListedIn ms ∧ (o.onto default).validate = .ok () ∧
      loadFrom (file ms) "forest.json" = (.ok (o.onto default), file ms) ∧
      SameFields ms ms' ∧ (loadFrom (file ms) "forest.json").1 = (loadFrom (file ms') "forest.json").1 := by
  intro half ts ts' ms ms' file o
  have hnames : Path.names "forest.json" = [] ++ ["forest.json"] := by decide +kernel
  have hkeeps : FileTree.empty.Keeps "forest.json" [] "forest.json" := {
    check := rfl
    names := ⟨[], hnames, .here _⟩
    plain := ⟨by decide, by decide, by decide, by decide⟩
    free := nofun }
  have hnat (n : ℕ) : (Json.ofNat n).WellFormed := wellFormed_ofNat n
  have hhalf : half.WellFormed := .number ⟨⟨.zero, [], rfl, fun _ => rfl⟩, nofun⟩
  have hts : (Json.object ts).WellFormed := .object <| by
    simp only [ts, List.forall_mem_cons]
    exact ⟨hhalf, .null, hnat 2, List.forall_mem_nil _⟩
  have hts' : (Json.object ts').WellFormed := .object <| by
    simp only [ts', List.forall_mem_cons]
    exact ⟨hnat 2, hhalf, List.forall_mem_nil _⟩
  have hms : (Json.object ms).WellFormed := .object <| by
    simp only [ms, List.forall_mem_cons]
    exact ⟨.array (by simpa using .null), hts, hnat 6, hnat 12, List.forall_mem_nil _⟩
  have hms' : (Json.object ms').WellFormed := .object <| by
    simp only [ms', List.forall_mem_cons]
    exact ⟨hnat 12, hts', hnat 6, List.forall_mem_nil _⟩
  have htree : Shape.Overlay.ListedIn ⟨some 2, some 0.5, none, none, none, none, none⟩ ts := {
    texts := by decide
    iterations := .once (by decide) (by simp [ts]) (by decide +kernel : natural? _ (.ofNat 2) = some 2)
    angle := .once (by decide) (by simp [ts]) (by decide +kernel : single? half = some 0.5)
    length := .absent (by decide)
    trunkScale := .absent (by decide)
    taper := .absent (by decide)
    branchScale := .absent (by decide)
    leafDensity := .absent (by decide) }
  have ho : o.ListedIn ms := {
    texts := by decide
    seed := .absent (by decide)
    targetCount := .once (by decide) (by simp [ms]) (by decide +kernel : natural? _ (.ofNat 12) = some 12)
    groundHalfSize := .once (by decide) (by simp [ms]) (by decide +kernel : single? (.ofNat 6) = some 6)
    minSeparation := .absent (by decide)
    edgeMargin := .absent (by decide)
    shape := .once (by decide) (by simp [ms]) ⟨ts, rfl, htree⟩ }
  have hv : (o.onto default).validate = .ok () := by
    have hshape : Shape.validate ⟨2, 0.5, 1.7, 3.5, 0.12, 0.35, 0.9⟩ = .ok () := rfl
    exact (validate_eq_ok_iff _).mpr ⟨by decide, by decide +kernel, by decide +kernel, by decide +kernel,
      by decide +kernel, hshape⟩
  have hsame : SameFields ms ms' := by
    have hts : Json.SameFields Shape.fieldNames ts ts' :=
      .trans (.perm (List.perm_append_singleton _ [_, _]).symm) (.unknown (by decide) _ _)
    have hperm : SameFields ((some "tree", .object ts') :: ms.drop 2) ms' :=
      .fields (.perm (List.perm_append_singleton _ [_, _]))
    exact .trans (.fields (.unknown (by decide) _ _)) (.trans (.tree hts _) hperm)
  have hfile := hkeeps.textAt_insert (Json.object ms).pretty
  have hfile' := hkeeps.textAt_insert (Json.object ms').pretty
  have htext := writtenAs_pretty hms
  obtain ⟨hload, hlike⟩ := load_overlay hfile htext
  exact ⟨hfile, htext, ho, hv, (hload o ho).1 hv, hsame, hlike _ _ _ ms' hfile' (writtenAs_pretty hms') hsame⟩

end Settings

end Woodland
