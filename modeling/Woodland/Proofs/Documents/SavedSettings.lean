import Mathlib.Tactic
import Woodland.Document.SettingsFile
import Woodland.Proofs.Documents.SettingsDocuments
import Woodland.Proofs.Files.Contents

/-! Accepted settings that are saved to a file are loaded from it unchanged. -/

namespace Woodland

namespace FileTree

variable {t t' : FileTree} {path : String}

def withParent (t : FileTree) (path : String) : Except FileFault Unit × FileTree :=
  match Path.parent? path with
  | some directory => t.makeDirectories directory
  | none => (.ok (), t)

/-- Some text can be put into a file at the path, whose directory may have to be made. -/
def Writable (t : FileTree) (path : String) : Prop :=
  ∃ t₁, t.withParent path = (.ok (), t₁) ∧ ∃ text t₂, t₁.writeText path text = .ok t₂

end FileTree

namespace Settings

variable {s : Settings} {t t₁ : FileTree} {path : String}

lemma run_save (s : Settings) (h : t.withParent path = (.ok (), t₁)) :
    StateT.run (s.save path : StateM FileTree (Except Error Unit)) t =
      ((t₁.write path s.text).1.mapError .file, (t₁.write path s.text).2) := by
  rw [FileTree.withParent] at h
  simp only [save]
  cases hparent : Path.parent? path with
  | none =>
    simp only [hparent] at h
    obtain rfl := (Prod.mk.inj h).2
    rfl
  | some directory =>
    simp only [hparent] at h
    have hmake : StateT.run (FileAccess.createDirectories directory : StateM FileTree (Except FileFault Unit)) t =
      (.ok (), t₁) := h
    simp only [StateT.run_bind, hmake]
    rfl

lemma run_load (t : FileTree) (path : String) :
    StateT.run (load path : StateM FileTree (Except Error Settings)) t =
      (match t.textAt path with
        | .error fault => .error (.file fault)
        | .ok text => ofText text, t) := by
  have hread : StateT.run (FileAccess.read path : StateM FileTree (Except FileFault String)) t =
    (t.textAt path, t) := rfl
  rw [load, StateT.run_bind, hread]
  cases t.textAt path <;> rfl

theorem load_save (hs : s.validate = .ok ()) (hp : t.Writable path) :
    ∃ t', StateT.run (s.save path : StateM FileTree (Except Error Unit)) t = (.ok (), t') ∧
      StateT.run (load path : StateM FileTree (Except Error Settings)) t' = (.ok s, t') := by
  obtain ⟨t₁, hparent, text, t₂, hwrite⟩ := hp
  obtain ⟨place, name, hkeeps, -⟩ := FileTree.exists_keeps hwrite
  refine ⟨t₁.insert place name (.file s.text.toUTF8), ?_, ?_⟩
  · rw [run_save s hparent, FileTree.write, hkeeps.writeText_eq]
    rfl
  · rw [run_load, hkeeps.textAt_insert]
    simp only [ofText_text hs]

theorem load_save_nested :
    let s : Settings := { (default : Settings) with
      seed := 18446744073709551615, groundHalfSize := 3.0e38, minSeparation := 1.0e-45, edgeMargin := 0.1 }
    s.validate = .ok () ∧ FileTree.empty.Writable "nested/forest.json" ∧
      ∃ t', StateT.run (s.save "nested/forest.json" : StateM FileTree (Except Error Unit)) .empty = (.ok (), t') ∧
        StateT.run (load "nested/forest.json" : StateM FileTree (Except Error Settings)) t' = (.ok s, t') := by
  intro s
  have hshape : (default : Shape Float32).validate = .ok () := rfl
  have hs : s.validate = .ok () := s.validate_eq_ok_iff.mpr ⟨by decide, by decide +kernel, by decide +kernel,
    by decide +kernel, by decide +kernel, hshape⟩
  have hparent : Path.parent? "nested/forest.json" = some "nested" := by decide +kernel
  have hcomponents : Path.components "nested" = ["nested"] := by decide +kernel
  have hnames : Path.names "nested/forest.json" = ["nested"] ++ ["forest.json"] := by decide +kernel
  have hmade : FileTree.empty.withParent "nested/forest.json" =
      (.ok (), FileTree.empty.insert [] "nested" (.directory 1)) := by
    simp only [FileTree.withParent, hparent, FileTree.makeDirectories, hcomponents]
    rfl
  have hkeeps : (FileTree.empty.insert [] "nested" (.directory 1)).Keeps "nested/forest.json" [1] "forest.json" := {
    check := rfl
    names := ⟨["nested"], hnames, .down ⟨by decide, by decide, by decide, by decide⟩ rfl (.here _)⟩
    plain := ⟨by decide, by decide, by decide, by decide⟩
    free := nofun }
  have hp : FileTree.empty.Writable "nested/forest.json" := ⟨_, hmade, "", _, hkeeps.writeText_eq ""⟩
  exact ⟨hs, hp, load_save hs hp⟩

end Settings

end Woodland
