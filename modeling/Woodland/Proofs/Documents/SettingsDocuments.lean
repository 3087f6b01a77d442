import Mathlib.Tactic
import Woodland.Document.Settings
import Woodland.Proofs.Documents.Reading
import Woodland.Proofs.Documents.Records
import Woodland.Proofs.Documents.SingleNumbers
import Woodland.Proofs.Planting.ValidSettings
import Woodland.Proofs.Planting.ValidShapes

/-! Accepted settings are read again from their text. -/

namespace Woodland

namespace Json

variable {n bound : ℕ} {x : Float32} {ms : List (String × Json)}

lemma natural?_ofNat (hn : n < bound) (hw : n < wordBound) : natural? bound (ofNat n) = some n := by
  have hread : readInt? ⟨false, Decimal.digits n, [], none⟩ = some (n : ℤ) := by
    simp [readInt?, hw]
  simp only [natural?, ofNat, hread]
  exact if_pos hn

lemma wellFormed_ofNat (n : ℕ) : (ofNat n).WellFormed :=
  .number ⟨Decimal.leading_digits n, nofun⟩

lemma wellFormed_ofSingle (hx : x.isFinite = true) : (ofSingle x).WellFormed := by
  obtain ⟨n, hn, hwf, -⟩ := single?_ofSingle hx
  rw [hn]
  exact .number hwf

lemma read_ofSingle (hx : x.isFinite = true) : single? (ofSingle x) = some x := by
  obtain ⟨n, hn, -, hread⟩ := single?_ofSingle hx
  rw [hn, hread]

lemma wellFormed_ofMembers (h : ∀ m ∈ ms, m.2.WellFormed) : (ofMembers ms).WellFormed := by
  refine .object fun _ hm => ?_
  obtain ⟨m, hmem, rfl⟩ := List.mem_map.mp hm
  exact h m hmem

end Json

open Json

namespace Shape

structure Recordable (s : Shape Float32) : Prop where
  iterations : s.iterations < iterationBound
  angle : s.angle.isFinite = true
  length : s.length.isFinite = true
  trunkScale : s.trunkScale.isFinite = true
  taper : s.taper.isFinite = true
  branchScale : s.branchScale.isFinite = true
  leafDensity : s.leafDensity.isFinite = true

variable {s : Shape Float32}

lemma isFinite_of_positive {p : Parameter} {x : Float32} (h : checkPositive p x = .ok ()) : x.isFinite = true := by
  rw [checkPositive] at h
  split_ifs at h with hx
  exact hx.1

lemma isFinite_of_judge_angle (h : s.judge .angle = .ok ()) : s.angle.isFinite = true := by
  simp only [judge] at h
  split_ifs at h with hx
  have hfinite : Scalar.isFinite s.angle = true := by simpa using hx
  exact hfinite

lemma isFinite_of_judge_taper (h : s.judge .taper = .ok ()) : s.taper.isFinite = true := by
  simp only [judge] at h
  split_ifs at h with hx
  have hfinite : Scalar.isFinite s.taper = true := by simpa using (not_or.mp hx).1
  exact hfinite

lemma isFinite_of_judge_leafDensity (h : s.judge .leafDensity = .ok ()) : s.leafDensity.isFinite = true := by
  simp only [judge] at h
  split_ifs at h with hx
  exact Single.isFinite_of_between hx.1 hx.2

lemma recordable_of_valid (h : s.validate = .ok ()) : s.Recordable where
  iterations := (iterations_le h).trans_lt (by decide)
  angle := isFinite_of_judge_angle (judge_of_valid h .angle)
  length := isFinite_of_positive (judge_of_valid h .length)
  trunkScale := isFinite_of_positive (judge_of_valid h .trunkScale)
  taper := isFinite_of_judge_taper (judge_of_valid h .taper)
  branchScale := isFinite_of_positive (judge_of_valid h .branchScale)
  leafDensity := isFinite_of_judge_leafDensity (judge_of_valid h .leafDensity)

lemma wellFormed_toJson (h : s.Recordable) : s.toJson.WellFormed := by
  apply wellFormed_ofMembers
  simp only [List.forall_mem_cons]
  exact ⟨wellFormed_ofNat _, wellFormed_ofSingle h.angle, wellFormed_ofSingle h.length,
    wellFormed_ofSingle h.trunkScale, wellFormed_ofSingle h.taper, wellFormed_ofSingle h.branchScale,
    wellFormed_ofSingle h.leafDensity, by simp⟩

lemma ofJson?_toJson (h : s.Recordable) : ofJson? s.toJson = some s := by
  have hfields : fields? fieldNames s.toJson =
      some [some (.ofNat s.iterations), some (.ofSingle s.angle), some (.ofSingle s.length),
        some (.ofSingle s.trunkScale), some (.ofSingle s.taper), some (.ofSingle s.branchScale),
        some (.ofSingle s.leafDensity)] :=
    fields?_ofMembers (by simp only [List.map_cons, List.map_nil]; decide)
  have hiter : natural? iterationBound (.ofNat s.iterations) = some s.iterations :=
    natural?_ofNat h.iterations (h.iterations.trans (by decide))
  simp only [ofJson?, hfields, Option.bind_eq_bind, Option.bind_some, given?, hiter, read_ofSingle h.angle,
    read_ofSingle h.length, read_ofSingle h.trunkScale, read_ofSingle h.taper, read_ofSingle h.branchScale,
    read_ofSingle h.leafDensity]
  rfl

end Shape

namespace Settings

structure Recordable (s : Settings) : Prop where
  targetCount : s.targetCount < wordBound
  groundHalfSize : s.groundHalfSize.isFinite = true
  minSeparation : s.minSeparation.isFinite = true
  edgeMargin : s.edgeMargin.isFinite = true
  shape : s.shape.Recordable

variable {s : Settings}

lemma recordable_of_valid (h : s.validate = .ok ()) : s.Recordable := by
  obtain ⟨ht, ⟨hg, -⟩, ⟨hm, -⟩, -, ⟨hd, -⟩, hs⟩ := s.validate_eq_ok_iff.mp h
  exact ⟨ht.trans_lt (by decide), hg, hd, hm, Shape.recordable_of_valid hs⟩

lemma wellFormed_toJson (h : s.Recordable) : s.toJson.WellFormed := by
  apply wellFormed_ofMembers
  simp only [List.forall_mem_cons]
  exact ⟨wellFormed_ofNat _, wellFormed_ofNat _, wellFormed_ofSingle h.groundHalfSize,
    wellFormed_ofSingle h.minSeparation, wellFormed_ofSingle h.edgeMargin, Shape.wellFormed_toJson h.shape, by simp⟩

lemma ofJson?_toJson (h : s.Recordable) : ofJson? s.toJson = some s := by
  have hfields : fields? fieldNames s.toJson =
      some [some (.ofNat s.seed.toNat), some (.ofNat s.targetCount), some (.ofSingle s.groundHalfSize),
        some (.ofSingle s.minSeparation), some (.ofSingle s.edgeMargin), some s.shape.toJson] :=
    fields?_ofMembers (by simp only [List.map_cons, List.map_nil]; decide)
  have hseed : natural? wordBound (.ofNat s.seed.toNat) = some s.seed.toNat :=
    natural?_ofNat s.seed.toNat_lt s.seed.toNat_lt
  simp only [ofJson?, hfields, Option.bind_eq_bind, Option.bind_some, given?, hseed,
    natural?_ofNat h.targetCount h.targetCount, read_ofSingle h.groundHalfSize, read_ofSingle h.minSeparation,
    read_ofSingle h.edgeMargin, Shape.ofJson?_toJson h.shape]
  simp

lemma ofText_text (h : s.validate = .ok ()) : ofText s.text = .ok s := by
  have hw := recordable_of_valid h
  have hread : (read? s.text).bind ofJson? = some s := by
    rw [text, read?_pretty (wellFormed_toJson hw), Option.bind_some, ofJson?_toJson hw]
  rw [ofText, hread]
  simp only [h]
  rfl

end Settings

end Woodland
