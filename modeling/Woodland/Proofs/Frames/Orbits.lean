import Mathlib.Tactic
import Woodland.Proofs.Numbers.SingleLaws
import Woodland.Scene.Camera

/-!
Cameras that are dragged, zoomed and resized. As long as no argument is a NaN, an increment may overflow and the
camera still keeps its distance and stays off the poles.
-/

namespace Woodland.Camera

open Single

inductive Move where
  | orbit (dx dy : Float32)
  | zoom (delta : Float32)
  | setAspect (width height : Float32)

def Move.IsNumeric : Move → Prop
  | orbit dx dy => dx.isNaN = false ∧ dy.isNaN = false
  | zoom delta => delta.isNaN = false
  | setAspect width height => width.isNaN = false ∧ height.isNaN = false

def perform (c : Camera) : Move → Except BoundsFault Camera
  | .orbit dx dy => .ok (c.orbit dx dy)
  | .zoom delta => c.zoom delta
  | .setAspect width height => .ok (c.setAspect width height)

def performAll (c : Camera) (moves : List Move) : Except BoundsFault Camera := moves.foldlM perform c

inductive Created : Camera → Prop where
  | default : Created default
  | ofAspect (aspect : Float32) : Created (ofAspect aspect)

/-- Off the poles, and neither too close to the target nor too far from it. -/
structure Steady (c : Camera) : Prop where
  polar_low : polarMargin ≤ c.polar
  polar_high : c.polar ≤ pi - polarMargin
  distance_low : c.minDistance ≤ c.distance
  distance_high : c.distance ≤ c.maxDistance

structure Keeps (start c : Camera) : Prop where
  targetHeight : c.targetHeight = start.targetHeight
  fovY : c.fovY = start.fovY
  near : c.near = start.near
  far : c.far = start.far
  minDistance : c.minDistance = start.minDistance
  maxDistance : c.maxDistance = start.maxDistance

lemma clamp_within {low high x : Float32} (h : low ≤ high) (hx : x.isNaN = false) :
    low ≤ clamp low high x ∧ clamp low high x ≤ high := by
  obtain ⟨hl, hh⟩ := numbers_of_le h
  unfold clamp
  split_ifs with hlow hhigh
  · exact ⟨le_self_of_le h, h⟩
  · exact ⟨h, (le_iff_of_numbers hh hh).mpr le_rfl⟩
  · exact ⟨le_of_not_lt hx hl hlow, le_of_not_lt hh hx hhigh⟩

lemma polar_bounds : polarMargin ≤ pi - polarMargin := by decide

variable {start c c' : Camera} {m : Move} {moves : List Move}

namespace Keeps

lemma refl (c : Camera) : Keeps c c := ⟨rfl, rfl, rfl, rfl, rfl, rfl⟩

lemma trans (h : Keeps start c) (h' : Keeps c c') : Keeps start c' where
  targetHeight := h'.targetHeight.trans h.targetHeight
  fovY := h'.fovY.trans h.fovY
  near := h'.near.trans h.near
  far := h'.far.trans h.far
  minDistance := h'.minDistance.trans h.minDistance
  maxDistance := h'.maxDistance.trans h.maxDistance

lemma of_default (h : Keeps default c) :
    c.minDistance ≤ c.maxDistance ∧ c.minDistance.isFinite = true ∧ c.maxDistance.isFinite = true := by
  rw [h.minDistance, h.maxDistance]
  exact ⟨by decide, rfl, rfl⟩

end Keeps

namespace Steady

lemma initial : Steady default := ⟨by decide, by decide, by decide, by decide⟩

lemma withAspect (h : c.Steady) (aspect : Float32) :
    Steady { c with aspect := aspect } ∧ Keeps c { c with aspect := aspect } :=
  ⟨⟨h.polar_low, h.polar_high, h.distance_low, h.distance_high⟩, ⟨rfl, rfl, rfl, rfl, rfl, rfl⟩⟩

lemma of_created (h : Created c) : c.Steady ∧ Keeps default c := by
  cases h with
  | default => exact ⟨initial, .refl _⟩
  | ofAspect aspect => exact initial.withAspect aspect

lemma orbit (h : c.Steady) (dx : Float32) {dy : Float32} (hy : dy.isNaN = false) :
    (c.orbit dx dy).Steady ∧ Keeps c (c.orbit dx dy) := by
  have hfinite : c.polar.isFinite = true := isFinite_of_bounds rfl rfl h.polar_low h.polar_high
  have hstep : (dy * orbitSensitivity).isNaN = false := isNaN_mul hy rfl (by decide)
  obtain ⟨hlow, hhigh⟩ := clamp_within polar_bounds (place_sub hfinite hstep).1
  exact ⟨⟨hlow, hhigh, h.distance_low, h.distance_high⟩, ⟨rfl, rfl, rfl, rfl, rfl, rfl⟩⟩

lemma zoom (h : c.Steady) (hk : Keeps default c) {delta : Float32} (hd : delta.isNaN = false) :
    ∃ c', c.zoom delta = .ok c' ∧ c'.Steady ∧ Keeps c c' := by
  obtain ⟨hle, hmin, hmax⟩ := hk.of_default
  have hfinite : c.distance.isFinite = true := isFinite_of_bounds hmin hmax h.distance_low h.distance_high
  have hstep : (delta * zoomSensitivity).isNaN = false := isNaN_mul hd rfl (by decide)
  obtain ⟨hlow, hhigh⟩ := clamp_within hle (isNaN_add hfinite hstep)
  exact ⟨_, if_pos hle, ⟨h.polar_low, h.polar_high, hlow, hhigh⟩, ⟨rfl, rfl, rfl, rfl, rfl, rfl⟩⟩

lemma setAspect (h : c.Steady) (width height : Float32) :
    (c.setAspect width height).Steady ∧ Keeps c (c.setAspect width height) := by
  unfold Camera.setAspect
  split_ifs
  · exact h.withAspect (width / height)
  · exact ⟨h, .refl c⟩

lemma perform (h : c.Steady) (hk : Keeps default c) (hm : m.IsNumeric) :
    ∃ c', c.perform m = .ok c' ∧ c'.Steady ∧ Keeps c c' := by
  cases m with
  | orbit dx dy => exact ⟨_, rfl, h.orbit dx hm.2⟩
  | zoom delta => exact h.zoom hk hm
  | setAspect width height => exact ⟨_, rfl, h.setAspect width height⟩

lemma performAll (h : c.Steady) (hk : Keeps default c) (hm : ∀ m ∈ moves, m.IsNumeric) :
    ∃ c', c.performAll moves = .ok c' ∧ c'.Steady ∧ Keeps c c' := by
  induction moves generalizing c with
  | nil => exact ⟨c, rfl, h, .refl c⟩
  | cons m moves ih =>
    obtain ⟨hm, hrest⟩ := List.forall_mem_cons.mp hm
    obtain ⟨c₁, hc₁, hsteady, hkeeps⟩ := h.perform hk hm
    obtain ⟨c', hc', hend, hkeeps'⟩ := ih hsteady (hk.trans hkeeps) hrest
    refine ⟨c', ?_, hend, hkeeps.trans hkeeps'⟩
    change (c.perform m).bind (fun c₁ => c₁.performAll moves) = _
    rw [hc₁]
    exact hc'

end Steady

theorem steady_after_each (hs : Created start) (hm : ∀ m ∈ moves, m.IsNumeric) :
    polarMargin ≤ pi - polarMargin ∧ ∀ done, done <+: moves →
      ∃ c, start.performAll done = .ok c ∧ c.Steady ∧ c.polar.isNaN = false ∧ c.distance.isNaN = false ∧
        c.minDistance ≤ c.maxDistance ∧ Keeps start c := by
  obtain ⟨hstart, hk⟩ := Steady.of_created hs
  refine ⟨polar_bounds, fun done hd => ?_⟩
  obtain ⟨c, hc, hsteady, hkeeps⟩ := hstart.performAll hk fun m h => hm m (hd.subset h)
  exact ⟨c, hc, hsteady, (numbers_of_le hsteady.polar_low).2, (numbers_of_le hsteady.distance_low).2,
    (hk.trans hkeeps).of_default.1, hkeeps⟩

theorem steady_after_each_infinite :
    Created (ofAspect (1 / 0)) ∧
      (∀ m ∈ [Move.orbit (1 / 0) (-1 / 0), .zoom 3e38, .setAspect (1 / 0) 3e38], m.IsNumeric) ∧
      ∃ c, performAll (ofAspect (1 / 0)) [.orbit (1 / 0) (-1 / 0), .zoom 3e38] = .ok c ∧ c.Steady ∧
        c.polar.isNaN = false ∧ c.distance.isNaN = false ∧ c.minDistance ≤ c.maxDistance ∧
          Keeps (ofAspect (1 / 0)) c := by
  have hlarge : (3e38 : Float32).isNaN = false := by decide +kernel
  have hm : ∀ m ∈ [Move.orbit (1 / 0) (-1 / 0), .zoom 3e38, .setAspect (1 / 0) 3e38], m.IsNumeric := by
    simp only [List.forall_mem_cons]
    exact ⟨⟨rfl, rfl⟩, hlarge, ⟨rfl, hlarge⟩, List.forall_mem_nil _⟩
  exact ⟨.ofAspect _, hm, (steady_after_each (.ofAspect _) hm).2 _ ⟨_, rfl⟩⟩

end Woodland.Camera
