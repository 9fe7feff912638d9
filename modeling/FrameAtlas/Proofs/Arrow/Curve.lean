import FrameAtlas.Proofs.Arrow.Anchors
import FrameAtlas.Proofs.Scalar.Exact
import Mathlib.Algebra.Order.Ring.Abs
import Mathlib.Data.Real.Basic
import Mathlib.Tactic.GCongr
import Mathlib.Tactic.Linarith
import Mathlib.Tactic.Positivity
import Mathlib.Tactic.Ring

/-!
The curve that an arrow is drawn along. A path of one cubic stands for the points of a Bézier curve; the
points of the curve of an arrow lie between its two anchors and hang down three quarters of its depth.
-/

namespace FrameAtlas

variable {α β : Type}

structure CubicCurve (α : Type) where
  start : Point α
  leaving : Point α
  arriving : Point α
  stop : Point α

def cubicBlend [CommRing α] (p₀ p₁ p₂ p₃ t : α) : α :=
  (1 - t) ^ 3 * p₀ + 3 * (1 - t) ^ 2 * t * p₁ + 3 * (1 - t) * t ^ 2 * p₂ + t ^ 3 * p₃

namespace CubicCurve

def map (f : α → β) (c : CubicCurve α) : CubicCurve β where
  start := ⟨f c.start.x, f c.start.y⟩
  leaving := ⟨f c.leaving.x, f c.leaving.y⟩
  arriving := ⟨f c.arriving.x, f c.arriving.y⟩
  stop := ⟨f c.stop.x, f c.stop.y⟩

def pointAt [CommRing α] (c : CubicCurve α) (t : α) : Point α where
  x := cubicBlend c.start.x c.leaving.x c.arriving.x c.stop.x t
  y := cubicBlend c.start.y c.leaving.y c.arriving.y c.stop.y t

def path [Scalar α] (c : CubicCurve α) : String :=
  let text (p : Point α) := Scalar.oneDecimal p.x ++ "," ++ Scalar.oneDecimal p.y
  "M " ++ text c.start ++ " C " ++ text c.leaving ++ " " ++ text c.arriving ++ " " ++ text c.stop

end CubicCurve

/-- No coordinate of a curve leaves the range of its control points. -/
theorem cubicBlend_mem_Icc {low high p₀ p₁ p₂ p₃ t : ℝ} (h₀ : p₀ ∈ Set.Icc low high)
    (h₁ : p₁ ∈ Set.Icc low high) (h₂ : p₂ ∈ Set.Icc low high) (h₃ : p₃ ∈ Set.Icc low high)
    (ht : t ∈ Set.Icc (0 : ℝ) 1) : cubicBlend p₀ p₁ p₂ p₃ t ∈ Set.Icc low high := by
  have hnow : 0 ≤ t := ht.1
  have hleft : 0 ≤ 1 - t := sub_nonneg.2 ht.2
  have hconst : ∀ p : ℝ, cubicBlend p p p p t = p := by
    intro p
    unfold cubicBlend
    ring
  constructor
  · calc
      low = cubicBlend low low low low t := (hconst low).symm
      _ ≤ cubicBlend p₀ p₁ p₂ p₃ t := by
        unfold cubicBlend
        gcongr
        exacts [h₀.1, h₁.1, h₂.1, h₃.1]
  · calc
      cubicBlend p₀ p₁ p₂ p₃ t ≤ cubicBlend high high high high t := by
        unfold cubicBlend
        gcongr
        exacts [h₀.2, h₁.2, h₂.2, h₃.2]
      _ = high := hconst high

/-- An arc hangs from its line by a parabola that is three times as deep as the time and what is left of it multiply
to. -/
theorem cubicBlend_hang (y depth t : ℝ) :
    cubicBlend y (y + depth) (y + depth) y t = y + 3 * (t * (1 - t)) * depth := by
  unfold cubicBlend
  ring

/-- Where both inner control points are as deep, the curve hangs down three quarters of that depth. -/
theorem cubicBlend_hang_mem_Icc {y depth t : ℝ} (hdepth : 0 ≤ depth) (ht : t ∈ Set.Icc (0 : ℝ) 1) :
    cubicBlend y (y + depth) (y + depth) y t ∈ Set.Icc y (y + 3 / 4 * depth) := by
  have hnonneg : 0 ≤ t * (1 - t) := mul_nonneg ht.1 (sub_nonneg.2 ht.2)
  have hquarter : t * (1 - t) ≤ 1 / 4 := by
    have hsquare : t * (1 - t) = 1 / 4 - (t - 1 / 2) ^ 2 := by ring
    rw [hsquare]
    exact sub_le_self _ (sq_nonneg _)
  rw [cubicBlend_hang]
  constructor
  · exact le_add_of_nonneg_right (by positivity)
  · have hbound : 3 * (t * (1 - t)) ≤ 3 / 4 := by linarith
    gcongr

namespace ArrowGeometry

variable {g : ArrowGeometry Rat}

/-- Arcs deepen from slot to slot, by one pixel at least. -/
theorem arcDepth_eq (g : ArrowGeometry Rat) (slot : Nat) :
    g.arcDepth slot = g.baseArc + slot * max 1 g.slotSpacing := by
  rw [arcDepth, Scalar.larger_eq_max, max_comm]
  rfl

theorem arcDepth_nonneg (harc : 0 ≤ g.baseArc) (slot : Nat) : 0 ≤ g.arcDepth slot := by
  have hspacing : 0 ≤ max 1 g.slotSpacing := le_max_of_le_left zero_le_one
  rw [arcDepth_eq]
  positivity

/-- Arcs in different slots are at least a slot apart. -/
theorem spacing_le_abs_arcDepth_sub (g : ArrowGeometry Rat) {m n : Nat} (h : m ≠ n) :
    max 1 g.slotSpacing ≤ |g.arcDepth m - g.arcDepth n| := by
  have hspacing : 0 ≤ max 1 g.slotSpacing := le_max_of_le_left zero_le_one
  have hslots : (1 : Rat) ≤ |(m : Rat) - n| := by
    have hwhole : (1 : Int) ≤ |(m : Int) - n| := Int.one_le_abs (by omega)
    exact_mod_cast hwhole
  calc
    max 1 g.slotSpacing ≤ |(m : Rat) - n| * max 1 g.slotSpacing := le_mul_of_one_le_left hspacing hslots
    _ = |((m : Rat) - n) * max 1 g.slotSpacing| := by rw [abs_mul, abs_of_nonneg hspacing]
    _ = |g.arcDepth m - g.arcDepth n| := by
      rw [arcDepth_eq, arcDepth_eq, add_sub_add_left_eq_sub, sub_mul]

end ArrowGeometry

namespace Arrow

def curve [Scalar α] (g : ArrowGeometry α) (anchors : FrameAnchors α) (a : Arrow α) : CubicCurve α :=
  let targetX := anchors.x a.target g
  let controlY := g.anchorY + g.arcDepth a.slot
  ⟨⟨a.sourceX, g.anchorY⟩, ⟨a.sourceX, controlY⟩, ⟨targetX, controlY⟩, ⟨targetX, g.anchorY⟩⟩

theorem path_ofEdge [Scalar α] (g : ArrowGeometry α) (anchors : FrameAnchors α) (levels : IndexMap UInt32)
    (e : Edge) (slot : Nat) :
    (ofEdge g anchors levels e slot).path = ((ofEdge g anchors levels e slot).curve g anchors).path := rfl

variable {g : ArrowGeometry Rat} {anchors : FrameAnchors Rat} {t : ℝ}

noncomputable def pointAt (g : ArrowGeometry Rat) (anchors : FrameAnchors Rat) (a : Arrow Rat) (t : ℝ) :
    Point ℝ :=
  ((a.curve g anchors).map Rat.cast).pointAt t

/-- A curve never leaves the abscissas between its two anchors. -/
theorem pointAt_x_mem_Icc (g : ArrowGeometry Rat) (anchors : FrameAnchors Rat) (a : Arrow Rat)
    (ht : t ∈ Set.Icc (0 : ℝ) 1) :
    (a.pointAt g anchors t).x ∈ Set.Icc ((min a.sourceX (anchors.x a.target g) : Rat) : ℝ)
      ((max a.sourceX (anchors.x a.target g) : Rat) : ℝ) := by
  have hsource : (a.sourceX : ℝ) ∈ Set.Icc ((min a.sourceX (anchors.x a.target g) : Rat) : ℝ)
      ((max a.sourceX (anchors.x a.target g) : Rat) : ℝ) :=
    ⟨Rat.cast_le.2 (min_le_left _ _), Rat.cast_le.2 (le_max_left _ _)⟩
  have htarget : (anchors.x a.target g : ℝ) ∈ Set.Icc ((min a.sourceX (anchors.x a.target g) : Rat) : ℝ)
      ((max a.sourceX (anchors.x a.target g) : Rat) : ℝ) :=
    ⟨Rat.cast_le.2 (min_le_right _ _), Rat.cast_le.2 (le_max_right _ _)⟩
  exact cubicBlend_mem_Icc hsource hsource htarget htarget ht

theorem pointAt_y (g : ArrowGeometry Rat) (anchors : FrameAnchors Rat) (a : Arrow Rat) (t : ℝ) :
    (a.pointAt g anchors t).y = cubicBlend (g.anchorY : ℝ) (g.anchorY + g.arcDepth a.slot)
      (g.anchorY + g.arcDepth a.slot) g.anchorY t := by
  simp only [pointAt, CubicCurve.pointAt, CubicCurve.map, curve, Rat.cast_add]

/-- A curve hangs between its line and three quarters of its depth. -/
theorem pointAt_y_mem_Icc (harc : 0 ≤ g.baseArc) (a : Arrow Rat) (ht : t ∈ Set.Icc (0 : ℝ) 1) :
    (a.pointAt g anchors t).y ∈ Set.Icc (g.anchorY : ℝ)
      ((g.anchorY + 3 / 4 * g.arcDepth a.slot : Rat) : ℝ) := by
  have hdepth : (0 : ℝ) ≤ (g.arcDepth a.slot : ℝ) :=
    Rat.cast_nonneg.2 (ArrowGeometry.arcDepth_nonneg harc a.slot)
  rw [pointAt_y]
  push_cast
  exact cubicBlend_hang_mem_Icc hdepth ht

end Arrow

end FrameAtlas
