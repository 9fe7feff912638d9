import FrameAtlas.Proofs.Arrow.Edges
import FrameAtlas.Proofs.Scalar.Exact

namespace FrameAtlas

/-- A fold whose steps never go back does not go back. -/
theorem le_foldl {α β : Type} [Preorder β] {step : β → α → β} (hgrow : ∀ reach a, reach ≤ step reach a)
    (xs : List α) (reach : β) : reach ≤ xs.foldl step reach :=
  List.foldlRecOn xs step (le_refl reach) fun _ hreach a _ => hreach.trans (hgrow _ a)

variable {g : ArrowGeometry Rat} {anchors : FrameAnchors Rat}

theorem Arrow.le_extendRight (reach : Rat) (a : Arrow Rat) :
    reach ≤ Arrow.extendRight g anchors reach a := by
  simp only [Arrow.extendRight, Scalar.larger_eq_max]
  exact le_max_of_le_left (le_max_of_le_left (le_max_left _ _))

/-- The reach only grows along a list of arrows. -/
theorem Arrow.le_foldl_extendRight (arrows : List (Arrow Rat)) (reach : Rat) :
    reach ≤ arrows.foldl (Arrow.extendRight g anchors) reach :=
  le_foldl Arrow.le_extendRight arrows reach

namespace ArrowLayout

/-- Only a list without references has no arrows. -/
theorem compute_arrows_eq_nil_iff {frames : List Frame} :
    (compute frames g anchors).arrows = [] ↔ FrameAtlas.references frames = [] := by
  rw [← compute_arrows_map_pair frames g anchors, List.map_eq_nil_iff]

theorem isEmpty_edges {frames : List Frame} (hrefs : FrameAtlas.references frames ≠ []) :
    (edges frames).isEmpty = false := by
  rw [← edges_map_pair, ne_eq, List.map_eq_nil_iff] at hrefs
  rwa [← Bool.not_eq_true, List.isEmpty_iff]

theorem compute_width {frames : List Frame} (hrefs : FrameAtlas.references frames ≠ []) :
    (compute frames g anchors).width =
      (compute frames g anchors).arrows.foldl (Arrow.extendRight g anchors) 0 + g.margin := by
  unfold compute
  simp only [isEmpty_edges hrefs]
  rfl

/-- A layout with a margin is drawn as soon as there is a reference at all. -/
theorem isRenderable_compute (frames : List Frame) (hmargin : 0 < g.margin) :
    (compute frames g anchors).isRenderable = true ↔ FrameAtlas.references frames ≠ [] := by
  rw [isRenderable, Bool.and_eq_true, decide_eq_true_eq]
  constructor
  · rintro ⟨hne, -⟩ hnone
    rw [compute_arrows_eq_nil_iff.2 hnone] at hne
    contradiction
  · intro hsome
    have hne : (compute frames g anchors).arrows ≠ [] := mt compute_arrows_eq_nil_iff.1 hsome
    refine ⟨by simpa using hne, ?_⟩
    rw [compute_width hsome]
    exact add_pos_of_nonneg_of_pos (Arrow.le_foldl_extendRight _ 0) hmargin

end ArrowLayout

end FrameAtlas
