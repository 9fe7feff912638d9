import FrameAtlas.Proofs.Arrow.Curve
import FrameAtlas.Proofs.Arrow.Extent
import FrameAtlas.Proofs.Arrow.Stacking

/-!
What an arrow layout has room for, in exact numbers. Every curve and every label lies inside the size of
its layout, less the margin; no width is left over; and arrows over a common frame index can be told apart
by the heights of their labels.
-/

namespace FrameAtlas

/-- A fold whose steps never go back goes at least as far as any one of its elements takes it. -/
theorem le_foldl_of_mem {α β : Type} [Preorder β] {step : β → α → β} {xs : List α} {a : α} {x : β}
    (hgrow : ∀ reach a, reach ≤ step reach a) (ha : a ∈ xs) (hx : ∀ reach, x ≤ step reach a) (reach : β) :
    x ≤ xs.foldl step reach := by
  obtain ⟨before, after, rfl⟩ := List.append_of_mem ha
  rw [List.foldl_append, List.foldl_cons]
  exact (hx _).trans (le_foldl hgrow after _)

namespace Arrow

variable {g : ArrowGeometry Rat} {anchors : FrameAnchors Rat}

def IsRightEdge (g : ArrowGeometry Rat) (anchors : FrameAnchors Rat) (a : Arrow Rat) (x : Rat) : Prop :=
  x = a.sourceX ∨ x = anchors.x a.target g ∨ x = a.labelX + labelHalfWidth g a.label

theorem labelHalfWidth_nonneg (hchar : 0 ≤ g.labelCharWidth) (label : String) :
    0 ≤ labelHalfWidth g label :=
  div_nonneg (mul_nonneg (Nat.cast_nonneg _) hchar) (Nat.cast_nonneg _)

/-- No right edge of an arrow lies beyond what the arrow extends the width to. -/
theorem le_extendRight_of_isRightEdge {a : Arrow Rat} {x : Rat} (h : a.IsRightEdge g anchors x) (reach : Rat) :
    x ≤ extendRight g anchors reach a := by
  simp only [extendRight, Scalar.larger_eq_max]
  rcases h with rfl | rfl | rfl
  · exact le_max_of_le_left (le_max_of_le_left (le_max_right _ _))
  · exact le_max_of_le_left (le_max_right _ _)
  · exact le_max_right _ _

/-- An arrow that takes the reach further takes it to one of its edges. -/
theorem extendRight_eq_or_isRightEdge (reach : Rat) (a : Arrow Rat) :
    extendRight g anchors reach a = reach ∨ a.IsRightEdge g anchors (extendRight g anchors reach a) := by
  simp only [extendRight, Scalar.larger_eq_max, IsRightEdge]
  rcases max_choice (max (max reach a.sourceX) (anchors.x a.target g)) (a.labelX + labelHalfWidth g a.label)
    with h | h
  · rw [h]
    rcases max_choice (max reach a.sourceX) (anchors.x a.target g) with h | h
    · rw [h]
      rcases max_choice reach a.sourceX with h | h
      · exact .inl h
      · exact .inr (.inl h)
    · exact .inr (.inr (.inl h))
  · exact .inr (.inr (.inr h))

structure IsInside (g : ArrowGeometry Rat) (anchors : FrameAnchors Rat) (layout : ArrowLayout Rat)
    (a : Arrow Rat) : Prop where
  hangs : a.sourceX = anchors.x a.source g
  drawn : a.path = (a.curve g anchors).path
  across : ∀ t ∈ Set.Icc (0 : ℝ) 1,
    (a.pointAt g anchors t).x ∈ Set.Icc ((min a.sourceX (anchors.x a.target g) : Rat) : ℝ)
      ((max a.sourceX (anchors.x a.target g) : Rat) : ℝ) ∧
    (a.pointAt g anchors t).x ≤ ((layout.width - g.margin : Rat) : ℝ)
  down : ∀ t ∈ Set.Icc (0 : ℝ) 1,
    (a.pointAt g anchors t).y ∈ Set.Icc (g.anchorY : ℝ)
      ((g.anchorY + 3 / 4 * g.arcDepth a.slot : Rat) : ℝ)
  deepest : g.anchorY + 3 / 4 * g.arcDepth a.slot ≤ layout.height - g.margin
  labelLeft : 0 ≤ a.labelX - labelHalfWidth g a.label
  labelRight : a.labelX + labelHalfWidth g a.label ≤ layout.width - g.margin
  labelDown : a.labelY ≤ layout.height - g.margin

end Arrow

namespace ArrowLayout

variable {frames : List Frame} {g : ArrowGeometry Rat} {anchors : FrameAnchors Rat} {a b : Arrow Rat}

/-- Without its margin a layout is as wide as its arrows and labels reach to the right. -/
theorem width_sub_margin (hrefs : FrameAtlas.references frames ≠ []) :
    (compute frames g anchors).width - g.margin =
      (compute frames g anchors).arrows.foldl (Arrow.extendRight g anchors) 0 := by
  rw [compute_width hrefs, add_sub_cancel_right]

/-- Without its margin a layout is as high as its lowest label. -/
theorem height_sub_margin (hrefs : FrameAtlas.references frames ≠ []) :
    (compute frames g anchors).height - g.margin =
      (compute frames g anchors).arrows.foldl (fun reach a => Scalar.larger reach a.labelY) 0 := by
  unfold compute
  simp only [isEmpty_edges hrefs]
  exact add_sub_cancel_right _ _

/-- No anchor and no label of an arrow is clipped on the right. -/
theorem le_width_of_isRightEdge (hrefs : FrameAtlas.references frames ≠ [])
    (ha : a ∈ (compute frames g anchors).arrows) {x : Rat} (hx : a.IsRightEdge g anchors x) :
    x ≤ (compute frames g anchors).width - g.margin := by
  rw [width_sub_margin hrefs]
  exact le_foldl_of_mem Arrow.le_extendRight ha (Arrow.le_extendRight_of_isRightEdge hx) 0

theorem labelY_le_height (hrefs : FrameAtlas.references frames ≠ [])
    (ha : a ∈ (compute frames g anchors).arrows) :
    a.labelY ≤ (compute frames g anchors).height - g.margin := by
  rw [height_sub_margin hrefs]
  apply le_foldl_of_mem _ ha
  · intro reach
    rw [Scalar.larger_eq_max]
    exact le_max_right _ _
  · intro reach c
    rw [Scalar.larger_eq_max]
    exact le_max_left _ _

/-- A label stands under the deepest point of its arc. -/
theorem labelY_of_mem_compute (ha : a ∈ (compute frames g anchors).arrows) :
    a.labelY = g.anchorY + 3 / 4 * g.arcDepth a.slot + g.labelGap := by
  obtain ⟨e, -, slot, rfl⟩ := mem_compute_arrows ha
  rw [mul_comm]
  rfl

/-- No label is clipped on the left. -/
theorem labelHalfWidth_le_labelX (ha : a ∈ (compute frames g anchors).arrows) :
    Arrow.labelHalfWidth g a.label ≤ a.labelX := by
  rw [(pointsTo_of_mem_compute ha).labelX, Scalar.larger_eq_max]
  exact le_max_right _ _

theorem path_of_mem_compute (ha : a ∈ (compute frames g anchors).arrows) :
    a.path = (a.curve g anchors).path := by
  obtain ⟨e, -, slot, rfl⟩ := mem_compute_arrows ha
  exact Arrow.path_ofEdge g anchors (levelsByIndex frames) e slot

/-- An arrow of a layout lies inside of it, at every time of its curve and with its whole label. -/
theorem isInside_of_mem_compute (hrefs : FrameAtlas.references frames ≠ []) (hgap : 0 ≤ g.labelGap)
    (harc : 0 ≤ g.baseArc) (ha : a ∈ (compute frames g anchors).arrows) :
    a.IsInside g anchors (compute frames g anchors) where
  hangs := sourceX_of_mem_compute ha
  drawn := path_of_mem_compute ha
  across := by
    intro t ht
    have hbetween := Arrow.pointAt_x_mem_Icc g anchors a ht
    have hanchors : max a.sourceX (anchors.x a.target g) ≤ (compute frames g anchors).width - g.margin :=
      max_le (le_width_of_isRightEdge hrefs ha (.inl rfl)) (le_width_of_isRightEdge hrefs ha (.inr (.inl rfl)))
    exact ⟨hbetween, hbetween.2.trans (Rat.cast_le.2 hanchors)⟩
  down := fun t ht => Arrow.pointAt_y_mem_Icc harc a ht
  deepest := by
    calc
      g.anchorY + 3 / 4 * g.arcDepth a.slot ≤ a.labelY := by
        rw [labelY_of_mem_compute ha]
        exact le_add_of_nonneg_right hgap
      _ ≤ (compute frames g anchors).height - g.margin := labelY_le_height hrefs ha
  labelLeft := sub_nonneg.2 (labelHalfWidth_le_labelX ha)
  labelRight := le_width_of_isRightEdge hrefs ha (.inr (.inr rfl))
  labelDown := labelY_le_height hrefs ha

/-- No width is left over: before the margin the layout ends at an anchor or at the edge of a label. -/
theorem exists_isRightEdge_width (hrefs : FrameAtlas.references frames ≠ []) (hchar : 0 ≤ g.labelCharWidth) :
    ∃ a ∈ (compute frames g anchors).arrows,
      a.IsRightEdge g anchors ((compute frames g anchors).width - g.margin) := by
  have hends : (compute frames g anchors).width - g.margin = 0 ∨
      ∃ a ∈ (compute frames g anchors).arrows,
        a.IsRightEdge g anchors ((compute frames g anchors).width - g.margin) := by
    rw [width_sub_margin hrefs]
    apply List.foldlRecOn (motive := fun reach =>
      reach = 0 ∨ ∃ a ∈ (compute frames g anchors).arrows, a.IsRightEdge g anchors reach)
    · exact .inl rfl
    intro reach hreach a ha
    rcases Arrow.extendRight_eq_or_isRightEdge reach a with hsame | hedge
    · rwa [hsame]
    · exact .inr ⟨a, ha, hedge⟩
  rcases hends with hzero | hedge
  -- The reach starts at zero, and a label ends there or further right, so it is a label that ends there.
  · have hsome : (compute frames g anchors).arrows ≠ [] := mt compute_arrows_eq_nil_iff.1 hrefs
    obtain ⟨a, ha⟩ := List.exists_mem_of_ne_nil _ hsome
    have hhalf := Arrow.labelHalfWidth_nonneg hchar a.label
    have hlabel : 0 ≤ a.labelX + Arrow.labelHalfWidth g a.label :=
      add_nonneg (hhalf.trans (labelHalfWidth_le_labelX ha)) hhalf
    have hreach := le_width_of_isRightEdge hrefs ha (.inr (.inr rfl))
    refine ⟨a, ha, .inr (.inr (le_antisymm ?_ hreach))⟩
    rwa [hzero]
  · exact hedge

/-- Labels of arrows over a common index keep three quarters of a slot apart. -/
theorem spacing_le_abs_labelY_sub {i j : Nat} {p : UInt32} (hne : i ≠ j)
    (ha : (compute frames g anchors).arrows[i]? = some a) (hb : (compute frames g anchors).arrows[j]? = some b)
    (hpa : IsOver p a.source a.target) (hpb : IsOver p b.source b.target) :
    3 / 4 * max 1 g.slotSpacing ≤ |a.labelY - b.labelY| := by
  have hslots : a.slot ≠ b.slot := by
    intro hslot
    rw [IsOver, ← IndexSpan.contains_between] at hpa hpb
    exact (apart_compute frames g anchors hne ha hb hslot).not_contains hpa hpb
  have hlabels : a.labelY - b.labelY = 3 / 4 * (g.arcDepth a.slot - g.arcDepth b.slot) := by
    rw [labelY_of_mem_compute (List.mem_of_getElem? ha), labelY_of_mem_compute (List.mem_of_getElem? hb)]
    ring
  rw [hlabels, abs_mul, abs_of_nonneg (by norm_num)]
  exact mul_le_mul_of_nonneg_left (g.spacing_le_abs_arcDepth_sub hslots) (by norm_num)

/-- A layout that clips none of its arrows, leaves no width over, and keeps the labels of stacked arrows
apart. -/
structure IsSnug (g : ArrowGeometry Rat) (anchors : FrameAnchors Rat) (layout : ArrowLayout Rat) : Prop where
  inside : ∀ a ∈ layout.arrows, a.IsInside g anchors layout
  reached : ∃ a ∈ layout.arrows, a.IsRightEdge g anchors (layout.width - g.margin)
  distinct : ∀ (i j : Nat) (a b : Arrow Rat), i ≠ j → layout.arrows[i]? = some a → layout.arrows[j]? = some b →
    ∀ p, IsOver p a.source a.target → IsOver p b.source b.target →
      3 / 4 * max 1 g.slotSpacing ≤ |a.labelY - b.labelY|

/-- Each arrow is inside, the width is reached by one of them, and stacked labels stand apart. -/
theorem compute_isSnug (frames : List Frame) (g : ArrowGeometry Rat) (anchors : FrameAnchors Rat)
    (hrefs : FrameAtlas.references frames ≠ []) (hchar : 0 ≤ g.labelCharWidth) (hgap : 0 ≤ g.labelGap)
    (harc : 0 ≤ g.baseArc) : IsSnug g anchors (compute frames g anchors) where
  inside := fun _ ha => isInside_of_mem_compute hrefs hgap harc ha
  reached := exists_isRightEdge_width hrefs hchar
  distinct := fun _ _ _ _ hne ha hb _ hpa hpb => spacing_le_abs_labelY_sub hne ha hb hpa hpb

/-- Two arrows left of zero, where the width is that of their labels. -/
theorem compute_isSnug_left_of_zero :
    let frames : List Frame := [{ index := 1, refs := [0] }, { index := 2, refs := [0] }]
    let g : ArrowGeometry Rat := .default
    let anchors : FrameAnchors Rat := .ofCenters [(0, -90), (1, -60)]
    let l := compute frames g anchors
    (FrameAtlas.references frames ≠ [] ∧ 0 ≤ g.labelCharWidth ∧ 0 ≤ g.labelGap ∧ 0 ≤ g.baseArc) ∧
      l.arrows.map Arrow.labelX = [15, 15] ∧ l.width = 38 ∧ IsSnug g anchors l := by
  intro frames g anchors l
  have hrefs : FrameAtlas.references frames ≠ [] := by decide
  have hchar : 0 ≤ g.labelCharWidth := by decide +kernel
  have hgap : 0 ≤ g.labelGap := by decide +kernel
  have harc : 0 ≤ g.baseArc := by decide +kernel
  refine ⟨⟨hrefs, hchar, hgap, harc⟩, ?_, ?_, compute_isSnug frames g anchors hrefs hchar hgap harc⟩
  · decide +kernel
  · decide +kernel

end ArrowLayout

end FrameAtlas
