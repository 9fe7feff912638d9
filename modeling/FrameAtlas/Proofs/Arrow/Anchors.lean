import FrameAtlas.Proofs.Arrow.Edges
import FrameAtlas.Proofs.IndexMap

namespace FrameAtlas

variable {α : Type}

def IsNearestBelow (indices : List UInt32) (index known : UInt32) : Prop :=
  known ∈ indices ∧ known < index ∧ ∀ i ∈ indices, i < index → i ≤ known

def IsNearestAbove (indices : List UInt32) (index known : UInt32) : Prop :=
  known ∈ indices ∧ index < known ∧ ∀ i ∈ indices, index < i → known ≤ i

namespace FrameAnchors

/-- Centers are known for the indices they were given for, and for no others. -/
theorem isSome_get?_ofCenters (centers : List (UInt32 × α)) (index : UInt32) :
    ((ofCenters centers).centers.get? index).isSome ↔ index ∈ centers.map (·.1) := by
  rw [← IndexMap.mem_keys_iff, ofCenters, IndexMap.mem_keys_ofFirst]

variable [Scalar α] {centers : List (UInt32 × α)} {index : UInt32}

/-- A frame with a center is anchored there, whatever the measures are. -/
theorem x_of_get?_eq_some {a : FrameAnchors α} {x : α} (h : a.centers.get? index = some x)
    (g : ArrowGeometry α) : a.x index g = x := by
  simp only [FrameAnchors.x, h]

/-- An index without a center hangs right of the nearest index below that has one, by a pitch for each
index between them. -/
theorem x_ofCenters_of_below (hindex : index ∉ centers.map (·.1))
    (hbelow : ∃ i ∈ centers.map (·.1), i < index) (g : ArrowGeometry α) :
    ∃ known x, IsNearestBelow (centers.map (·.1)) index known ∧
      (ofCenters centers).centers.get? known = some x ∧
      (ofCenters centers).x index g =
        x + ((index.toNat - known.toNat : Nat) : α) * g.framePitch := by
  have hlisted := isSome_get?_ofCenters centers
  have hnone : (ofCenters centers).centers.get? index = none := by
    rw [← Option.not_isSome_iff_eq_none, hlisted]
    exact hindex
  cases hfound : (ofCenters centers).centers.below? index with
  | none =>
    obtain ⟨i, hi, hlt⟩ := hbelow
    have hkey : i ∈ (ofCenters centers).centers.keys := by rwa [IndexMap.mem_keys_iff, hlisted]
    exact absurd hlt (IndexMap.below?_eq_none hfound i hkey)
  | some e =>
    obtain ⟨hget, hlt, hnearest⟩ := IndexMap.below?_eq_some hfound
    have hmem : e.1 ∈ centers.map (·.1) := (hlisted e.1).1 (Option.isSome_of_eq_some hget)
    refine ⟨e.1, e.2, ⟨hmem, hlt, ?_⟩, hget, ?_⟩
    · intro i hi
      exact hnearest i (by rwa [IndexMap.mem_keys_iff, hlisted])
    · have hdistance : (index - e.1).toNat = index.toNat - e.1.toNat :=
        UInt32.toNat_sub_of_le _ _ (UInt32.le_of_lt hlt)
      simp only [FrameAnchors.x, hnone, hfound, hdistance]

/-- Where no index below has a center, it hangs left of the nearest index above that has one. -/
theorem x_ofCenters_of_above (hindex : index ∉ centers.map (·.1)) (hcenters : centers ≠ [])
    (hbelow : ∀ i ∈ centers.map (·.1), ¬ i < index) (g : ArrowGeometry α) :
    ∃ known x, IsNearestAbove (centers.map (·.1)) index known ∧
      (ofCenters centers).centers.get? known = some x ∧
      (ofCenters centers).x index g =
        x - ((known.toNat - index.toNat : Nat) : α) * g.framePitch := by
  have hlisted := isSome_get?_ofCenters centers
  have hnone : (ofCenters centers).centers.get? index = none := by
    rw [← Option.not_isSome_iff_eq_none, hlisted]
    exact hindex
  have hnobelow : (ofCenters centers).centers.below? index = none := by
    cases hfound : (ofCenters centers).centers.below? index with
    | none => rfl
    | some e =>
      obtain ⟨hget, hlt, -⟩ := IndexMap.below?_eq_some hfound
      exact absurd hlt (hbelow e.1 ((hlisted e.1).1 (Option.isSome_of_eq_some hget)))
  cases hfound : (ofCenters centers).centers.above? index with
  | none =>
    obtain ⟨c, rest, rfl⟩ := List.exists_cons_of_ne_nil hcenters
    have hmem : c.1 ∈ (c :: rest).map (·.1) := List.mem_map.2 ⟨c, List.mem_cons_self, rfl⟩
    have hkey : c.1 ∈ (ofCenters (c :: rest)).centers.keys := by
      rwa [IndexMap.mem_keys_iff, hlisted]
    exact absurd (UInt32.not_lt.1 (hbelow c.1 hmem)) (IndexMap.above?_eq_none hfound c.1 hkey)
  | some e =>
    obtain ⟨hget, hle, hnearest⟩ := IndexMap.above?_eq_some hfound
    have hmem : e.1 ∈ centers.map (·.1) := (hlisted e.1).1 (Option.isSome_of_eq_some hget)
    have hne : index ≠ e.1 := fun h => hindex (h ▸ hmem)
    refine ⟨e.1, e.2, ⟨hmem, UInt32.lt_of_le_of_ne hle hne, ?_⟩, hget, ?_⟩
    · intro i hi hlt
      exact hnearest i (by rwa [IndexMap.mem_keys_iff, hlisted]) (UInt32.le_of_lt hlt)
    · have hdistance : (e.1 - index).toNat = e.1.toNat - index.toNat :=
        UInt32.toNat_sub_of_le _ _ hle
      simp only [FrameAnchors.x, hnone, hnobelow, hfound, hdistance]

end FrameAnchors

namespace Arrow

variable [Scalar α]

/-- Whether an arrow is drawn to the place `x` of the anchor line: its path ends there, and its label
stands in the middle, but not left of zero. -/
structure PointsTo (g : ArrowGeometry α) (a : Arrow α) (x : α) : Prop where
  path : ∃ start, a.path =
    start ++ " " ++ Scalar.oneDecimal x ++ "," ++ Scalar.oneDecimal a.sourceY
  labelX : a.labelX =
    Scalar.larger ((a.sourceX + x) / ((2 : Nat) : α)) (labelHalfWidth g a.label)

/-- The arrow of an edge points to the anchor of its target, whether a cell stands there or not. -/
theorem pointsTo_ofEdge (g : ArrowGeometry α) (anchors : FrameAnchors α) (levels : IndexMap UInt32)
    (e : Edge) (slot : Nat) :
    (ofEdge g anchors levels e slot).PointsTo g (anchors.x e.target g) where
  path := by
    refine ⟨"M " ++ (Scalar.oneDecimal (anchors.x e.source g) ++ "," ++ Scalar.oneDecimal g.anchorY)
      ++ " C " ++ (Scalar.oneDecimal (anchors.x e.source g) ++ ","
        ++ Scalar.oneDecimal (g.anchorY + g.arcDepth slot))
      ++ " " ++ (Scalar.oneDecimal (anchors.x e.target g) ++ ","
        ++ Scalar.oneDecimal (g.anchorY + g.arcDepth slot)), ?_⟩
    simp only [ofEdge, arcPath, String.append_assoc]
  labelX := rfl

end Arrow

namespace ArrowLayout

variable [Scalar α] {frames : List Frame} {g : ArrowGeometry α} {anchors : FrameAnchors α} {a : Arrow α}

/-- An arrow leads from the anchor of its source to the anchor of its target. -/
theorem sourceX_of_mem_compute (h : a ∈ (compute frames g anchors).arrows) :
    a.sourceX = anchors.x a.source g := by
  obtain ⟨e, -, slot, rfl⟩ := mem_compute_arrows h
  rfl

theorem pointsTo_of_mem_compute (h : a ∈ (compute frames g anchors).arrows) :
    a.PointsTo g (anchors.x a.target g) := by
  obtain ⟨e, -, slot, rfl⟩ := mem_compute_arrows h
  exact Arrow.pointsTo_ofEdge g anchors (levelsByIndex frames) e slot

/-- Every arrow starts from a frame of the list. -/
theorem source_of_mem_compute (h : a ∈ (compute frames g anchors).arrows) :
    ∃ f ∈ frames, f.index = a.source := by
  have hpair : (a.source, a.target) ∈ FrameAtlas.references frames := by
    rw [← compute_arrows_map_pair frames g anchors]
    exact List.mem_map.2 ⟨a, h, rfl⟩
  obtain ⟨f, hf, hindex, -⟩ := (mem_references _ _ _).1 hpair
  exact ⟨f, hf, hindex⟩

end ArrowLayout

end FrameAtlas
