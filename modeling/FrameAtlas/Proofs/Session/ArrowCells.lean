import FrameAtlas.Proofs.Arrow.Anchors
import FrameAtlas.Proofs.ReferenceGraph
import FrameAtlas.Proofs.Session.Memo
import FrameAtlas.Proofs.Strip

namespace FrameAtlas.Session

variable {α : Type} [Scalar α]

def cellCenter? (s : Session α) (v : Viewport α) (index : UInt32) : Option α :=
  (s.frames.findIdx? fun f => f.index == index).bind fun p =>
    ((s.stripLayout v).elements[p]?).map Rect.centerX

def cellCenters (s : Session α) (v : Viewport α) : List (UInt32 × α) :=
  s.frames.zipWith (fun f r => (f.index, r.centerX)) (s.stripLayout v).elements

theorem length_stripLayout (s : Session α) (v : Viewport α) :
    (s.stripLayout v).elements.length = s.frames.length :=
  Strip.length_elements_compute _ _ _

theorem cellCenters_map_fst (s : Session α) (v : Viewport α) :
    (s.cellCenters v).map (·.1) = s.frames.map Frame.index := by
  have hframes : (s.frames.zip (s.stripLayout v).elements).map (·.1) = s.frames :=
    List.map_fst_zip (Nat.le_of_eq (length_stripLayout s v).symm)
  conv_rhs => rw [← hframes]
  rw [cellCenters, List.map_zipWith, List.map_map, List.map_zip_eq_zipWith]
  rfl

theorem cellCenters_map_snd (s : Session α) (v : Viewport α) :
    (s.cellCenters v).map (·.2) = (s.stripLayout v).elements.map Rect.centerX := by
  have helements : (s.frames.zip (s.stripLayout v).elements).map (·.2) = (s.stripLayout v).elements :=
    List.map_snd_zip (Nat.le_of_eq (length_stripLayout s v))
  conv_rhs => rw [← helements]
  rw [cellCenters, List.map_zipWith, List.map_map, List.map_zip_eq_zipWith]
  rfl

/-- An index has its anchor at the center of the cell of its first frame. -/
theorem get?_arrowAnchors (s : Session α) (v : Viewport α) (index : UInt32) :
    (s.arrowAnchors v).centers.get? index = s.cellCenter? v index := by
  -- Frames and cells are zipped, so an index and its cell stand at one position.
  have hposition : (s.cellCenters v).findIdx? (fun e => e.1 == index) =
      s.frames.findIdx? fun f => f.index == index := by
    have hmap := congrArg (List.findIdx? fun i => i == index) (cellCenters_map_fst s v)
    rwa [List.findIdx?_map, List.findIdx?_map] at hmap
  have hcenter (p : Nat) : ((s.cellCenters v)[p]?).map (·.2) =
      ((s.stripLayout v).elements[p]?).map Rect.centerX := by
    rw [← List.getElem?_map, ← List.getElem?_map, cellCenters_map_snd]
  show (IndexMap.ofFirst (s.cellCenters v)).get? index = _
  rw [IndexMap.get?_ofFirst, List.find?_eq_bind_findIdx?_getElem?, hposition, Option.map_bind,
    cellCenter?]
  exact congrArg _ (funext hcenter)

/-- Just the frames of the list have cells. -/
theorem isSome_cellCenter? (s : Session α) (v : Viewport α) (index : UInt32) :
    (s.cellCenter? v index).isSome ↔ ∃ f ∈ s.frames, f.index = index := by
  have h := FrameAnchors.isSome_get?_ofCenters (s.cellCenters v) index
  rw [cellCenters_map_fst, List.mem_map] at h
  rw [← get?_arrowAnchors]
  exact h

/-- An index of the list hangs at the center of its cell. -/
theorem cellCenter?_eq_x (s : Session α) (v : Viewport α) {index : UInt32}
    (h : ∃ f ∈ s.frames, f.index = index) :
    s.cellCenter? v index = some ((s.arrowAnchors v).x index (s.arrowGeometry v)) := by
  obtain ⟨x, hx⟩ := Option.isSome_iff_exists.1 ((isSome_cellCenter? s v index).2 h)
  have hget : (s.arrowAnchors v).centers.get? index = some x := by rw [get?_arrowAnchors, hx]
  rw [hx, FrameAnchors.x_of_get?_eq_some hget]

/-- How an arrow stands to the cells of the strip drawn with it. -/
structure FollowsCells (s : Session α) (v : Viewport α) (a : Arrow α) : Prop where
  source : s.cellCenter? v a.source = some a.sourceX
  resolved_iff : a.resolved = true ↔ ∃ f ∈ s.frames, f.index = a.target
  target : a.resolved = true →
    ∃ x, s.cellCenter? v a.target = some x ∧ a.PointsTo (s.arrowGeometry v) x
  /-- A target outside the list is placed from the nearest frame below it, a pitch for each index. -/
  target_above : a.resolved = false → (∃ f ∈ s.frames, f.index < a.target) →
    ∃ known x, IsNearestBelow (s.frames.map Frame.index) a.target known ∧
      s.cellCenter? v known = some x ∧
      a.PointsTo (s.arrowGeometry v)
        (x + ((a.target.toNat - known.toNat : Nat) : α) * (s.arrowGeometry v).framePitch)
  /-- Where no frame is below it, it is placed from the nearest one above. -/
  target_below : a.resolved = false → (¬ ∃ f ∈ s.frames, f.index < a.target) →
    ∃ known x, IsNearestAbove (s.frames.map Frame.index) a.target known ∧
      s.cellCenter? v known = some x ∧
      a.PointsTo (s.arrowGeometry v)
        (x - ((known.toNat - a.target.toNat : Nat) : α) * (s.arrowGeometry v).framePitch)

/-- The arrows of a layout follow the cells that its anchors were taken from. -/
theorem followsCells_compute (s : Session α) (v : Viewport α) {a : Arrow α}
    (ha : a ∈ (ArrowLayout.compute s.frames (s.arrowGeometry v) (s.arrowAnchors v)).arrows) :
    s.FollowsCells v a := by
  have hresolved : a.resolved = true ↔ ∃ f ∈ s.frames, f.index = a.target := by
    rw [resolved_eq_contains ha, List.contains_iff_mem, List.mem_map]
  have hpoints := ArrowLayout.pointsTo_of_mem_compute ha
  have hunlisted (htarget : a.resolved = false) : a.target ∉ (s.cellCenters v).map (·.1) := by
    rw [cellCenters_map_fst, List.mem_map, ← hresolved, htarget]
    decide
  refine ⟨?_, hresolved, ?_, ?_, ?_⟩
  · rw [cellCenter?_eq_x s v (ArrowLayout.source_of_mem_compute ha),
      ArrowLayout.sourceX_of_mem_compute ha]
  · intro htarget
    exact ⟨_, cellCenter?_eq_x s v (hresolved.1 htarget), hpoints⟩
  · intro htarget hlower
    have hbelow : ∃ i ∈ (s.cellCenters v).map (·.1), i < a.target := by
      rw [cellCenters_map_fst]
      simpa using hlower
    obtain ⟨known, x, hnearest, hget, hx⟩ :=
      FrameAnchors.x_ofCenters_of_below (hunlisted htarget) hbelow (s.arrowGeometry v)
    rw [cellCenters_map_fst] at hnearest
    exact ⟨known, x, hnearest, (get?_arrowAnchors s v known).symm.trans hget, hx ▸ hpoints⟩
  · intro htarget hlower
    have hcenters : s.cellCenters v ≠ [] := by
      intro hnil
      obtain ⟨f, hf, -⟩ := ArrowLayout.source_of_mem_compute ha
      have hmem : f.index ∈ (s.cellCenters v).map (·.1) := by
        rw [cellCenters_map_fst]
        exact List.mem_map.2 ⟨f, hf, rfl⟩
      rw [hnil] at hmem
      contradiction
    have hbelow : ∀ i ∈ (s.cellCenters v).map (·.1), ¬ i < a.target := by
      rw [cellCenters_map_fst]
      intro i hi hlt
      obtain ⟨f, hf, rfl⟩ := List.mem_map.1 hi
      exact hlower ⟨f, hf, hlt⟩
    obtain ⟨known, x, hnearest, hget, hx⟩ :=
      FrameAnchors.x_ofCenters_of_above (hunlisted htarget) hcenters hbelow (s.arrowGeometry v)
    rw [cellCenters_map_fst] at hnearest
    exact ⟨known, x, hnearest, (get?_arrowAnchors s v known).symm.trans hget, hx ▸ hpoints⟩

/-- What holds of the arrows laid out anew holds of those that a memo gives back. -/
theorem followsCells_arrowsFocused (hexact : HasExactKeys α) (events : List (SessionEvent α))
    (hlists : OneListPerIdentity events) (v : Viewport α) (focus : Option UInt32) :
    let s := (new : Session α).after events
    ∀ a ∈ (s.arrowsFocused v focus).1.layout.arrows, s.FollowsCells v a := by
  intro s a ha
  have harrows := arrowsFocused_after hexact hlists v focus
  rw [harrows] at ha
  exact followsCells_compute s v ha

end FrameAtlas.Session
