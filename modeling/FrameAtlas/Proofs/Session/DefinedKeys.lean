import FrameAtlas.Proofs.Arrow.Memo
import FrameAtlas.Proofs.Scalar.Double.Zeros
import FrameAtlas.Proofs.Session.ArrowCells
import FrameAtlas.Proofs.Strip.Doubles

namespace FrameAtlas

variable {α : Type}

structure Viewport.IsFinite [Scalar α] (v : Viewport α) : Prop where
  x : Scalar.isFinite v.x = true
  y : Scalar.isFinite v.y = true
  width : Scalar.isFinite v.width = true
  height : Scalar.isFinite v.height = true
  pixelRatio : Scalar.isFinite v.pixelRatio = true

namespace Session

variable [Scalar α]

/-- The centers of a key are centers of cells. -/
theorem mem_centers_of_arrowAnchors (s : Session α) (v : Viewport α) {x : α}
    (hx : x ∈ (s.arrowAnchors v).centers.entries.map Prod.snd) : ∃ r ∈ (s.stripLayout v).elements, r.centerX = x := by
  obtain ⟨e, he, rfl⟩ := List.mem_map.1 hx
  have hmem : e ∈ s.cellCenters v := IndexMap.mem_of_mem_entries_ofFirst he
  have hcenter : e.2 ∈ (s.cellCenters v).map (·.2) := List.mem_map_of_mem hmem
  rw [cellCenters_map_snd] at hcenter
  exact List.mem_map.1 hcenter

end Session

namespace Double

/-- The smaller of two finite doubles is finite. -/
theorem isFinite_smaller {x y : Float} (hx : x.isFinite = true) (hy : y.isFinite = true) :
    (Scalar.smaller x y).isFinite = true := by
  unfold Scalar.smaller
  split
  · exact hy
  · split
    · exact hy
    · exact hx

theorem isUndefined_larger {x y : Float} (hy : Scalar.isUndefined y = false) :
    Scalar.isUndefined (Scalar.larger x y) = false := by
  unfold Scalar.larger
  split
  · exact hy
  · split
    · exact hy
    · rename_i hx
      exact Bool.eq_false_of_not_eq_true hx

theorem isUndefined_natCast (n : Nat) : Scalar.isUndefined (n : Float) = false := by
  apply isUndefined_eq_false
  rw [isNonneg_natCast n]
  exact Option.some_ne_none _

/-- The measures of a viewport are the default ones but for the pitch, which is defined and no zero below zero. -/
theorem forViewport_eq (width : Float) (count : Nat) :
    ∃ pitch : Float, Scalar.isUndefined pitch = false ∧ IsNotNegZero pitch ∧
      ArrowGeometry.forViewport width count = { ArrowGeometry.default with framePitch := pitch } := by
  have hleast : IsPositive ((ArrowGeometry.minPitch : Nat) : Float) := ⟨_, _, by decide, rfl⟩
  unfold ArrowGeometry.forViewport
  split
  · exact ⟨_, isUndefined_larger (isUndefined_natCast ArrowGeometry.minPitch), isNotNegZero_larger hleast, rfl⟩
  · exact ⟨_, isUndefined_natCast 24, (isNonneg_natCast 24).isNotNegZero, rfl⟩

end Double

/-- The numbers of a key: a pitch, the anchor line, the other measures, and centers of cells. -/
theorem Session.numbers_layoutKey (s : Session Float) (v : Viewport Float) :
    ∃ pitch : Float, Scalar.isUndefined pitch = false ∧ Double.IsNotNegZero pitch ∧
      (s.layoutKey v).numbers = pitch :: (s.arrowGeometry v).anchorY :: ([16, 10, 10, 6, 8] : List Nat).map Nat.cast ++
        (s.arrowAnchors v).centers.entries.map Prod.snd := by
  obtain ⟨pitch, hpitch, hzero, hgeometry⟩ := Double.forViewport_eq v.width s.length
  refine ⟨pitch, hpitch, hzero, ?_⟩
  unfold LayoutKey.numbers Session.layoutKey Session.arrowGeometry
  rw [hgeometry]
  rfl

/-- In doubles no finite viewport gives a key an undefined number. -/
theorem Session.isUndefined_layoutKey (s : Session Float) {v : Viewport Float} (hv : v.IsFinite) :
    ∀ x ∈ (s.layoutKey v).numbers, Scalar.isUndefined x = false := by
  obtain ⟨pitch, hpitch, -, hnumbers⟩ := s.numbers_layoutKey v
  intro x hx
  rw [hnumbers, List.mem_append, List.mem_cons, List.mem_cons] at hx
  rcases hx with (rfl | rfl | hmeasure) | hcenter
  · exact hpitch
  · have hy : Double.sign? (Double.parts v.y) ≠ none := (Double.isBoundedBelow_of_isFinite hv.y).1
    apply Double.isUndefined_eq_false
    apply Double.sign?_add_ne_none
    · exact Double.sign?_add_ne_none hy (Double.isFinite_smaller rfl hv.height)
    · rfl
  · obtain ⟨n, -, rfl⟩ := List.mem_map.1 hmeasure
    exact Double.isUndefined_natCast n
  · obtain ⟨r, hr, rfl⟩ := s.mem_centers_of_arrowAnchors v hcenter
    have hbounded := Strip.isBoundedBelow_centerX_compute s.frames hv.x s.sizing r hr
    exact Double.isUndefined_eq_false hbounded.1

end FrameAtlas
