import FrameAtlas.Proofs.Cursor.Commit
import FrameAtlas.Proofs.Session.Rebuilding

namespace FrameAtlas

namespace Session

variable {α : Type}

structure SameStanding (s t : Session α) : Prop where
  highlighted : t.cursor.highlighted = s.cursor.highlighted
  drag : t.cursor.drag = s.cursor.drag
  selection : t.selection = s.selection

theorem SameStanding.refl (s : Session α) : s.SameStanding s := ⟨rfl, rfl, rfl⟩

theorem SameStanding.trans {s t u : Session α} (hst : s.SameStanding t) (htu : t.SameStanding u) :
    s.SameStanding u where
  highlighted := htu.highlighted.trans hst.highlighted
  drag := htu.drag.trans hst.drag
  selection := htu.selection.trans hst.selection

/-- Sessions that stand alike show the same position as current. -/
theorem SameStanding.currentPosition {s t : Session α} (h : s.SameStanding t) (hl : s.SameList t) :
    t.currentPosition = s.currentPosition := by
  rw [Session.currentPosition, Session.currentPosition, h.highlighted, hl.length]

theorem SameStanding.currentFrame {s t : Session α} (h : s.SameStanding t) (hl : s.SameList t) :
    t.currentFrame = s.currentFrame := by
  rw [Session.currentFrame, Session.currentFrame, h.currentPosition hl, hl.frames]

theorem lt_length_of_currentPosition {s : Session α} {p : Nat} (h : s.currentPosition = some p) :
    p < s.length := by
  unfold currentPosition at h
  split at h
  · rename_i hlt
    rw [← Option.some.inj h]
    exact hlt
  · contradiction

theorem sameList_synced (s : Session α) : s.SameList s.synced :=
  sameList_cursor s (Cursor.keeps_syncFrom _ _).frameCount _

/-- Outside a drag a session stands where its selection is, if that lies in the list. -/
theorem currentPosition_synced {s : Session α} {c : Nat} (hdrag : s.cursor.drag = none)
    (hc : s.selection.current = some c) :
    s.synced.currentPosition = if c < s.length then some c else none := by
  have hhighlighted : s.synced.cursor.highlighted = c := Cursor.highlighted_syncFrom hdrag hc
  rw [currentPosition, hhighlighted, (sameList_synced s).length]

variable [Scalar α]

theorem sameStanding_trackStrip (s : Session α) (v : Viewport α) :
    s.SameStanding (s.trackStrip v).2 := by
  unfold trackStrip
  simp only
  split
  · exact SameStanding.refl s
  · exact ⟨rfl, rfl, rfl⟩

theorem sameStanding_arrowsFocused (s : Session α) (v : Viewport α) (focus : Option UInt32) :
    s.SameStanding (s.arrowsFocused v focus).2 := ⟨rfl, rfl, rfl⟩

/-- Drawing the timeline moves nothing. -/
theorem sameStanding_renderTimeline (s : Session α) (v : Viewport α) :
    s.SameStanding (s.renderTimeline v).2 := by
  have htrack := sameStanding_trackStrip s v
  have hready : s.SameStanding (s.readyForArrows v) :=
    htrack.trans ⟨Cursor.highlighted_x _ _, Cursor.drag_x _ _, rfl⟩
  rw [renderTimeline_eq]
  exact hready.trans (sameStanding_arrowsFocused _ v _)

/-- After the cursor is put where the selection is, drawing leaves it there. -/
theorem sameStanding_render (s : Session α) (surface : SurfaceKind) (v : Viewport α) :
    s.synced.SameStanding (s.render surface v).2 := by
  cases surface with
  | timeline => exact sameStanding_renderTimeline s.synced v
  | minimap => exact SameStanding.refl s.synced
  | pyramid => exact SameStanding.refl s.synced
  | filmstrip => exact SameStanding.refl s.synced

theorem sameList_synced_render (s : Session α) (surface : SurfaceKind) (v : Viewport α) :
    s.synced.SameList (s.render surface v).2 :=
  (sameList_synced s).symm.trans (sameList_render s surface v)

end Session

end FrameAtlas
