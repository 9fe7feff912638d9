import FrameAtlas.Proofs.Session.Derived

namespace FrameAtlas.Session

variable {α : Type} {s t : Session α}

structure Alike (s t : Session α) : Prop where
  frames : t.frames = s.frames
  sizing : t.sizing = s.sizing
  visibleRange : t.visibleRange = s.visibleRange
  highlighted : t.cursor.highlighted = s.cursor.highlighted

theorem Alike.length (h : s.Alike t) : t.length = s.length := by
  rw [Session.length, Session.length, h.frames]

theorem Alike.currentPosition (h : s.Alike t) : t.currentPosition = s.currentPosition := by
  simp only [Session.currentPosition, h.highlighted, h.length]

theorem Alike.currentFrame (h : s.Alike t) : t.currentFrame = s.currentFrame := by
  rw [Session.currentFrame, Session.currentFrame, h.currentPosition, h.frames]

def synced (s : Session α) : Session α := { s with cursor := s.cursor.syncFrom s.selection }

variable [Scalar α]

/-- What a surface shows of a session, everything computed anew. -/
def picture (s : Session α) (surface : SurfaceKind) (v : Viewport α) : List (Command α) :=
  match surface with
  | .timeline =>
    Timeline.render s.frames (analyze s.frames) (s.stripLayout v) s.currentPosition
        (s.cursor.measure (s.stripLayout v).bounds)
      ++ Overlay.render ⟨ArrowLayout.compute s.frames (s.arrowGeometry v) (s.arrowAnchors v),
          s.currentFrame.map Frame.index⟩
  | .minimap =>
    Minimap.render s.frames (analyze s.frames) v (s.visibleRange.getD ⟨0, s.length⟩) s.currentPosition
  | .pyramid => Pyramid.render (analyze s.frames) v (s.currentFrame.map Frame.index)
  | .filmstrip => Filmstrip.render s.frames (analyze s.frames) v s.currentPosition

namespace Alike

/-- Sessions that look alike lay out the same strip. -/
theorem stripLayout (h : s.Alike t) (v : Viewport α) : t.stripLayout v = s.stripLayout v := by
  rw [Session.stripLayout, Session.stripLayout, h.frames, h.sizing]

theorem arrowGeometry (h : s.Alike t) (v : Viewport α) : t.arrowGeometry v = s.arrowGeometry v := by
  rw [Session.arrowGeometry, Session.arrowGeometry, h.length]

theorem arrowAnchors (h : s.Alike t) (v : Viewport α) : t.arrowAnchors v = s.arrowAnchors v := by
  rw [Session.arrowAnchors, Session.arrowAnchors, h.frames, h.stripLayout v]

/-- In sessions that look alike the cursor is measured alike. -/
theorem measure (h : s.Alike t) (hs : s.Derived) (ht : t.Derived) (bounds : StripBounds α) :
    t.cursor.measure bounds = s.cursor.measure bounds := by
  have hcount : t.cursor.frameCount = s.cursor.frameCount := by
    rw [ht.frameCount, hs.frameCount, h.length]
  exact Cursor.measure_congr hcount h.highlighted bounds

/-- What can be seen of a session settles every picture of it. -/
theorem picture (h : s.Alike t) (hs : s.Derived) (ht : t.Derived) (surface : SurfaceKind)
    (v : Viewport α) : t.picture surface v = s.picture surface v := by
  cases surface with
  | timeline =>
    simp only [Session.picture, h.frames, h.stripLayout v, h.currentPosition, h.currentFrame,
      h.arrowGeometry v, h.arrowAnchors v, h.measure hs ht]
  | minimap => simp only [Session.picture, h.frames, h.visibleRange, h.length, h.currentPosition]
  | pyramid => simp only [Session.picture, h.frames, h.currentFrame]
  | filmstrip => simp only [Session.picture, h.frames, h.currentPosition]

end Alike

theorem alike_trackStrip (s : Session α) (v : Viewport α) : s.Alike (s.trackStrip v).2 := by
  unfold trackStrip
  simp only
  split <;> exact ⟨rfl, rfl, rfl, rfl⟩

end FrameAtlas.Session
