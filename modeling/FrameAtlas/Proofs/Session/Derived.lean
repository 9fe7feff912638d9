import FrameAtlas.Proofs.Cursor.Highlight
import FrameAtlas.Session.Event

namespace FrameAtlas.Session

variable {α : Type}

/-- All that is derived from the list, the number of frames included. -/
structure Derived (s : Session α) : Prop where
  analysis : s.analysis = analyze s.frames
  references : s.references = summarize s.frames
  frameCount : s.cursor.frameCount = s.length

structure SameList (s t : Session α) : Prop where
  snapshot : t.snapshot = s.snapshot
  analysis : t.analysis = s.analysis
  references : t.references = s.references
  frameCount : t.cursor.frameCount = s.cursor.frameCount
  analysisComputations : t.analysisComputations = s.analysisComputations

theorem SameList.refl (s : Session α) : s.SameList s := ⟨rfl, rfl, rfl, rfl, rfl⟩

/-- Inputs that leave the list leave it together, too. -/
theorem SameList.trans {s t u : Session α} (hst : s.SameList t) (htu : t.SameList u) :
    s.SameList u where
  snapshot := htu.snapshot.trans hst.snapshot
  analysis := htu.analysis.trans hst.analysis
  references := htu.references.trans hst.references
  frameCount := htu.frameCount.trans hst.frameCount
  analysisComputations := htu.analysisComputations.trans hst.analysisComputations

theorem SameList.symm {s t : Session α} (h : s.SameList t) : t.SameList s where
  snapshot := h.snapshot.symm
  analysis := h.analysis.symm
  references := h.references.symm
  frameCount := h.frameCount.symm
  analysisComputations := h.analysisComputations.symm

theorem SameList.frames {s t : Session α} (h : s.SameList t) : t.frames = s.frames := by
  rw [Session.frames, Session.frames, h.snapshot]

theorem SameList.length {s t : Session α} (h : s.SameList t) : t.length = s.length := by
  rw [Session.length, Session.length, h.frames]

/-- Another cursor and another selection on the same list. -/
theorem sameList_cursor (s : Session α) {c : Cursor α} (hc : c.frameCount = s.cursor.frameCount)
    (store : SelectionStore) : s.SameList { s with cursor := c, selection := store } :=
  ⟨rfl, rfl, rfl, hc, rfl⟩

theorem Derived.sameList {s t : Session α} (hs : s.Derived) (h : s.SameList t) : t.Derived where
  analysis := by rw [h.analysis, hs.analysis, frames, frames, h.snapshot]
  references := by rw [h.references, hs.references, frames, frames, h.snapshot]
  frameCount := by rw [h.frameCount, hs.frameCount, length, length, frames, frames, h.snapshot]

theorem sameList_setStripSizing (s : Session α) (sizing : StripSizing) :
    s.SameList (s.setStripSizing sizing) := by
  unfold setStripSizing
  split
  · exact SameList.refl s
  · exact ⟨rfl, rfl, rfl, rfl, rfl⟩

theorem Derived.replaceFrames {s : Session α} (hs : s.Derived) (t : Snapshot) :
    (s.replaceFrames t).Derived := by
  unfold Session.replaceFrames
  split
  · exact hs
  · refine ⟨rfl, rfl, ?_⟩
    show (s.cursor.setFrameCount t.frames.length).frameCount = t.frames.length
    unfold Cursor.setFrameCount
    split
    · rename_i h
      exact h.symm
    · rfl

variable [Scalar α]

theorem sameList_trackStrip (s : Session α) (v : Viewport α) : s.SameList (s.trackStrip v).2 := by
  unfold trackStrip
  simp only
  split
  · exact SameList.refl s
  · exact ⟨rfl, rfl, rfl, rfl, rfl⟩

theorem sameList_arrowsFocused (s : Session α) (v : Viewport α) (focus : Option UInt32) :
    s.SameList (s.arrowsFocused v focus).2 := ⟨rfl, rfl, rfl, rfl, rfl⟩

theorem sameList_pointerDown (s : Session α) (x : α) (v : Viewport α) :
    s.SameList (s.pointerDown x v).2 :=
  (sameList_trackStrip s v).trans (sameList_cursor _ (Cursor.keeps_pointerDown _ _ _ _).frameCount _)

theorem sameList_pointerMove (s : Session α) (x : α) (v : Viewport α) :
    s.SameList (s.pointerMove x v).2 := by
  unfold pointerMove
  split
  · exact (sameList_trackStrip s v).trans
      (sameList_cursor _ (Cursor.keeps_pointerMove _ _ _ _).frameCount _)
  · exact SameList.refl s

theorem sameList_renderTimeline (s : Session α) (v : Viewport α) :
    s.SameList (s.renderTimeline v).2 :=
  ((sameList_trackStrip s v).trans
    (sameList_cursor _ (Cursor.frameCount_x _ _) _)).trans (sameList_arrowsFocused _ v _)

theorem sameList_render (s : Session α) (surface : SurfaceKind) (v : Viewport α) :
    s.SameList (s.render surface v).2 := by
  have hsync : s.SameList { s with cursor := s.cursor.syncFrom s.selection } :=
    sameList_cursor s (Cursor.keeps_syncFrom _ _).frameCount _
  cases surface with
  | timeline => exact hsync.trans (sameList_renderTimeline _ v)
  | minimap => exact hsync
  | pyramid => exact hsync
  | filmstrip => exact hsync

/-- Whatever happens to a session, it keeps its list unless it is given another one. -/
theorem sameList_handle (s : Session α) (e : SessionEvent α) (he : ∀ t, e ≠ .replace t) :
    s.SameList (s.handle e).session := by
  cases e with
  | replace t => exact absurd rfl (he t)
  | sizing sizing => exact sameList_setStripSizing s sizing
  | visible range => exact ⟨rfl, rfl, rfl, rfl, rfl⟩
  | select position => exact sameList_cursor s (Cursor.keeps_select _ _ _).frameCount _
  | step direction =>
    exact sameList_cursor s
      ((Cursor.keeps_syncFrom _ _).trans (Cursor.keeps_step _ _ _)).frameCount _
  | pointerDown x v => exact sameList_pointerDown s x v
  | pointerMove x v => exact sameList_pointerMove s x v
  | pointerUp => exact sameList_cursor s (Cursor.keeps_pointerUp _ _).frameCount _
  | commit position => exact sameList_cursor s rfl _
  | clear => exact sameList_cursor s rfl _
  | subscribe => exact sameList_cursor s rfl _
  | unsubscribe id => exact sameList_cursor s rfl _
  | render surface v => exact sameList_render s surface v
  | arrows v => exact sameList_arrowsFocused s v _
  | arrowsFocused v focus => exact sameList_arrowsFocused s v focus

/-- Every event keeps what is derived from the list in step with it. -/
theorem Derived.handle {s : Session α} (hs : s.Derived) (e : SessionEvent α) :
    (s.handle e).session.Derived := by
  by_cases h : ∃ t, e = .replace t
  · obtain ⟨t, rfl⟩ := h
    exact hs.replaceFrames t
  · exact hs.sameList (sameList_handle s e fun t ht => h ⟨t, ht⟩)

/-- At any time all that is derived from the list is what it would be if derived anew. -/
theorem Derived.after {s : Session α} (hs : s.Derived) (events : List (SessionEvent α)) :
    (s.after events).Derived := by
  induction events generalizing s with
  | nil => exact hs
  | cons e rest ih => exact ih (hs.handle e)

theorem derived_new : (new : Session α).Derived := ⟨rfl, rfl, rfl⟩

end FrameAtlas.Session
