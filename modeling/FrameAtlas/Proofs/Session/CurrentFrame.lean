import FrameAtlas.Proofs.Session.Standing
import FrameAtlas.Proofs.Surface.CurrentMark
import FrameAtlas.Scalar.Exact

namespace FrameAtlas.Session

variable {α : Type} [Scalar α]

/-- What a surface marks as current is the current frame of the session it draws. -/
theorem Derived.currentMarks_render {s : Session α} (hs : s.Derived)
    (hdistinct : (s.frames.map Frame.index).Nodup) (surface : SurfaceKind) {v : Viewport α}
    (hv : surface = .minimap → v.HasArea) :
    currentMarks (s.render surface v).1 = (s.synced.currentFrame.map fun f => some f.index).toList := by
  have hanalysis : s.analysis = analyze s.frames := hs.analysis
  cases surface with
  | timeline =>
    have hstrip : (s.synced.stripLayout v).elements.length = s.frames.length :=
      Strip.length_elements_compute _ _ _
    show currentMarks (s.synced.renderTimeline v).1 = _
    rw [renderTimeline_eq, currentMarks_append, currentMarks_overlay, List.append_nil]
    exact currentMarks_timeline s.frames s.analysis _ hstrip s.synced.currentPosition _
  | minimap =>
    exact currentMarks_minimap s.frames s.analysis (hv rfl) _ s.synced.currentPosition
  | pyramid =>
    show currentMarks (Pyramid.render s.analysis v (s.synced.currentFrame.map Frame.index)) = _
    -- The pyramid is told an index instead of a position; only an index of the list has a cell there.
    have hlisted : ∀ i, s.synced.currentFrame.map Frame.index = some i → i ∈ s.frames.map Frame.index := by
      intro i hi
      obtain ⟨f, hf, rfl⟩ := Option.map_eq_some_iff.1 hi
      obtain ⟨p, -, hp⟩ := Option.bind_eq_some_iff.1 hf
      exact List.mem_map.2 ⟨f, List.mem_of_getElem? hp, rfl⟩
    rw [hanalysis, currentMarks_pyramid hdistinct v hlisted, Option.map_map]
    rfl
  | filmstrip =>
    exact currentMarks_filmstrip s.frames s.analysis v s.synced.currentPosition

/-- All surfaces point at one and the same frame. After every history that leaves a list of distinct
indices, a surface marks the frame at the current position, once, and nothing where there is no current
position; outside a drag the current position is the selected one, if that lies in the list. -/
theorem render_marks_current_frame (events : List (SessionEvent α)) (surface : SurfaceKind)
    (v : Viewport α) (hdistinct : (((new : Session α).after events).frames.map Frame.index).Nodup)
    (hv : surface = .minimap → v.HasArea) :
    let s := (new : Session α).after events
    let commands := (s.render surface v).1
    let t := (s.render surface v).2
    (∀ p, t.currentPosition = some p →
        ∃ f, t.frames[p]? = some f ∧ currentMarks commands = [some f.index]) ∧
      (t.currentPosition = none → currentMarks commands = []) ∧
      (t.cursor.isDragging = false → ∀ c, t.selection.current = some c →
        t.currentPosition = if c < t.length then some c else none) := by
  intro s commands t
  have hs : s.Derived := derived_new.after events
  have hstanding : s.synced.SameStanding t := sameStanding_render s surface v
  have hlist : s.synced.SameList t := sameList_synced_render s surface v
  have hmarks : currentMarks commands = (t.currentFrame.map fun f => some f.index).toList := by
    rw [hstanding.currentFrame hlist]
    exact hs.currentMarks_render hdistinct surface hv
  refine ⟨?_, ?_, ?_⟩
  · intro p hp
    obtain ⟨f, hf⟩ : ∃ f, t.frames[p]? = some f := by
      have hlt : p < t.frames.length := lt_length_of_currentPosition hp
      exact ⟨t.frames[p], List.getElem?_eq_getElem hlt⟩
    refine ⟨f, hf, ?_⟩
    rw [hmarks, currentFrame, hp, Option.bind_some, hf]
    rfl
  · intro hp
    rw [hmarks, currentFrame, hp]
    rfl
  · intro hdrag c hc
    have hopen : s.cursor.drag = none := by
      have hnone : t.cursor.drag = none := by simpa [Cursor.isDragging] using hdrag
      rw [← hnone, hstanding.drag]
      exact (Cursor.drag_syncFrom s.cursor s.selection).symm
    have hselected : s.selection.current = some c := by rw [← hc, hstanding.selection]; rfl
    rw [hstanding.currentPosition hlist, currentPosition_synced hopen hselected, hlist.length,
      (sameList_synced s).length]

/-- A minimap drawn in the middle of a drag marks the frame under the pointer, not the selected one. -/
theorem render_marks_current_frame_in_drag :
    let list : Snapshot := ⟨1, [{ index := 4 }, { index := 0 }, { index := 9 }]⟩
    let v : Viewport Rat := .sized 90 40
    let s := (new : Session Rat).after [.replace list, .select 1, .pointerDown 70 v]
    (s.frames.map Frame.index).Nodup ∧ v.HasArea ∧ s.selection.current = some 1 ∧
      (s.render .minimap v).2.currentPosition = some 2 ∧
      currentMarks (s.render .minimap v).1 = [some 9] := by
  intro list v s
  have hdistinct : (s.frames.map Frame.index).Nodup := by decide +kernel
  have hv : v.HasArea := by
    constructor <;> decide +kernel
  have hposition : (s.render .minimap v).2.currentPosition = some 2 := by decide +kernel
  obtain ⟨f, hf, hmarks⟩ := (render_marks_current_frame [.replace list, .select 1, .pointerDown 70 v]
    .minimap v hdistinct fun _ => hv).1 2 hposition
  have hframe : f = { index := 9 } := by
    have h : (s.render .minimap v).2.frames[2]? = some { index := 9 } := by decide +kernel
    exact Option.some.inj (hf.symm.trans h)
  rw [hframe] at hmarks
  exact ⟨hdistinct, hv, by decide +kernel, hposition, hmarks⟩

end FrameAtlas.Session
