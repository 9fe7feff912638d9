import FrameAtlas.Proofs.Session.Soundness
import FrameAtlas.Scalar.Exact

namespace FrameAtlas.Session

variable {α : Type}

theorem sizing_setStripSizing (s : Session α) (sizing : StripSizing) :
    (s.setStripSizing sizing).sizing = sizing := by
  unfold setStripSizing
  split
  · rename_i h
    exact h.symm
  · rfl

theorem drag_setStripSizing (s : Session α) (sizing : StripSizing) :
    (s.setStripSizing sizing).cursor.drag = s.cursor.drag := by
  unfold setStripSizing
  split <;> rfl

variable [Scalar α] {src : Sources α} {s : Session α}

/-- Getting ready for arrows changes nothing that can be seen. -/
theorem alike_readyForArrows (s : Session α) (v : Viewport α) : s.Alike (s.readyForArrows v) where
  frames := (alike_trackStrip s v).frames
  sizing := (alike_trackStrip s v).sizing
  visibleRange := (alike_trackStrip s v).visibleRange
  highlighted := (Cursor.highlighted_x _ _).trans (alike_trackStrip s v).highlighted

theorem renderTimeline_eq (s : Session α) (v : Viewport α) :
    s.renderTimeline v =
      (Timeline.render s.frames s.analysis (s.stripLayout v) s.currentPosition
          ((s.trackStrip v).2.cursor.x (s.stripLayout v).bounds).1
        ++ Overlay.render ((s.readyForArrows v).arrows v).1, ((s.readyForArrows v).arrows v).2) := by
  rw [← (alike_trackStrip s v).frames, ← (sameList_trackStrip s v).analysis]
  rfl

theorem Sound.arrowsFocused_eq (hs : s.Sound src) {v : Viewport α} (hk : s.layoutKey v ∈ src.keys)
    (focus : Option UInt32) :
    (s.arrowsFocused v focus).1 =
      ⟨ArrowLayout.compute s.frames (s.arrowGeometry v) (s.arrowAnchors v), focus⟩ :=
  (hs.explained.layout hs.listed hk focus).1

/-- A sound session draws the timeline that would be drawn with everything computed anew. -/
theorem Sound.renderTimeline_eq_picture (hs : s.Sound src) {v : Viewport α} (hv : v ∈ src.viewports)
    (hk : s.layoutKey v ∈ src.keys) : (s.renderTimeline v).1 = s.picture .timeline v := by
  obtain ⟨ht, htv⟩ := hs.trackStrip hv
  have htrack := alike_trackStrip s v
  have hready := alike_readyForArrows s v
  have hmeasured := (ht.tracked v htv).2
  rw [htrack.stripLayout v] at hmeasured
  have hkey : (s.readyForArrows v).layoutKey v ∈ src.keys := by rwa [layoutKey_readyForArrows]
  have harrows : ((s.readyForArrows v).arrows v).1 =
      ⟨ArrowLayout.compute s.frames (s.arrowGeometry v) (s.arrowAnchors v),
        s.currentFrame.map Frame.index⟩ := by
    rw [arrows, (hs.readyForArrows hv).arrowsFocused_eq hkey, hready.frames, hready.arrowGeometry v,
      hready.arrowAnchors v, hready.currentFrame]
  have hanalysis : s.analysis = analyze s.frames := hs.derived.analysis
  rw [renderTimeline_eq, hmeasured.x_eq, htrack.measure hs.derived ht.derived, harrows, hanalysis]
  rfl

/-- In a session that remembers only what is right, a surface shows what would be computed anew. -/
theorem Sound.render_eq_picture (hs : s.Sound src) {surface : SurfaceKind} {v : Viewport α}
    (hd : s.Draws src (.render surface v)) :
    (s.render surface v).1 = s.synced.picture surface v := by
  have hsync : s.synced.Sound src := hs.cursor (Cursor.keeps_syncFrom s.cursor s.selection) s.selection
  have hanalysis : s.analysis = analyze s.frames := hs.derived.analysis
  cases surface with
  | timeline => exact hsync.renderTimeline_eq_picture hd.1 hd.2
  | minimap =>
    show Minimap.render s.frames s.analysis v _ _ = _
    rw [hanalysis]
    rfl
  | pyramid =>
    show Pyramid.render s.analysis v _ = _
    rw [hanalysis]
    rfl
  | filmstrip =>
    show Filmstrip.render s.frames s.analysis v _ = _
    rw [hanalysis]
    rfl

/-- A brand-new session on a list, given a sizing and a visible range and told of a selection. -/
def rebuilt (t : Snapshot) (sizing : StripSizing) (range : Option PositionRange) (position : Nat) :
    Session α :=
  (ofSnapshot t).after [.sizing sizing, .visible range, .commit position]

theorem frames_ofSnapshot {t : Snapshot}
    (ht : t.identity = Snapshot.initial.identity → t.frames = Snapshot.initial.frames) :
    (ofSnapshot t : Session α).frames = t.frames := by
  unfold ofSnapshot replaceFrames
  split
  · rename_i h
    exact (ht h.symm).symm
  · rfl

theorem drag_ofSnapshot (t : Snapshot) : (ofSnapshot t : Session α).cursor.drag = none := by
  unfold ofSnapshot replaceFrames
  split
  · rfl
  · show ((new : Session α).cursor.setFrameCount t.frames.length).drag = none
    unfold Cursor.setFrameCount
    split <;> rfl

/-- A session rebuilt from what can be told of another one looks like it. -/
theorem alike_rebuilt (s : Session α) {t : Snapshot} (hf : t.frames = s.frames)
    (ht : t.identity = Snapshot.initial.identity → t.frames = Snapshot.initial.frames) :
    s.Alike (rebuilt t s.sizing s.visibleRange s.cursor.highlighted).synced where
  frames := by
    have hz := (sameList_setStripSizing (ofSnapshot t : Session α) s.sizing).snapshot
    have hframes : (ofSnapshot t : Session α).snapshot.frames = t.frames := frames_ofSnapshot ht
    show ((ofSnapshot t : Session α).setStripSizing s.sizing).snapshot.frames = s.frames
    rw [hz, hframes, hf]
  sizing := sizing_setStripSizing _ _
  visibleRange := rfl
  highlighted := by
    apply Cursor.highlighted_syncFrom
    · exact (drag_setStripSizing _ _).trans (drag_ofSnapshot t)
    · exact SelectionStore.current_commit _ _

theorem derived_rebuilt (t : Snapshot) (sizing : StripSizing) (range : Option PositionRange)
    (position : Nat) : (rebuilt t sizing range position : Session α).Derived :=
  (derived_new.replaceFrames t).after _

/-- A rebuilt session draws what it was built from, for it has nothing to remember. -/
theorem render_rebuilt {t : Snapshot}
    (ht : t.identity = Snapshot.initial.identity → t.frames = Snapshot.initial.frames)
    (sizing : StripSizing) (range : Option PositionRange) (position : Nat) (surface : SurfaceKind)
    (v : Viewport α) :
    let r := rebuilt t sizing range position
    (r.render surface v).1 = r.synced.picture surface v := by
  intro r
  -- One list, one viewport and one key: no two of them can be taken for each other.
  let src := Sources.single t ht v (r.layoutKey v)
  have hopen : (ofSnapshot t).IsOpening src := .inr ⟨t, .inr rfl, rfl⟩
  have hr : r.Sound src := hopen.sound.after ⟨trivial, trivial, trivial, trivial⟩
  apply hr.render_eq_picture
  cases surface with
  | timeline => exact ⟨rfl, rfl⟩
  | minimap => trivial
  | pyramid => trivial
  | filmstrip => trivial

/-- Memoization is invisible. A session that has been through any history of events draws every surface
as a brand-new session on its list would, given the same sizing and visible range and told to select the
position that the old session highlights. -/
theorem render_eq_rebuilt (src : Sources α) (start : Session α) (hstart : start.IsOpening src)
    (events : List (SessionEvent α)) (surface : SurfaceKind) (v : Viewport α)
    (hdraws : start.DrawsAll src (events ++ [.render surface v]))
    (fresh : Snapshot) (hfresh : fresh.frames = (start.after events).frames)
    (hidentity : fresh.identity = Snapshot.initial.identity →
      fresh.frames = Snapshot.initial.frames) :
    let s := start.after events
    (s.render surface v).1 =
      ((rebuilt fresh s.sizing s.visibleRange (s.cursor.syncFrom s.selection).highlighted).render
        surface v).1 := by
  intro s
  obtain ⟨hevents, hrender, -⟩ := (drawsAll_append src start events _).1 hdraws
  have hs : s.Sound src := hstart.sound.after hevents
  have halike := alike_rebuilt s.synced hfresh hidentity
  have hderived : s.synced.Derived :=
    hs.derived.sameList (sameList_cursor s (Cursor.keeps_syncFrom _ _).frameCount _)
  let r : Session α := rebuilt fresh s.sizing s.visibleRange s.synced.cursor.highlighted
  have hrebuilt : r.synced.Derived :=
    (derived_rebuilt _ _ _ _).sameList (sameList_cursor _ (Cursor.keeps_syncFrom _ _).frameCount _)
  calc (s.render surface v).1 = s.synced.picture surface v := hs.render_eq_picture hrender
    _ = r.synced.picture surface v := (halike.picture hderived hrebuilt surface v).symm
    _ = (r.render surface v).1 := (render_rebuilt hidentity _ _ _ surface v).symm

/-- A timeline drawn in the middle of a drag, with a layout in the memo that is out of date. -/
theorem render_eq_rebuilt_in_drag :
    let t : Snapshot := ⟨1, [{ index := 0, kind := .intra }, { index := 4, refs := [0, 9] }]⟩
    let v : Viewport Rat := .sized 200 60
    let s := (new : Session Rat).after
      [.replace t, .select 1, .render .timeline v, .pointerDown 10 v, .clear, .sizing .bySize]
    s.selection.current = none ∧ (s.cursor.syncFrom s.selection).highlighted = 0 ∧
      (s.render .timeline v).1 = ((rebuilt t .bySize none 0).render .timeline v).1 := by
  intro t v s
  have hhighlighted : (s.cursor.syncFrom s.selection).highlighted = 0 := by decide +kernel
  have hidentity : t.identity = Snapshot.initial.identity → t.frames = Snapshot.initial.frames := by
    decide
  let src : Sources Rat :=
    Sources.ofLists {Snapshot.initial, t} (.inl rfl) (Sources.exact_pair hidentity)
  have hv : v ∈ src.viewports := Set.mem_univ v
  have hk (k : LayoutKey Rat) : k ∈ src.keys := Set.mem_univ k
  have hdrawn := render_eq_rebuilt src new (.inl rfl)
    [.replace t, .select 1, .render .timeline v, .pointerDown 10 v, .clear, .sizing .bySize]
    .timeline v ⟨.inr rfl, trivial, ⟨hv, hk _⟩, hv, trivial, trivial, ⟨hv, hk _⟩, trivial⟩
    t rfl hidentity
  refine ⟨rfl, hhighlighted, ?_⟩
  rw [← hhighlighted]
  exact hdrawn

end FrameAtlas.Session
