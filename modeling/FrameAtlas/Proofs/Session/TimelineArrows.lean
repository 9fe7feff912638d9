import FrameAtlas.Proofs.Arrow.Extent
import FrameAtlas.Proofs.ReferenceGraph
import FrameAtlas.Proofs.Session.Memo
import FrameAtlas.Proofs.Session.Standing
import FrameAtlas.Proofs.Surface.Paths

namespace FrameAtlas

/-- There are references if a frame has some. -/
theorem references_ne_nil_iff (frames : List Frame) :
    references frames ≠ [] ↔ ∃ f ∈ frames, f.refs ≠ [] := by
  simp only [references, ne_eq, List.flatMap_eq_nil_iff, List.map_eq_nil_iff, not_forall, exists_prop]

namespace Session

variable {α : Type}

theorem currentFrame_map_index_eq_some (s : Session α) (index : UInt32) :
    s.currentFrame.map Frame.index = some index ↔
      ∃ p f, s.currentPosition = some p ∧ s.frames[p]? = some f ∧ f.index = index := by
  simp only [currentFrame, Option.map_eq_some_iff, Option.bind_eq_some_iff]
  constructor
  · rintro ⟨f, ⟨p, hp, hf⟩, hindex⟩
    exact ⟨p, f, hp, hf, hindex⟩
  · rintro ⟨p, f, hp, hf, hindex⟩
    exact ⟨f, ⟨p, hp, hf⟩, hindex⟩

/-- How the path of a reference is drawn: from its source, visible if that is the current frame, and
dashed if its target is not in the list. -/
structure ShowsReference (s : Session α) (r : UInt32 × UInt32) (c : PathCommand α) : Prop where
  source : c.sourceFrame = some r.1
  visible_iff : c.visible = true ↔
    ∃ p f, s.currentPosition = some p ∧ s.frames[p]? = some f ∧ f.index = r.1
  dashed_iff : c.dashed = true ↔ ∀ f ∈ s.frames, f.index ≠ r.2

theorem ShowsReference.of_same {s t : Session α} {r : UInt32 × UInt32} {c : PathCommand α}
    (h : s.ShowsReference r c) (hframes : t.frames = s.frames)
    (hposition : t.currentPosition = s.currentPosition) : t.ShowsReference r c where
  source := h.source
  visible_iff := by rw [hframes, hposition, h.visible_iff]
  dashed_iff := by rw [hframes, h.dashed_iff]

variable [Scalar α]

theorem margin_arrowGeometry (s : Session α) (v : Viewport α) :
    (s.arrowGeometry v).margin = ((8 : Nat) : α) := by
  show (ArrowGeometry.forViewport v.width s.length).margin = _
  unfold ArrowGeometry.forViewport
  split <;> rfl

/-- A timeline is made of its cells, which have neither paths nor a group of that name, and of the arrows
as they would be laid out now. -/
theorem Remembers.renderTimeline_split {src : Sources α} {s : Session α} (hs : s.Remembers src)
    {v : Viewport α} (hk : s.layoutKey v ∈ src.keys) :
    ∃ cells, (s.renderTimeline v).1 = cells ++ Overlay.render
        ⟨ArrowLayout.compute s.frames (s.arrowGeometry v) (s.arrowAnchors v),
          s.currentFrame.map Frame.index⟩ ∧
      pathsOf cells = [] ∧ "arrows" ∉ groupIds cells := by
  have halike := alike_readyForArrows s v
  have hready : (s.readyForArrows v).Remembers src := (hs.trackStrip v).of_same rfl rfl
  have hkey : (s.readyForArrows v).layoutKey v ∈ src.keys := by rwa [layoutKey_readyForArrows]
  rw [renderTimeline_eq, arrows, hready.arrowsFocused_eq hkey, halike.frames, halike.arrowGeometry v,
    halike.arrowAnchors v, halike.currentFrame]
  refine ⟨_, rfl, Timeline.pathsOf_render _ _ _ _ _, ?_⟩
  intro hgroup
  have hother := Timeline.groupIds_render_subset _ _ _ _ _ hgroup
  exact absurd hother (by decide)

/-- An arrow of the layout is drawn as the path of its reference. -/
theorem showsReference_of_arrowPath {s : Session α} {g : ArrowGeometry α} {anchors : FrameAnchors α}
    {a : Arrow α} (ha : a ∈ (ArrowLayout.compute s.frames g anchors).arrows) {c : PathCommand α}
    (hc : Overlay.arrowPath ⟨ArrowLayout.compute s.frames g anchors, s.currentFrame.map Frame.index⟩ a =
      .path c) :
    s.ShowsReference (a.source, a.target) c := by
  obtain rfl := Command.path.inj hc
  refine ⟨rfl, ?_, ?_⟩
  · show (s.currentFrame.map Frame.index == some a.source) = true ↔ _
    rw [beq_iff_eq, currentFrame_map_index_eq_some]
  · show (!a.resolved) = true ↔ _
    have hlisted : a.resolved = true ↔ ∃ f ∈ s.frames, f.index = a.target := by
      rw [resolved_eq_contains ha, List.contains_iff_mem, List.mem_map]
    rw [Bool.not_eq_true', ← Bool.not_eq_true, hlisted]
    simp only [not_exists, not_and, ne_eq]

/-- In exact numbers an overlay draws every reference. -/
theorem forall₂_showsReference_overlay (s : Session Rat) {g : ArrowGeometry Rat} (hmargin : 0 < g.margin)
    (anchors : FrameAnchors Rat) :
    List.Forall₂ s.ShowsReference (FrameAtlas.references s.frames)
      (pathsOf (Overlay.render
        ⟨ArrowLayout.compute s.frames g anchors, s.currentFrame.map Frame.index⟩)) := by
  let layout := ArrowLayout.compute s.frames g anchors
  let focused : FocusedArrows Rat := ⟨layout, s.currentFrame.map Frame.index⟩
  have hpairs : layout.arrows.map (fun a => (a.source, a.target)) = FrameAtlas.references s.frames :=
    ArrowLayout.compute_arrows_map_pair s.frames g anchors
  have hshown : layout.isRenderable = true ↔ FrameAtlas.references s.frames ≠ [] :=
    ArrowLayout.isRenderable_compute s.frames hmargin
  by_cases hnone : FrameAtlas.references s.frames = []
  · have hhidden : layout.isRenderable = false := by
      rw [← Bool.not_eq_true, hshown]
      exact not_not_intro hnone
    rw [hnone, Overlay.render_eq_nil hhidden]
    exact .nil
  · have hpaths : List.Forall₂ (fun a c => Overlay.arrowPath focused a = .path c) layout.arrows
        (pathsOf (Overlay.render focused)) := Overlay.forall₂_pathsOf_render (hshown.2 hnone)
    have hlisted := (List.forall₂_and_left _ _).2 ⟨fun a ha => ha, hpaths⟩
    rw [← hpairs, List.forall₂_map_left_iff]
    exact hlisted.imp fun a c h => showsReference_of_arrowPath h.1 h.2

/-- A timeline never drops an arrow and never shows the wrong ones. After every history and in every
viewport it has a path for every reference of the list, in order, drawn for the current position; the
group of arrows is there if the list has a reference at all. -/
theorem timeline_shows_references (events : List (SessionEvent Rat)) (hlists : OneListPerIdentity events)
    (v : Viewport Rat) :
    let s := (new : Session Rat).after events
    let commands := (s.render .timeline v).1
    let t := (s.render .timeline v).2
    List.Forall₂ t.ShowsReference (FrameAtlas.references s.frames) (pathsOf commands) ∧
      ("arrows" ∈ groupIds commands ↔ ∃ f ∈ s.frames, f.refs ≠ []) := by
  intro s commands t
  let g := s.synced.arrowGeometry v
  have hmargin : 0 < g.margin := by
    rw [margin_arrowGeometry]
    decide
  have hexact : HasExactKeys Rat := hasExactKeys_of_lawfulBEq
  have hremembers : s.synced.Remembers (historySources hexact hlists) :=
    (remembers_after hexact hlists).of_same rfl rfl
  have hkey := layoutKey_mem_historySources hexact hlists s.synced v
  obtain ⟨cells, hsplit, hpaths, hgroups⟩ := hremembers.renderTimeline_split hkey
  have hcommands : commands = cells ++ Overlay.render _ := hsplit
  constructor
  -- The focus is taken before the arrows are drawn, and the drawing does not move it.
  · have hstanding : s.synced.SameStanding t := sameStanding_render s .timeline v
    have hlist : s.synced.SameList t := sameList_synced_render s .timeline v
    have hdrawn := forall₂_showsReference_overlay s.synced hmargin (s.synced.arrowAnchors v)
    rw [hcommands, pathsOf_append, hpaths, List.nil_append]
    exact hdrawn.imp fun r c h => h.of_same hlist.frames (hstanding.currentPosition hlist)
  · rw [hcommands, groupIds_append, List.mem_append, or_iff_right hgroups, Overlay.mem_groupIds_render,
      ← references_ne_nil_iff]
    exact ArrowLayout.isRenderable_compute s.frames hmargin

/-- A timeline far to the left of zero, after the list and the current frame have changed. -/
theorem timeline_shows_references_left_of_zero :
    let list : Snapshot := ⟨1, [{ index := 4, refs := [9, 0] }, { index := 2, refs := [4] }]⟩
    let v : Viewport Rat := ⟨-400, 0, 120, 60, 1⟩
    let events : List (SessionEvent Rat) := [.replace list, .render .timeline v, .select 1]
    let s := (new : Session Rat).after events
    let commands := (s.render .timeline v).1
    let t := (s.render .timeline v).2
    OneListPerIdentity events ∧ t.currentPosition = some 1 ∧ "arrows" ∈ groupIds commands ∧
      List.Forall₂ t.ShowsReference [(4, 9), (4, 0), (2, 4)] (pathsOf commands) := by
  intro list v events s commands t
  have hlists : OneListPerIdentity events := by
    unfold OneListPerIdentity
    decide
  have hframes : s.frames = list.frames := by decide +kernel
  obtain ⟨hpaths, hgroup⟩ := timeline_shows_references events hlists v
  refine ⟨hlists, by decide +kernel, hgroup.2 ?_, ?_⟩
  · rw [hframes]
    exact ⟨_, List.mem_cons_self, by decide⟩
  · rwa [hframes] at hpaths

end Session

end FrameAtlas
