import FrameAtlas.Proofs.Session.Rebuilding
import FrameAtlas.Proofs.Surface.GroupLines
import FrameAtlas.Scalar.Exact

namespace FrameAtlas.Session

variable {α : Type} [Scalar α]

/-- How the surfaces of a session mark the starts of groups in a viewport, one line for each in an order of their
own. -/
structure MarksGroupStarts (s : Session α) (v : Viewport α) : Prop where
  timeline : List.Forall₂ (MarksCell (s.render .timeline v).1 Rect.x) (groupStarts s.frames)
    (boundaryLines (s.render .timeline v).1)
  minimap : v.HasArea → List.Forall₂
    (fun p c => LineCommand.IsUprightAt c (Minimap.positionX v (v.width / (s.length : α)) p.2))
    (positionedStarts s.frames) (boundaryLines (s.render .minimap v).1)
  pyramid : List.Forall₂ (MarksCell (s.render .pyramid v).1 Rect.x) (orderedStarts s.frames)
    (boundaryLines (s.render .pyramid v).1)
  filmstrip : List.Forall₂ (MarksCell (s.render .filmstrip v).1 Filmstrip.gapX)
    ((Minimap.slice s.frames (Filmstrip.shown s.frames v (s.render .filmstrip v).2.currentPosition)).filter
      fun f => StartsGroup s.frames f)
    (boundaryLines (s.render .filmstrip v).1)

/-- All four surfaces mark the starts of groups, in whatever order they draw. -/
theorem Derived.marksGroupStarts {s : Session α} (hs : s.Derived)
    (hdistinct : (s.frames.map Frame.index).Nodup) (v : Viewport α) : s.MarksGroupStarts v := by
  have hanalysis : s.synced.analysis = analyze s.frames := hs.analysis
  refine ⟨?timeline, ?minimap, ?pyramid, ?filmstrip⟩
  case timeline =>
    have hstrip : (s.synced.stripLayout v).elements.length = s.frames.length :=
      Strip.length_elements_compute _ _ _
    have hdrawn : (s.render .timeline v).1 = (s.synced.renderTimeline v).1 := rfl
    rw [hdrawn, renderTimeline_eq, hanalysis]
    exact marks_groupStarts_timeline hdistinct hstrip _ _ _
  case minimap =>
    intro hv
    show List.Forall₂ _ _ (boundaryLines (Minimap.render s.frames s.synced.analysis v _ _))
    rw [hanalysis]
    exact marks_positionedStarts_minimap hdistinct hv _ _
  case pyramid =>
    have hdrawn : (s.render .pyramid v).1 =
        Pyramid.render s.synced.analysis v (s.synced.currentFrame.map Frame.index) := rfl
    rw [hdrawn, hanalysis]
    exact Pyramid.marks_orderedStarts hdistinct v _
  case filmstrip =>
    have hdrawn : (s.render .filmstrip v).1 =
        Filmstrip.render s.frames s.synced.analysis v s.synced.currentPosition := rfl
    rw [hdrawn, hanalysis]
    exact Filmstrip.marks_groupStarts hdistinct v _

/-- All surfaces mark the same starts of groups. After every history that leaves a list of distinct indices, the
lines in the color of group boundaries stand for the keyframes of the list and its frame of the lowest index, one
line for each: in the order of the list at the left edges of their cells in the timeline and at their positions in
the minimap, in the order of indices at the left edges of their columns in the pyramid, and in the order of the list
before the cards of those shown in the filmstrip. So there are as many as groups on all surfaces that show the whole
list. -/
theorem surfaces_mark_same_group_starts (events : List (SessionEvent α)) (v : Viewport α)
    (hdistinct : (((new : Session α).after events).frames.map Frame.index).Nodup) :
    let s := (new : Session α).after events
    s.MarksGroupStarts v ∧
      (orderedStarts s.frames).Perm (groupStarts s.frames) ∧
      (orderedStarts s.frames).Pairwise (fun f g => f.index < g.index) ∧
      (positionedStarts s.frames).map Prod.fst = groupStarts s.frames ∧
      (boundaryLines (s.render .timeline v).1).length = s.analysis.gops.length ∧
      (v.HasArea → (boundaryLines (s.render .minimap v).1).length = s.analysis.gops.length) ∧
      (boundaryLines (s.render .pyramid v).1).length = s.analysis.gops.length := by
  intro s
  have hs : s.Derived := derived_new.after events
  have hmarks : s.MarksGroupStarts v := hs.marksGroupStarts hdistinct v
  have hgops : s.analysis.gops.length = (groupStarts s.frames).length := by
    rw [hs.analysis]
    exact length_gops hdistinct
  have hpositions := map_fst_positionedStarts s.frames
  refine ⟨hmarks, orderedStarts_perm s.frames, orderedStarts_ascending hdistinct, hpositions, ?_, ?_, ?_⟩
  · rw [hgops]
    exact hmarks.timeline.length_eq.symm
  · intro hv
    rw [hgops, ← hpositions, List.length_map]
    exact (hmarks.minimap hv).length_eq.symm
  · rw [hgops, ← (orderedStarts_perm s.frames).length_eq]
    exact hmarks.pyramid.length_eq.symm

/-- A list that is not in the order of its indices, with a keyframe at neither end. -/
theorem surfaces_mark_same_group_starts_of_unsorted :
    let list : Snapshot :=
      ⟨1, [{ index := 7 }, { index := 9, kind := .intra }, { index := 2 }, { index := 4, kind := .intra }]⟩
    let v : Viewport Rat := .sized 120 40
    let s := (new : Session Rat).after [.replace list]
    (s.frames.map Frame.index).Nodup ∧ v.HasArea ∧
      (groupStarts s.frames).map Frame.index = [9, 2, 4] ∧
      (boundaryLines (s.render .timeline v).1).map (fun c => c.start.x) = [30, 60, 90] ∧
      s.MarksGroupStarts v ∧ (boundaryLines (s.render .minimap v).1).length = 3 ∧
      (boundaryLines (s.render .pyramid v).1).length = 3 := by
  intro list v s
  have hdistinct : (s.frames.map Frame.index).Nodup := by decide +kernel
  have hv : v.HasArea := by
    constructor <;> decide +kernel
  have hgops : s.analysis.gops.length = 3 := by decide +kernel
  obtain ⟨hmarks, -, -, -, -, hminimap, hpyramid⟩ := surfaces_mark_same_group_starts [.replace list] v hdistinct
  exact ⟨hdistinct, hv, by decide +kernel, by decide +kernel, hmarks, (hminimap hv).trans hgops,
    hpyramid.trans hgops⟩

end FrameAtlas.Session
