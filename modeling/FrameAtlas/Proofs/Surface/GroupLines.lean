import FrameAtlas.Proofs.Surface.Cards
import FrameAtlas.Proofs.Surface.Cells
import FrameAtlas.Proofs.Temporal.Groups
import Mathlib.Data.List.Forall2

/-!
The lines that mark where groups of pictures start. The timeline, the minimap and the filmstrip look every frame of
the list up among the boundaries, the pyramid looks every boundary up among its columns. Where no two frames have
one index both ways lead to the same frames: the keyframes and the frame of the lowest index.
-/

namespace FrameAtlas

variable {α β : Type}

/-- A group starts at a keyframe, and at the frame that has the lowest index of the list. -/
def StartsGroup (frames : List Frame) (f : Frame) : Prop :=
  f.isKeyframe = true ∨ ∀ g ∈ frames, f.index ≤ g.index

instance (frames : List Frame) : DecidablePred (StartsGroup frames) := fun f =>
  inferInstanceAs (Decidable (f.isKeyframe = true ∨ ∀ g ∈ frames, f.index ≤ g.index))

def groupStarts (frames : List Frame) : List Frame := frames.filter fun f => StartsGroup frames f

def positionedStarts (frames : List Frame) : List (Frame × Nat) :=
  frames.zipIdx.filter fun p => StartsGroup frames p.1

def orderedStarts (frames : List Frame) : List Frame :=
  (groupStarts frames).mergeSort fun f g => decide (f.index ≤ g.index)

theorem mem_groupStarts {frames : List Frame} {f : Frame} :
    f ∈ groupStarts frames ↔ f ∈ frames ∧ StartsGroup frames f := by
  rw [groupStarts, List.mem_filter, decide_eq_true_iff]

theorem orderedStarts_perm (frames : List Frame) : (orderedStarts frames).Perm (groupStarts frames) :=
  List.mergeSort_perm _ _

/-- What is chosen of a list by its elements alone is chosen in the same way of the numbered list. -/
theorem map_fst_filter_zipIdx (chosen : β → Bool) (l : List β) :
    (l.zipIdx.filter fun p => chosen p.1).map Prod.fst = l.filter chosen := by
  have hfilter := List.filter_map (f := Prod.fst) (p := chosen) (l := l.zipIdx)
  rw [List.zipIdx_map_fst] at hfilter
  exact hfilter.symm

theorem map_fst_positionedStarts (frames : List Frame) :
    (positionedStarts frames).map Prod.fst = groupStarts frames :=
  map_fst_filter_zipIdx (fun f => decide (StartsGroup frames f)) frames

/-- Boundaries of an analysis are the indices of frames that start a group. -/
theorem isBoundary_iff_startsGroup {frames : List Frame} (hdistinct : (frames.map Frame.index).Nodup)
    {f : Frame} (hf : f ∈ frames) :
    (analyze frames : TemporalAnalysis α).isBoundary f.index = true ↔ StartsGroup frames f := by
  rw [(analyze_groupsPartition frames).boundary_iff_listed]
  constructor
  · rintro (hlowest | ⟨g, hg, hkeyframe, hindex⟩)
    · exact .inr hlowest.2
    · obtain rfl : g = f := List.inj_on_of_nodup_map hdistinct hg hf hindex
      exact .inl hkeyframe
  · rintro (hkeyframe | hlowest)
    · exact .inr ⟨f, hf, hkeyframe, rfl⟩
    · exact .inl ⟨⟨f, hf, rfl⟩, hlowest⟩

theorem filter_isBoundary {frames : List Frame} (hdistinct : (frames.map Frame.index).Nodup) {frame : β → Frame}
    {l : List β} (hl : ∀ a ∈ l, frame a ∈ frames) :
    (l.filter fun a => (analyze frames : TemporalAnalysis α).isBoundary (frame a).index) =
      l.filter fun a => StartsGroup frames (frame a) := by
  apply List.filter_congr
  intro a ha
  rw [Bool.eq_iff_iff, isBoundary_iff_startsGroup hdistinct (hl a ha), decide_eq_true_iff]

/-- The boundaries are the indices of the frames that start a group, in order. -/
theorem map_index_orderedStarts {frames : List Frame} (hdistinct : (frames.map Frame.index).Nodup) :
    (orderedStarts frames).map Frame.index = gopStarts frames := by
  have hperm : ((orderedStarts frames).map Frame.index).Perm ((groupStarts frames).map Frame.index) :=
    (orderedStarts_perm frames).map _
  have hnodup : ((orderedStarts frames).map Frame.index).Nodup :=
    hperm.nodup_iff.2 (hdistinct.sublist (List.filter_sublist.map _))
  have hmem : ∀ index, index ∈ (orderedStarts frames).map Frame.index ↔ index ∈ gopStarts frames := by
    intro index
    rw [hperm.mem_iff, mem_gopStarts, List.mem_map]
    constructor
    · rintro ⟨f, hf, rfl⟩
      obtain ⟨hlisted, hstarts⟩ := mem_groupStarts.1 hf
      rwa [← (analyze_groupsPartition (α := Rat) frames).boundary_iff_listed,
        isBoundary_iff_startsGroup hdistinct hlisted]
    · intro hlisted
      obtain ⟨f, hf, rfl⟩ := listed_of_mem_gopStarts ((mem_gopStarts frames index).2 hlisted)
      refine ⟨f, mem_groupStarts.2 ⟨hf, ?_⟩, rfl⟩
      rwa [← isBoundary_iff_startsGroup (α := Rat) hdistinct hf,
        (analyze_groupsPartition frames).boundary_iff_listed]
  have hsorted : ((orderedStarts frames).map Frame.index).Pairwise (· ≤ ·) := by
    rw [List.pairwise_map]
    refine (List.pairwise_mergeSort ?_ ?_ (groupStarts frames)).imp fun h => of_decide_eq_true h
    · intro f g h hfg hgh
      rw [decide_eq_true_iff] at hfg hgh ⊢
      exact UInt32.le_trans hfg hgh
    · intro f g
      simpa using UInt32.le_total f.index g.index
  have hstarts : (gopStarts frames).Pairwise (· < ·) := sortedDistinct_ascending _
  have hsame := (List.perm_ext_iff_of_nodup hnodup (sortedDistinct_nodup _)).2 hmem
  exact hsame.eq_of_pairwise (fun _ _ _ _ => UInt32.le_antisymm) hsorted (hstarts.imp UInt32.le_of_lt)

theorem orderedStarts_ascending {frames : List Frame} (hdistinct : (frames.map Frame.index).Nodup) :
    (orderedStarts frames).Pairwise fun f g => f.index < g.index := by
  have hstarts : (gopStarts frames).Pairwise (· < ·) := sortedDistinct_ascending _
  rw [← map_index_orderedStarts hdistinct, List.pairwise_map] at hstarts
  exact hstarts

/-- There are as many groups as frames that start one. -/
theorem length_gops {frames : List Frame} (hdistinct : (frames.map Frame.index).Nodup) :
    (analyze frames : TemporalAnalysis α).gops.length = (groupStarts frames).length := by
  have hstarts := congrArg List.length
    (TemporalAnalysis.spansFrom_map_start (analyze frames : TemporalAnalysis α).gopBoundaries)
  have hindices := congrArg List.length (map_index_orderedStarts hdistinct)
  rw [List.length_map] at hstarts hindices
  exact hstarts.trans (hindices.symm.trans (orderedStarts_perm frames).length_eq)

def Command.boundaryLine? : Command α → Option (LineCommand α)
  | .line c => if c.color = .gopBoundary then some c else none
  | _ => none

def boundaryLines (commands : List (Command α)) : List (LineCommand α) :=
  commands.filterMap Command.boundaryLine?

@[simp] theorem boundaryLines_nil : boundaryLines ([] : List (Command α)) = [] := rfl

@[simp] theorem boundaryLines_append (first second : List (Command α)) :
    boundaryLines (first ++ second) = boundaryLines first ++ boundaryLines second :=
  List.filterMap_append

@[simp] theorem boundaryLines_rect (c : RectCommand α) (rest : List (Command α)) :
    boundaryLines (.rect c :: rest) = boundaryLines rest := rfl

@[simp] theorem boundaryLines_text (c : TextCommand α) (rest : List (Command α)) :
    boundaryLines (.text c :: rest) = boundaryLines rest := rfl

@[simp] theorem boundaryLines_path (c : PathCommand α) (rest : List (Command α)) :
    boundaryLines (.path c :: rest) = boundaryLines rest := rfl

@[simp] theorem boundaryLines_beginGroup (id : String) (label : Option String) (rest : List (Command α)) :
    boundaryLines (.beginGroup id label :: rest) = boundaryLines rest := rfl

@[simp] theorem boundaryLines_endGroup (rest : List (Command α)) :
    boundaryLines (.endGroup :: rest) = boundaryLines rest := rfl

/-- Where some elements of a list are each drawn with one line at a boundary and the others with none, the lines
stand in the order of the list. -/
theorem boundaryLines_mapIdx {draw : Nat → β → List (Command α)} {marked : β → Bool} {line : Nat → β → LineCommand α}
    {l : List β} (hdraw : ∀ i, ∀ a ∈ l, boundaryLines (draw i a) = if marked a then [line i a] else [])
    (start : Nat) :
    boundaryLines (l.mapIdx fun i => draw (start + i)).flatten =
      ((l.zipIdx start).filter fun p => marked p.1).map fun p => line p.2 p.1 := by
  induction l generalizing start with
  | nil => rfl
  | cons a rest ih =>
    have hrest := ih (fun i b hb => hdraw i b (List.mem_cons_of_mem a hb)) (start + 1)
    simp only [Nat.add_assoc, Nat.add_comm 1] at hrest
    rw [List.mapIdx_cons, List.flatten_cons, boundaryLines_append, hdraw _ a List.mem_cons_self, hrest,
      List.zipIdx_cons, List.filter_cons]
    cases marked a with
    | false => rfl
    | true => rfl

theorem boundaryLines_mapIdx_of_place_free {draw : Nat → β → List (Command α)} {marked : β → Bool}
    {line : β → LineCommand α} {l : List β}
    (hdraw : ∀ i, ∀ a ∈ l, boundaryLines (draw i a) = if marked a then [line a] else []) :
    boundaryLines (l.mapIdx draw).flatten = (l.filter marked).map line := by
  have hlines := boundaryLines_mapIdx hdraw 0
  simp only [Nat.zero_add] at hlines
  rw [hlines, ← map_fst_filter_zipIdx marked l, List.map_map]
  rfl

theorem boundaryLines_mapIdx_eq_nil {draw : Nat → β → List (Command α)}
    (hdraw : ∀ i a, boundaryLines (draw i a) = []) (l : List β) :
    boundaryLines (l.mapIdx draw).flatten = [] := filterMap_flatten_mapIdx_eq_nil hdraw l

/-- In a drawing that shows no frame index twice, a rectangle is the only one of its frame index. -/
theorem filter_frameIndex_eq_singleton {rects : List (RectCommand α)}
    (hdistinct : (rects.filterMap RectCommand.frameIndex).Nodup) {cell : RectCommand α} (hcell : cell ∈ rects)
    {index : UInt32} (hindex : cell.frameIndex = some index) :
    rects.filter (fun c => c.frameIndex == some index) = [cell] := by
  induction rects with
  | nil => exact absurd hcell List.not_mem_nil
  | cons c rest ih =>
    have hrest : (rest.filterMap RectCommand.frameIndex).Nodup :=
      hdistinct.sublist ((List.sublist_cons_self c rest).filterMap _)
    rcases List.mem_cons.1 hcell with rfl | hmem
    · rw [List.filterMap_cons_some hindex, List.nodup_cons] at hdistinct
      have hothers : rest.filter (fun c => c.frameIndex == some index) = [] := by
        rw [List.filter_eq_nil_iff]
        intro d hd hsame
        exact hdistinct.1 (List.mem_filterMap.2 ⟨d, hd, eq_of_beq hsame⟩)
      rw [List.filter_cons_of_pos (by simp [hindex]), hothers]
    · have hother : ¬ (c.frameIndex == some index) = true := by
        intro hsame
        rw [List.filterMap_cons_some (eq_of_beq hsame), List.nodup_cons] at hdistinct
        exact hdistinct.1 (List.mem_filterMap.2 ⟨cell, hmem, hindex⟩)
      rw [List.filter_cons, if_neg hother]
      exact ih hrest hmem

theorem filterMap_frameIndex_mapIdx {rect : Nat → β → RectCommand α} (frame : β → Frame)
    (hrect : ∀ i a, (rect i a).frameIndex = some (frame a).index) (l : List β) :
    (l.mapIdx rect).filterMap RectCommand.frameIndex = l.map fun a => (frame a).index := by
  induction l generalizing rect with
  | nil => rfl
  | cons a rest ih =>
    rw [List.mapIdx_cons, List.filterMap_cons_some (hrect 0 a), ih fun i b => hrect (i + 1) b, List.map_cons]

structure LineCommand.IsUprightAt (c : LineCommand α) (x : α) : Prop where
  start : c.start.x = x
  stop : c.stop.x = x

/-- A line stands where the one rectangle drawn for a frame has a certain edge. -/
def MarksCell (commands : List (Command α)) (edge : Rect α → α) (f : Frame) (c : LineCommand α) : Prop :=
  ∃ cell, (rectsOf commands).filter (fun r => r.frameIndex == some f.index) = [cell] ∧
    c.IsUprightAt (edge cell.rect)

/-- Where indices are distinct a line at an edge of a frame's cell marks that frame and no other. -/
theorem MarksCell.of_mem {commands : List (Command α)} {edge : Rect α → α} {f : Frame} {c : LineCommand α}
    (hdistinct : ((rectsOf commands).filterMap RectCommand.frameIndex).Nodup) {cell : RectCommand α}
    (hcell : cell ∈ rectsOf commands) (hindex : cell.frameIndex = some f.index)
    (hline : c.IsUprightAt (edge cell.rect)) : MarksCell commands edge f c :=
  ⟨cell, filter_frameIndex_eq_singleton hdistinct hcell hindex, hline⟩

variable [Scalar α]

namespace Timeline

def cellRect (current : Option Nat) (position : Nat) (p : Frame × Rect α) : RectCommand α where
  rect := p.2
  color := Color.ofKind p.1.kind
  borderColor := some (if current == some position then .currentFrame else .border)
  label := some (p.1.kind.letter ++ " #" ++ toString p.1.index.toNat)
  frameIndex := some p.1.index
  current := current == some position

def lineOf (p : Frame × Rect α) : LineCommand α :=
  ⟨⟨p.2.x, p.2.y⟩, ⟨p.2.x, p.2.y + p.2.h⟩, .gopBoundary, (markerWidth : α)⟩

theorem rectsOf_frameCommands (analysis : TemporalAnalysis α) (current : Option Nat) (position : Nat)
    (p : Frame × Rect α) :
    rectsOf (frameCommands analysis current position p.1 p.2) = [cellRect current position p] := by
  have hline : rectsOf (if analysis.isBoundary p.1.index then [boundaryLine p.2] else []) = [] := by
    split
    · rfl
    · rfl
  have htext : rectsOf (if (minLabelWidth : α) ≤ p.2.w then [cellText p.1 p.2] else []) = [] := by
    split
    · rfl
    · rfl
  rw [frameCommands, cell, rectsOf_rect, rectsOf_append, hline, htext]
  rfl

theorem boundaryLines_frameCommands (analysis : TemporalAnalysis α) (current : Option Nat) (position : Nat)
    (p : Frame × Rect α) :
    boundaryLines (frameCommands analysis current position p.1 p.2) =
      if analysis.isBoundary p.1.index then [lineOf p] else [] := by
  have htext : boundaryLines (if (minLabelWidth : α) ≤ p.2.w then [cellText p.1 p.2] else []) = [] := by
    split
    · rfl
    · rfl
  rw [frameCommands, cell, boundaryLines_rect, boundaryLines_append, htext, List.append_nil]
  split
  · rfl
  · rfl

end Timeline

def Timeline.laneRect (container : Rect α) : RectCommand α :=
  ⟨container, .laneBackground, some .laneBorder, none, none, false⟩

/-- A timeline draws a lane and, on it, the cells of the list. -/
theorem rectsOf_timeline {frames : List Frame} (hframes : frames ≠ []) (analysis : TemporalAnalysis α)
    {strip : Strip α} (hstrip : strip.elements.length = frames.length) (current : Option Nat) (cursorX : α) :
    rectsOf (Timeline.render frames analysis strip current cursorX) =
      Timeline.laneRect strip.container :: (frames.zip strip.elements).mapIdx (Timeline.cellRect current) := by
  have hsome : ¬ (frames.isEmpty || strip.elements.isEmpty) = true := by
    simpa [← List.length_eq_zero_iff, hstrip] using hframes
  have hcells := rectsOf_mapIdx (l := frames.zip strip.elements) fun i p _ =>
    Timeline.rectsOf_frameCommands analysis current i p
  rw [Timeline.render, if_neg hsome, rectsOf_append, Timeline.lane, rectsOf_beginGroup, rectsOf_rect, hcells,
    Timeline.cursorLine, rectsOf_line, rectsOf_endGroup, rectsOf_nil, List.append_nil]
  rfl

/-- A timeline draws a line at the cell of each frame that starts a group. -/
theorem boundaryLines_timeline (frames : List Frame) (analysis : TemporalAnalysis α) (strip : Strip α)
    (current : Option Nat) (cursorX : α) :
    boundaryLines (Timeline.render frames analysis strip current cursorX) =
      ((frames.zip strip.elements).filter fun p => analysis.isBoundary p.1.index).map Timeline.lineOf := by
  unfold Timeline.render
  split
  · rename_i hempty
    have hnone : frames.zip strip.elements = [] := by
      rw [List.zip_eq_nil_iff]
      simpa using hempty
    rw [hnone]
    rfl
  · have hcursor : boundaryLines [Timeline.cursorLine strip.container cursorX, .endGroup] = [] := rfl
    rw [boundaryLines_append, Timeline.lane, boundaryLines_beginGroup, boundaryLines_rect, hcursor, List.append_nil]
    exact boundaryLines_mapIdx_of_place_free fun position p _ =>
      Timeline.boundaryLines_frameCommands analysis current position p

theorem filterMap_overlay_eq_nil {find? : Command α → Option β} (hpath : ∀ c, find? (.path c) = none)
    (hbegin : ∀ id label, find? (.beginGroup id label) = none) (hend : find? .endGroup = none)
    (arrows : FocusedArrows α) : (Overlay.render arrows).filterMap find? = [] := by
  have harrows : (arrows.layout.arrows.map (Overlay.arrowPath arrows)).filterMap find? = [] := by
    rw [List.filterMap_map, List.filterMap_eq_nil_iff]
    intro a _
    exact hpath _
  unfold Overlay.render
  split
  · rw [List.cons_append, List.filterMap_cons_none (hbegin _ _), List.filterMap_append, harrows, List.nil_append,
      List.filterMap_cons_none hend, List.filterMap_nil]
  · rfl

theorem rectsOf_overlay (arrows : FocusedArrows α) : rectsOf (Overlay.render arrows) = [] :=
  filterMap_overlay_eq_nil (fun _ => rfl) (fun _ _ => rfl) rfl arrows

theorem boundaryLines_overlay (arrows : FocusedArrows α) : boundaryLines (Overlay.render arrows) = [] :=
  filterMap_overlay_eq_nil (fun _ => rfl) (fun _ _ => rfl) rfl arrows

/-- In the timeline the start of each group is marked at the left edge of the cell of its frame. -/
theorem marks_groupStarts_timeline {frames : List Frame} (hdistinct : (frames.map Frame.index).Nodup) {strip : Strip α}
    (hstrip : strip.elements.length = frames.length) (current : Option Nat) (cursorX : α)
    (arrows : FocusedArrows α) :
    let commands := Timeline.render frames (analyze frames) strip current cursorX ++ Overlay.render arrows
    List.Forall₂ (MarksCell commands Rect.x) (groupStarts frames) (boundaryLines commands) := by
  intro commands
  let placed := frames.zip strip.elements
  have hframes : placed.map Prod.fst = frames := List.map_fst_zip (Nat.le_of_eq hstrip.symm)
  have hlisted : ∀ p ∈ placed, p.1 ∈ frames := fun p hp => (List.of_mem_zip hp).1
  have hstarts : groupStarts frames = (placed.filter fun p => StartsGroup frames p.1).map Prod.fst := by
    have hfilter := List.filter_map (f := Prod.fst) (p := fun f => decide (StartsGroup frames f)) (l := placed)
    rw [hframes] at hfilter
    exact hfilter
  have hlines : boundaryLines commands =
      (placed.filter fun p => StartsGroup frames p.1).map Timeline.lineOf := by
    rw [boundaryLines_append, boundaryLines_overlay, List.append_nil, boundaryLines_timeline,
      filter_isBoundary hdistinct hlisted]
  rw [hstarts, hlines, List.forall₂_map_left_iff, List.forall₂_map_right_iff, List.forall₂_same]
  intro p hp
  have hmem : p ∈ placed := (List.mem_filter.1 hp).1
  have hrects : rectsOf commands =
      Timeline.laneRect strip.container :: placed.mapIdx (Timeline.cellRect current) := by
    rw [rectsOf_append, rectsOf_overlay, List.append_nil,
      rectsOf_timeline (List.ne_nil_of_mem (hlisted p hmem)) _ hstrip]
  have hshown : (rectsOf commands).filterMap RectCommand.frameIndex = frames.map Frame.index := by
    rw [hrects, List.filterMap_cons_none rfl,
      filterMap_frameIndex_mapIdx Prod.fst (fun _ _ => rfl) placed]
    conv_rhs => rw [← hframes, List.map_map]
    rfl
  obtain ⟨position, hposition⟩ := List.getElem?_of_mem hmem
  have hcell : Timeline.cellRect current position p ∈ rectsOf commands := by
    rw [hrects]
    refine List.mem_cons_of_mem _ (List.mem_of_getElem? (i := position) ?_)
    rw [List.getElem?_mapIdx, hposition, Option.map_some]
  exact .of_mem (hshown ▸ hdistinct) hcell rfl ⟨rfl, rfl⟩

def Minimap.tickLine (v : Viewport α) (frameWidth : α) (position : Nat) : LineCommand α :=
  ⟨⟨positionX v frameWidth position, v.y⟩, ⟨positionX v frameWidth position, v.y + (tickHeight : α)⟩,
    .gopBoundary, ((1 : Nat) : α)⟩

/-- In the minimap the start of each group is marked at the position of its frame. -/
theorem marks_positionedStarts_minimap {frames : List Frame} (hdistinct : (frames.map Frame.index).Nodup)
    {v : Viewport α} (hv : v.HasArea) (visible : PositionRange) (current : Option Nat) :
    List.Forall₂
      (fun p c => LineCommand.IsUprightAt c (Minimap.positionX v (v.width / (frames.length : α)) p.2))
      (positionedStarts frames) (boundaryLines (Minimap.render frames (analyze frames) v visible current)) := by
  have hbars (colWidth maxBytes : α) (column : Nat) (b : List Frame) :
      boundaryLines (if b.isEmpty then [] else [Minimap.bar v colWidth maxBytes column b]) = [] := by
    split
    · rfl
    · rfl
  have hticks (frameWidth : α) (position : Nat) (f : Frame) :
      boundaryLines (if (analyze frames : TemporalAnalysis α).isBoundary f.index then
          [Minimap.tick v frameWidth position] else []) =
        if (analyze frames : TemporalAnalysis α).isBoundary f.index then
          [Minimap.tickLine v frameWidth position] else [] := by
    split
    · rfl
    · rfl
  have hwindow (frameWidth : α) (count : Nat) :
      boundaryLines (Minimap.window v frameWidth count visible) = [] := by
    unfold Minimap.window
    simp only
    split
    · rfl
    · rfl
  have hmarked : ∀ p ∈ frames.zipIdx, p.1 ∈ frames := fun p hp => List.fst_mem_of_mem_zipIdx hp
  have hdrawn (frameWidth : α) := boundaryLines_mapIdx (l := frames) (fun i f _ => hticks frameWidth i f) 0
  simp only [Nat.zero_add, filter_isBoundary hdistinct hmarked] at hdrawn
  have hlines : boundaryLines (Minimap.render frames (analyze frames) v visible current) =
      (positionedStarts frames).map fun p => Minimap.tickLine v (v.width / (frames.length : α)) p.2 := by
    unfold Minimap.render
    simp only
    split
    · rename_i hnothing
      have hnone : frames = [] := by
        simpa [hv.1, hv.2] using hnothing
      rw [hnone]
      rfl
    · simp only [Minimap.plainRect, boundaryLines_beginGroup, boundaryLines_rect, boundaryLines_append,
        boundaryLines_mapIdx_eq_nil (hbars _ _), hdrawn, hwindow, boundaryLines_endGroup, boundaryLines_nil,
        List.nil_append, List.append_nil]
      cases current with
      | none => exact List.append_nil _
      | some position =>
        cases hposition : frames[position]? with
        | none => simp [hposition, positionedStarts]
        | some f => simp [hposition, Minimap.marker, positionedStarts]
  rw [hlines, List.forall₂_map_right_iff, List.forall₂_same]
  intro p _
  exact ⟨rfl, rfl⟩

namespace Filmstrip

def gapX (card : Rect α) : α := card.x - (thumbGap : α) / ((2 : Nat) : α)

def lineAt (v : Viewport α) (place : Nat) : LineCommand α :=
  let x := v.x + (place : α) * ((thumbWidth + thumbGap : Nat) : α) - (thumbGap : α) / ((2 : Nat) : α)
  ⟨⟨x, v.y⟩, ⟨x, v.y + (thumbHeight : α) + (captionHeight : α)⟩, .gopBoundary, ((2 : Nat) : α)⟩

theorem boundaryLines_card (analysis : TemporalAnalysis α) (v : Viewport α) (current : Option Nat)
    (place position : Nat) (f : Frame) :
    boundaryLines (card analysis v current place position f) =
      if analysis.isBoundary f.index then [lineAt v place] else [] := by
  simp only [card, boundaryLines_rect, boundaryLines_append, boundaryLines_text, boundaryLines_nil, List.append_nil]
  split
  · rfl
  · rfl

/-- In the filmstrip the starts of groups are marked before the cards of their frames, where those are shown. -/
theorem marks_groupStarts {frames : List Frame} (hdistinct : (frames.map Frame.index).Nodup) (v : Viewport α)
    (current : Option Nat) :
    let commands := render frames (analyze frames) v current
    List.Forall₂ (MarksCell commands gapX)
      ((Minimap.slice frames (shown frames v current)).filter fun f => StartsGroup frames f)
      (boundaryLines commands) := by
  intro commands
  let cards := Minimap.slice frames (shown frames v current)
  have hsub : cards.Sublist frames := (List.take_sublist _ _).trans (List.drop_sublist _ _)
  have hlisted : ∀ p ∈ cards.zipIdx, p.1 ∈ frames := fun p hp => hsub.mem (List.fst_mem_of_mem_zipIdx hp)
  have hstarts : (cards.filter fun f => StartsGroup frames f) =
      (cards.zipIdx.filter fun p => StartsGroup frames p.1).map Prod.fst :=
    (map_fst_filter_zipIdx (fun f => decide (StartsGroup frames f)) cards).symm
  have hlines : boundaryLines commands =
      (cards.zipIdx.filter fun p => StartsGroup frames p.1).map fun p => lineAt v p.2 := by
    have hdrawn := boundaryLines_mapIdx (l := cards) (fun place f _ =>
      boundaryLines_card (analyze frames) v current place ((shown frames v current).start + place) f) 0
    simp only [Nat.zero_add, filter_isBoundary hdistinct hlisted] at hdrawn
    show boundaryLines (render frames (analyze frames) v current) = _
    unfold render
    simp only
    split
    · rename_i hempty
      have hnone : cards = [] := List.isEmpty_iff.1 hempty
      rw [hnone]
      rfl
    · rw [boundaryLines_append, boundaryLines_beginGroup, boundaryLines_endGroup, boundaryLines_nil,
        List.append_nil]
      exact hdrawn
  have hshown : (rectsOf commands).filterMap RectCommand.frameIndex = cards.map Frame.index := by
    rw [rectsOf_render, filterMap_frameIndex_mapIdx id (fun _ _ => rfl)]
    rfl
  rw [hstarts, hlines, List.forall₂_map_left_iff, List.forall₂_map_right_iff, List.forall₂_same]
  rintro ⟨f, place⟩ hp
  have hcard : cards[place]? = some f := List.mem_zipIdx_iff_getElem?.1 (List.mem_filter.1 hp).1
  have hmem : cardRect v current place ((shown frames v current).start + place) f ∈ rectsOf commands := by
    refine List.mem_of_getElem? (i := place) ?_
    rw [rectsOf_render, List.getElem?_mapIdx, hcard, Option.map_some]
  exact .of_mem (hshown ▸ hdistinct.sublist (hsub.map _)) hmem rfl ⟨rfl, rfl⟩

end Filmstrip

namespace Pyramid

def lineOf (v : Viewport α) (gridHeight : α) (r : Rect α) : LineCommand α :=
  ⟨⟨r.x, v.y⟩, ⟨r.x, v.y + gridHeight⟩, .gopBoundary, ((1 : Nat) : α)⟩

def gridHeight (frames : List Frame) (v : Viewport α) : α :=
  ((analyze frames : TemporalAnalysis α).levels.length : α) * (PyramidGrid.compute (analyze frames) v).rowHeight

omit [Scalar α] in
theorem filterMap_frameIndex_cells (commands : List (Command α)) :
    (cells commands).filterMap RectCommand.frameIndex = (rectsOf commands).filterMap RectCommand.frameIndex := by
  rw [cells, List.filterMap_filter]
  apply List.filterMap_congr
  intro c _
  cases c.frameIndex with
  | none => rfl
  | some index => rfl

/-- Every boundary of a list has a column, so a line is drawn for each. -/
theorem boundaryLines_render (frames : List Frame) (v : Viewport α) (current : Option UInt32) :
    boundaryLines (render (analyze frames) v current) = (gopStarts frames).map fun index =>
      lineOf v (gridHeight frames v) ((PyramidGrid.compute (analyze frames) v).cellAt 0 (columnOf frames index)) := by
  have hrows : ∀ (row : Nat) (l : TemporalLevel),
      boundaryLines (rowCommands (PyramidGrid.compute (analyze frames) v) v current row l) = [] := by
    intro row l
    rw [rowCommands, rowLabel, boundaryLines_text, boundaryLines, List.filterMap_eq_nil_iff]
    intro c hc
    obtain ⟨f, -, hf⟩ := List.mem_filterMap.1 hc
    obtain ⟨r, -, rfl⟩ := Option.map_eq_some_iff.1 hf
    rfl
  have hcolumns : ∀ index ∈ gopStarts frames, (PyramidGrid.compute (analyze frames) v).cell? 0 index =
      some ((PyramidGrid.compute (analyze frames) v).cellAt 0 (columnOf frames index)) := by
    intro index hindex
    exact PyramidGrid.cell?_eq_cellAt (PyramidGrid.isGridOf_compute frames v)
      (mem_indexSet.2 (listed_of_mem_gopStarts hindex)) 0
  unfold render
  split
  · rename_i hempty
    rw [frames_eq_nil_of_isEmpty hempty]
    rfl
  · simp only [boundaryLines_beginGroup, boundaryLines_rect, boundaryLines_append, boundaryLines_mapIdx_eq_nil hrows,
      boundaryLines_endGroup, boundaryLines_nil, List.nil_append, List.append_nil]
    rw [boundaryLines, List.filterMap_filterMap, ← List.filterMap_eq_map]
    apply List.filterMap_congr
    intro index hindex
    rw [hcolumns index hindex]
    rfl

/-- In the pyramid the start of each group is marked at the left edge of the column of its frame. -/
theorem marks_orderedStarts {frames : List Frame} (hdistinct : (frames.map Frame.index).Nodup) (v : Viewport α)
    (current : Option UInt32) :
    let commands := render (analyze frames) v current
    List.Forall₂ (MarksCell commands Rect.x) (orderedStarts frames) (boundaryLines commands) := by
  intro commands
  have hcells := cells_render_perm frames v current
  have hshown : (rectsOf commands).filterMap RectCommand.frameIndex |>.Perm (frames.map Frame.index) := by
    rw [← filterMap_frameIndex_cells]
    refine (hcells.filterMap _).trans (.of_eq ?_)
    rw [List.filterMap_map, ← List.filterMap_eq_map]
    rfl
  have hlines : boundaryLines commands = (orderedStarts frames).map fun f =>
      lineOf v (gridHeight frames v) ((PyramidGrid.compute (analyze frames) v).cellAt 0 (columnOf frames f.index)) := by
    rw [boundaryLines_render]
    show List.map _ (gopStarts frames) = _
    rw [← map_index_orderedStarts hdistinct, List.map_map]
    rfl
  rw [hlines, List.forall₂_map_right_iff, List.forall₂_same]
  intro f hf
  have hlisted : f ∈ frames := (mem_groupStarts.1 ((orderedStarts_perm frames).mem_iff.1 hf)).1
  have hmem : cellOf frames v current f.level f.levelFrame ∈ rectsOf commands := by
    have hcell := hcells.mem_iff.2 (List.mem_map_of_mem hlisted)
    exact (List.mem_filter.1 hcell).1
  exact .of_mem (hshown.nodup_iff.2 hdistinct) hmem rfl ⟨rfl, rfl⟩

end Pyramid

end FrameAtlas
