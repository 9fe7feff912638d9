import FrameAtlas.Arrow.Layout
import FrameAtlas.Command
import FrameAtlas.Proofs.Json.ReadBack
import FrameAtlas.Reference
import FrameAtlas.Scalar.Double
import FrameAtlas.Temporal

namespace FrameAtlas

variable {α : Type}

def Point.numbers (p : Point α) : List α := [p.x, p.y]

def Rect.numbers (r : Rect α) : List α := [r.x, r.y, r.w, r.h]

def Command.numbers : Command α → List α
  | .rect c => c.rect.numbers
  | .text c => c.position.numbers ++ [c.fontSize]
  | .line c => c.start.numbers ++ c.stop.numbers ++ [c.width]
  | .path c => c.labelPosition.numbers ++ [c.width]
  | .beginGroup _ _ | .endGroup => []

def ArrowGeometry.numbers (g : ArrowGeometry α) : List α :=
  [g.framePitch, g.anchorY, g.baseArc, g.slotSpacing, g.labelGap, g.labelCharWidth, g.margin]

def Arrow.numbers (a : Arrow α) : List α := [a.sourceX, a.sourceY, a.labelX, a.labelY]

def ArrowLayout.numbers (l : ArrowLayout α) : List α := l.arrows.flatMap Arrow.numbers ++ [l.width, l.height]

def TemporalAnalysis.numbers (a : TemporalAnalysis α) : List α := a.framePositions.entries.map Prod.snd

def AllFinite (xs : List Float) : Prop := ∀ x ∈ xs, x.isFinite = true

theorem AllFinite.readsBack {xs : List Float} (h : AllFinite xs) (x : Float) (hx : x ∈ xs) : ReadsBack x :=
  readsBack_float (h x hx)

theorem AllFinite.subset {xs ys : List Float} (h : AllFinite xs) (hsub : ys ⊆ xs) : AllFinite ys :=
  fun y hy => h y (hsub hy)

theorem readsBack_point {p : Point Float} (h : AllFinite p.numbers) : ReadsBack p := by
  intro j hj
  obtain ⟨found, rfl, hfound⟩ := Json.Reordered.describes hj (by simp)
  exact (Record.ReadsAs.start Point.mk found
    |>.field (hfound.gives "x" (h.readsBack p.x (by simp [Point.numbers])) (by simp))
    |>.field (hfound.gives "y" (h.readsBack p.y (by simp [Point.numbers])) (by simp))).decodeMembers

theorem readsBack_rect {r : Rect Float} (h : AllFinite r.numbers) : ReadsBack r := by
  intro j hj
  obtain ⟨found, rfl, hfound⟩ := Json.Reordered.describes hj (by simp)
  exact (Record.ReadsAs.start Rect.mk found
    |>.field (hfound.gives "x" (h.readsBack r.x (by simp [Rect.numbers])) (by simp))
    |>.field (hfound.gives "y" (h.readsBack r.y (by simp [Rect.numbers])) (by simp))
    |>.field (hfound.gives "w" (h.readsBack r.w (by simp [Rect.numbers])) (by simp))
    |>.field (hfound.gives "h" (h.readsBack r.h (by simp [Rect.numbers])) (by simp))).decodeMembers

theorem readsBack_color (c : Color) : ReadsBack c := by
  intro j hj
  rw [Json.Reordered.eq_text hj]
  exact decodeNamed_name c.mem_all fun _ => Color.name_injective

theorem readsBack_textAlign (a : TextAlign) : ReadsBack a := by
  intro j hj
  rw [Json.Reordered.eq_text hj]
  cases a <;> rfl

theorem readsBack_optional_color (c : Option Color) : ReadsBack c :=
  readsBack_option readsBack_color (fun _ h => nomatch h) c

theorem decode_command {name : String} (hname : name ∈ Command.names) (content : Json) :
    (decode (.object [(name, content)]) : Except DecodeError (Command Float)) =
      Command.decodeBody name (some content) := if_pos hname

theorem readsBack_rectCommand {c : RectCommand Float} (h : AllFinite c.rect.numbers) :
    ReadsBack (Command.rect c) := by
  intro j hj
  obtain ⟨content, rfl, hcontent⟩ := Json.Reordered.single hj
  obtain ⟨found, rfl, hfound⟩ := hcontent.describes (by simp)
  rw [decode_command (by decide)]
  exact (Record.ReadsAs.start (fun r c b l f cur => Command.rect ⟨r, c, b, l, f, cur⟩) found
    |>.field (hfound.gives "rect" (readsBack_rect h) (by simp))
    |>.field (hfound.gives "color" (readsBack_color c.color) (by simp))
    |>.field (hfound.gives "border_color" (readsBack_optional_color c.borderColor) (by simp))
    |>.field (hfound.gives "label" (readsBack_optional_string c.label) (by simp))
    |>.field (hfound.gives "frame_index" (readsBack_optional_uint32 c.frameIndex) (by simp))
    |>.field (hfound.gives "current" (readsBack_bool c.current) (by simp))).decodeMembers

theorem readsBack_textCommand {c : TextCommand Float} (h : AllFinite (Command.text c).numbers) :
    ReadsBack (Command.text c) := by
  intro j hj
  obtain ⟨content, rfl, hcontent⟩ := Json.Reordered.single hj
  obtain ⟨found, rfl, hfound⟩ := hcontent.describes (by simp)
  have hposition : AllFinite c.position.numbers := h.subset (by simp [Command.numbers])
  rw [decode_command (by decide)]
  exact (Record.ReadsAs.start (fun p t c s a => Command.text ⟨p, t, c, s, a⟩) found
    |>.field (hfound.gives "position" (readsBack_point hposition) (by simp))
    |>.field (hfound.gives "text" (readsBack_string c.text) (by simp))
    |>.field (hfound.gives "color" (readsBack_color c.color) (by simp))
    |>.field (hfound.gives "font_size" (h.readsBack c.fontSize (by simp [Command.numbers])) (by simp))
    |>.field (hfound.gives "align" (readsBack_textAlign c.align) (by simp))).decodeMembers

theorem readsBack_lineCommand {c : LineCommand Float} (h : AllFinite (Command.line c).numbers) :
    ReadsBack (Command.line c) := by
  intro j hj
  obtain ⟨content, rfl, hcontent⟩ := Json.Reordered.single hj
  obtain ⟨found, rfl, hfound⟩ := hcontent.describes (by simp)
  have hstart : AllFinite c.start.numbers := h.subset (by simp [Command.numbers])
  have hstop : AllFinite c.stop.numbers := h.subset (by simp [Command.numbers])
  rw [decode_command (by decide)]
  exact (Record.ReadsAs.start (fun a b c w => Command.line ⟨a, b, c, w⟩) found
    |>.field (hfound.gives "from" (readsBack_point hstart) (by simp))
    |>.field (hfound.gives "to" (readsBack_point hstop) (by simp))
    |>.field (hfound.gives "color" (readsBack_color c.color) (by simp))
    |>.field (hfound.gives "width" (h.readsBack c.width (by simp [Command.numbers])) (by simp))).decodeMembers

theorem readsBack_pathCommand {c : PathCommand Float} (h : AllFinite (Command.path c).numbers) :
    ReadsBack (Command.path c) := by
  intro j hj
  obtain ⟨content, rfl, hcontent⟩ := Json.Reordered.single hj
  obtain ⟨found, rfl, hfound⟩ := hcontent.describes (by simp)
  have hlabel : AllFinite c.labelPosition.numbers := h.subset (by simp [Command.numbers])
  rw [decode_command (by decide)]
  exact (Record.ReadsAs.start (fun p c w d l lp s v => Command.path ⟨p, c, w, d, l, lp, s, v⟩) found
    |>.field (hfound.gives "path" (readsBack_string c.path) (by simp))
    |>.field (hfound.gives "color" (readsBack_color c.color) (by simp))
    |>.field (hfound.gives "width" (h.readsBack c.width (by simp [Command.numbers])) (by simp))
    |>.field (hfound.gives "dashed" (readsBack_bool c.dashed) (by simp))
    |>.field (hfound.gives "label" (readsBack_optional_string c.label) (by simp))
    |>.field (hfound.gives "label_position" (readsBack_point hlabel) (by simp))
    |>.field (hfound.gives "source_frame" (readsBack_optional_uint32 c.sourceFrame) (by simp))
    |>.field (hfound.gives "visible" (readsBack_bool c.visible) (by simp))).decodeMembers

theorem readsBack_beginGroup (id : String) (label : Option String) :
    ReadsBack (Command.beginGroup id label : Command Float) := by
  intro j hj
  obtain ⟨content, rfl, hcontent⟩ := Json.Reordered.single hj
  obtain ⟨found, rfl, hfound⟩ := hcontent.describes (by simp)
  rw [decode_command (by decide)]
  exact (Record.ReadsAs.start Command.beginGroup found
    |>.field (hfound.gives "id" (readsBack_string id) (by simp))
    |>.field (hfound.gives "label" (readsBack_optional_string label) (by simp))).decodeMembers

/-- The end of a group has no content, so its tree is its name. -/
theorem readsBack_endGroup : ReadsBack (Command.endGroup : Command Float) := by
  intro j hj
  rw [Json.Reordered.eq_text hj]
  rfl

/-- A command of finite numbers is read back as it was written. -/
theorem readsBack_command {c : Command Float} (h : AllFinite c.numbers) : ReadsBack c := by
  cases c with
  | rect c => exact readsBack_rectCommand h
  | text c => exact readsBack_textCommand h
  | line c => exact readsBack_lineCommand h
  | path c => exact readsBack_pathCommand h
  | beginGroup id label => exact readsBack_beginGroup id label
  | endGroup => exact readsBack_endGroup

theorem readsBack_arrowGeometry {g : ArrowGeometry Float} (h : AllFinite g.numbers) : ReadsBack g := by
  intro j hj
  obtain ⟨found, rfl, hfound⟩ := Json.Reordered.describes hj (by simp)
  show ArrowGeometry.record.decodeMembers found = .ok g
  unfold ArrowGeometry.record
  exact (Record.ReadsAs.start ArrowGeometry.mk found
    |>.field (hfound.gives "framePitch" (h.readsBack g.framePitch (by simp [ArrowGeometry.numbers])) (by simp))
    |>.field (hfound.gives "anchorY" (h.readsBack g.anchorY (by simp [ArrowGeometry.numbers])) (by simp))
    |>.field (hfound.gives "baseArc" (h.readsBack g.baseArc (by simp [ArrowGeometry.numbers])) (by simp))
    |>.field (hfound.gives "slotSpacing" (h.readsBack g.slotSpacing (by simp [ArrowGeometry.numbers])) (by simp))
    |>.field (hfound.gives "labelGap" (h.readsBack g.labelGap (by simp [ArrowGeometry.numbers])) (by simp))
    |>.field (hfound.gives "labelCharWidth" (h.readsBack g.labelCharWidth (by simp [ArrowGeometry.numbers])) (by simp))
    |>.field (hfound.gives "margin" (h.readsBack g.margin (by simp [ArrowGeometry.numbers])) (by simp))).decodeMembers

theorem readsBack_arrow {a : Arrow Float} (h : AllFinite a.numbers) : ReadsBack a := by
  intro j hj
  obtain ⟨found, rfl, hfound⟩ := Json.Reordered.describes hj (by simp)
  exact (Record.ReadsAs.start Arrow.mk found
    |>.field (hfound.gives "sourceFrameIndex" (readsBack_uint32 a.source) (by simp))
    |>.field (hfound.gives "targetFrameIndex" (readsBack_uint32 a.target) (by simp))
    |>.field (hfound.gives "slotIndex" (readsBack_nat a.slot) (by simp))
    |>.field (hfound.gives "label" (readsBack_string a.label) (by simp))
    |>.field (hfound.gives "color" (readsBack_color a.color) (by simp))
    |>.field (hfound.gives "pathData" (readsBack_string a.path) (by simp))
    |>.field (hfound.gives "sourceX" (h.readsBack a.sourceX (by simp [Arrow.numbers])) (by simp))
    |>.field (hfound.gives "sourceY" (h.readsBack a.sourceY (by simp [Arrow.numbers])) (by simp))
    |>.field (hfound.gives "labelX" (h.readsBack a.labelX (by simp [Arrow.numbers])) (by simp))
    |>.field (hfound.gives "labelY" (h.readsBack a.labelY (by simp [Arrow.numbers])) (by simp))
    |>.field (hfound.gives "targetResolved" (readsBack_bool a.resolved) (by simp))).decodeMembers

/-- A layout of finite numbers is read back as it was written. -/
theorem readsBack_arrowLayout {l : ArrowLayout Float} (h : AllFinite l.numbers) : ReadsBack l := by
  intro j hj
  have harrows : ∀ a ∈ l.arrows, ReadsBack a := by
    intro a ha
    refine readsBack_arrow (h.subset ?_)
    exact fun x hx => List.mem_append_left _ (List.mem_flatMap_of_mem ha hx)
  obtain ⟨found, rfl, hfound⟩ := Json.Reordered.describes hj (by simp [ArrowLayout.members])
  rw [ArrowLayout.members] at hfound
  exact (Record.ReadsAs.start ArrowLayout.mk found
    |>.field (hfound.gives "allArrowData" (readsBack_list harrows) (by simp))
    |>.field (hfound.gives "svgWidth" (h.readsBack l.width (by simp [ArrowLayout.numbers])) (by simp))
    |>.field (hfound.gives "svgHeight" (h.readsBack l.height (by simp [ArrowLayout.numbers])) (by simp))
    |>.field (hfound.gives "slotCount" (readsBack_nat l.slotCount) (by simp))).decodeMembers

theorem readsBack_levelFrame (f : LevelFrame) : ReadsBack f := by
  intro j hj
  obtain ⟨found, rfl, hfound⟩ := Json.Reordered.describes hj (by simp)
  exact (Record.ReadsAs.start LevelFrame.mk found
    |>.field (hfound.gives "frameIndex" (readsBack_uint32 f.index) (by simp))
    |>.field (hfound.gives "isKeyframe" (readsBack_bool f.isKeyframe) (by simp))
    |>.field (hfound.gives "refFrames" (readsBack_indices f.refs) (by simp))).decodeMembers

theorem readsBack_temporalLevel (l : TemporalLevel) : ReadsBack l := by
  intro j hj
  obtain ⟨found, rfl, hfound⟩ := Json.Reordered.describes hj (by simp)
  exact (Record.ReadsAs.start TemporalLevel.mk found
    |>.field (hfound.gives "level" (readsBack_uint32 l.level) (by simp))
    |>.field (hfound.gives "frames" (readsBack_list fun f _ => readsBack_levelFrame f) (by simp))).decodeMembers

theorem readsBack_levelEntry (e : LevelEntry) : ReadsBack e := by
  intro j hj
  obtain ⟨found, rfl, hfound⟩ := Json.Reordered.describes hj (by simp)
  exact (Record.ReadsAs.start LevelEntry.mk found
    |>.field (hfound.gives "level" (readsBack_uint32 e.level) (by simp))
    |>.field (hfound.gives "isKeyframe" (readsBack_bool e.isKeyframe) (by simp))
    |>.field (hfound.gives "refFrames" (readsBack_indices e.refs) (by simp))).decodeMembers

/-- An analysis of finite numbers is read back as it was written. -/
theorem readsBack_temporalAnalysis {a : TemporalAnalysis Float} (h : AllFinite a.numbers) : ReadsBack a := by
  intro j hj
  have hpositions : ∀ e ∈ a.framePositions.entries, ReadsBack e.2 := by
    intro e he
    exact h.readsBack e.2 (List.mem_map_of_mem he)
  obtain ⟨found, rfl, hfound⟩ := Json.Reordered.describes hj (by simp)
  exact (Record.ReadsAs.start TemporalAnalysis.mk found
    |>.field (hfound.gives "levels" (readsBack_list fun l _ => readsBack_temporalLevel l) (by simp))
    |>.field (hfound.gives "frameMap" (readsBack_indexMap fun e _ => readsBack_levelEntry e.2) (by simp))
    |>.field (hfound.gives "gopBoundaries" (readsBack_indices a.gopBoundaries) (by simp))
    |>.field (hfound.gives "framePositions" (readsBack_indexMap hpositions) (by simp))).decodeMembers

theorem readsBack_danglingRef (d : DanglingRef) : ReadsBack d := by
  intro j hj
  obtain ⟨found, rfl, hfound⟩ := Json.Reordered.describes hj (by simp)
  exact (Record.ReadsAs.start DanglingRef.mk found
    |>.field (hfound.gives "source" (readsBack_uint32 d.source) (by simp))
    |>.field (hfound.gives "target" (readsBack_uint32 d.target) (by simp))).decodeMembers

/-- A summary of references is read back as it was written. -/
theorem readsBack_referenceSummary (s : ReferenceSummary) : ReadsBack s := by
  intro j hj
  obtain ⟨found, rfl, hfound⟩ := Json.Reordered.describes hj (by simp)
  exact (Record.ReadsAs.start ReferenceSummary.mk found
    |>.field (hfound.gives "incoming" (readsBack_indexMap fun e _ => readsBack_indices e.2) (by simp))
    |>.field (hfound.gives "outgoingTotal" (readsBack_nat s.outgoingTotal) (by simp))
    |>.field (hfound.gives "dangling" (readsBack_list fun d _ => readsBack_danglingRef d) (by simp))).decodeMembers

/-- Lists of commands, geometries, layouts, analyses and summaries are what their trees are read as, so long as
their numbers are finite. -/
theorem output_readsBack (commands : List (Command Float)) (g : ArrowGeometry Float) (l : ArrowLayout Float)
    (a : TemporalAnalysis Float) (s : ReferenceSummary) :
    (AllFinite (commands.flatMap Command.numbers) → ReadsBack commands) ∧
      (AllFinite g.numbers → ReadsBack g) ∧ (AllFinite l.numbers → ReadsBack l) ∧
      (AllFinite a.numbers → ReadsBack a) ∧ ReadsBack s := by
  refine ⟨?_, readsBack_arrowGeometry, readsBack_arrowLayout, readsBack_temporalAnalysis,
    readsBack_referenceSummary s⟩
  intro h
  refine readsBack_list ?_
  intro c hc
  have hnumbers : c.numbers ⊆ commands.flatMap Command.numbers :=
    fun x hx => List.mem_flatMap_of_mem hc hx
  exact readsBack_command (h.subset hnumbers)

theorem output_readsBack_of_two_frames :
    let commands : List (Command Float) :=
      [.beginGroup "frames" none, .rect ⟨⟨0, 0, 40, 20⟩, .frameIntra, none, some "I", some 0, true⟩,
        .path ⟨"M 0,0 L 40,0", .level1, 1.5, false, none, ⟨20, 12⟩, some 1, false⟩, .endGroup]
    let g : ArrowGeometry Float := ⟨42, 0, 12, 14, 4, 6, 4⟩
    let l : ArrowLayout Float := ⟨[⟨1, 0, 0, "L0[0]", .levelBase, "M 0,0", 62, 0, 41, 12, true⟩], 66, 16, 1⟩
    let a : TemporalAnalysis Float := ⟨[⟨0, [⟨0, true, []⟩, ⟨1, false, [0]⟩]⟩],
      .ofList [(0, ⟨0, true, []⟩), (1, ⟨0, false, [0]⟩)], [0], .ofList [(0, 20.5), (1, 62)]⟩
    ReadsBack commands ∧ ReadsBack g ∧ ReadsBack l ∧ ReadsBack a := by
  intro commands g l a
  have hcommands : ∀ x ∈ commands.flatMap Command.numbers, x.isFinite = true := by decide +kernel
  have hg : ∀ x ∈ g.numbers, x.isFinite = true := by decide +kernel
  have hl : ∀ x ∈ l.numbers, x.isFinite = true := by decide +kernel
  have ha : ∀ x ∈ a.numbers, x.isFinite = true := by decide +kernel
  have h := output_readsBack commands g l a .empty
  exact ⟨h.1 hcommands, h.2.1 hg, h.2.2.1 hl, h.2.2.2.1 ha⟩

end FrameAtlas
