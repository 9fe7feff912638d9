import FrameAtlas.Proofs.Scalar.Exact
import FrameAtlas.Proofs.Surface.Buckets
import FrameAtlas.Proofs.Surface.CurrentMark
import FrameAtlas.Proofs.Surface.Rects
import Mathlib.Algebra.Order.Field.Basic
import Mathlib.Data.Nat.Cast.Order.Ring

namespace FrameAtlas

open CheckedCount

namespace Minimap

variable {α : Type} [Scalar α]

def fills (commands : List (Command α)) : List (RectCommand α) :=
  (rectsOf commands).filter fun c => c.borderColor.isNone && !c.current

def outlines (commands : List (Command α)) : List (RectCommand α) :=
  (rectsOf commands).filter fun c => c.color == .minimapViewport

def background (v : Viewport α) : RectCommand α :=
  ⟨⟨v.x, v.y, v.width, v.height⟩, .minimapBackground, none, none, none, false⟩

def barRect (v : Viewport α) (colWidth maxBytes : α) (column : Nat) (frames : List Frame) : RectCommand α :=
  let h := (v.height - (tickHeight : α)) * barFraction maxBytes (bytes frames)
  ⟨⟨v.x + (column : α) * colWidth, v.y + v.height - h, colWidth, h⟩, barColor frames, none, none, none, false⟩

def outlineRect (v : Viewport α) (count : Nat) (r : PositionRange) : RectCommand α :=
  let left := positionX v (v.width / (count : α)) r.start
  ⟨⟨left, v.y, positionX v (v.width / (count : α)) r.stop - left, v.height⟩, .minimapViewport, some .border, none,
    none, false⟩

theorem columnCount_pos (width : α) {count : Nat} (hcount : 0 < count) : 0 < columnCount width count := by
  unfold columnCount
  omega

/-- There are no more columns than frames. -/
theorem columnCount_le (width : α) (count : Nat) : columnCount width count ≤ count := Nat.min_le_right _ _

theorem columnCount?_eq (width : α) {count : Nat} (hcount : 0 < count) :
    columnCount? width count = some (columnCount width count) := clamp?_of_le hcount _

/-- The visible part cut to the list: the positions of the list that are asked for. -/
theorem shown?_spec (count : Nat) (visible : PositionRange) :
    ∃ r, shown? count visible = some r ∧
      r = ⟨min visible.start count, min (max visible.stop (min visible.start count)) count⟩ ∧
      (r.start < r.stop ↔ min visible.start count < min visible.stop count) ∧
      ∀ position, r.Contains position ↔ position < count ∧ visible.Contains position := by
  have hclamp := clamp?_of_le (Nat.min_le_right visible.start count) visible.stop
  refine ⟨_, ?_, rfl, ?_, ?_⟩
  · simp only [shown?, hclamp, Option.bind_eq_bind, Option.bind_some]
    rfl
  · simp only
    omega
  · intro position
    simp only [PositionRange.Contains]
    omega

theorem rectsOf_window (v : Viewport α) (count : Nat) (visible : PositionRange) :
    ∃ r, shown? count visible = some r ∧
      (r.start < r.stop ↔ min visible.start count < min visible.stop count) ∧
      (∀ position, r.Contains position ↔ position < count ∧ visible.Contains position) ∧
      rectsOf (window v (v.width / (count : α)) count visible) =
        if r.start < r.stop then [outlineRect v count r] else [] := by
  obtain ⟨r, hshown, hr, hiff, hcontains⟩ := shown?_spec count visible
  refine ⟨r, hshown, hiff, hcontains, ?_⟩
  rw [hr, window]
  simp only
  split
  · rfl
  · rfl

def bars (frames : List Frame) (v : Viewport α) : List (RectCommand α) :=
  let columns := columnCount v.width frames.length
  let maxBytes := ((columnFrames frames columns).map bytes).foldl Scalar.larger ((0 : Nat) : α)
  (columnFrames frames columns).mapIdx (barRect v (v.width / (columns : α)) maxBytes)

def marks (frames : List Frame) (v : Viewport α) (current : Option Nat) : List (RectCommand α) :=
  rectsOf (match current with
    | none => []
    | some position => match frames[position]? with
      | some f => [marker v (v.width / (frames.length : α)) position f]
      | none => [])

theorem rectsOf_render {frames : List Frame} (hsome : frames ≠ []) (analysis : TemporalAnalysis α)
    {v : Viewport α} (hv : v.HasArea) (visible : PositionRange) (current : Option Nat) :
    rectsOf (render frames analysis v visible current) =
      background v :: (bars frames v ++
        rectsOf (window v (v.width / (frames.length : α)) frames.length visible) ++ marks frames v current) := by
  have hdrawn : ¬ (frames.isEmpty || decide (v.width ≤ ((0 : Nat) : α)) ||
      decide (v.height ≤ ((0 : Nat) : α))) = true := by
    simp [hsome, hv.1, hv.2]
  have hticks (frameWidth : α) (position : Nat) (f : Frame) :
      rectsOf (if analysis.isBoundary f.index then [tick v frameWidth position] else []) = [] := by
    split
    · rfl
    · rfl
  have hbars (colWidth maxBytes : α) (column : Nat) :
      ∀ b ∈ columnFrames frames (columnCount v.width frames.length),
        rectsOf (if b.isEmpty then [] else [bar v colWidth maxBytes column b]) =
          [barRect v colWidth maxBytes column b] := by
    intro b hb
    rw [if_neg (mt List.isEmpty_iff.1 (mem_columnFrames_ne_nil (columnCount_le _ _) hb))]
    rfl
  rw [render]
  simp only [if_neg hdrawn, plainRect, rectsOf_beginGroup, rectsOf_rect, rectsOf_append]
  rw [← columnFrames, rectsOf_mapIdx (hbars _ _), rectsOf_mapIdx_eq_nil (hticks _), List.append_nil]
  simp only [rectsOf_endGroup, rectsOf_nil, List.append_nil]
  rfl

theorem getElem?_bars {frames : List Frame} {v : Viewport α} {k : Nat} {c : RectCommand α}
    (hc : (bars frames v)[k]? = some c) :
    let columns := columnCount v.width frames.length
    k < columns ∧ c.rect.x = v.x + (k : α) * (v.width / (columns : α)) ∧ c.rect.w = v.width / (columns : α) ∧
      c.color = barColor (slice frames (bucket frames.length columns k)) := by
  intro columns
  rw [bars, List.getElem?_mapIdx, columnFrames, List.getElem?_map] at hc
  obtain ⟨b, hb, rfl⟩ := Option.map_eq_some_iff.1 hc
  obtain ⟨column, hcolumn, rfl⟩ := Option.map_eq_some_iff.1 hb
  have hk : k < columns := by
    simpa using (List.getElem?_eq_some_iff.1 hcolumn).1
  rw [List.getElem?_range hk] at hcolumn
  obtain rfl : k = column := Option.some.inj hcolumn
  exact ⟨hk, rfl, rfl, rfl⟩

/-- Every column has a bar. -/
theorem length_bars (frames : List Frame) (v : Viewport α) :
    (bars frames v).length = columnCount v.width frames.length := by
  rw [bars, List.length_mapIdx, columnFrames, List.length_map, List.length_range]

theorem isFill_of_mem_bars {frames : List Frame} {v : Viewport α} {c : RectCommand α} (hc : c ∈ bars frames v) :
    (c.borderColor.isNone && !c.current) = true ∧ (c.color == .minimapViewport) = false := by
  obtain ⟨k, hk, rfl⟩ := List.mem_mapIdx.1 hc
  exact ⟨rfl, beq_false_of_ne (barColor_ne_minimapViewport _)⟩

theorem isMark_of_mem_marks {frames : List Frame} {v : Viewport α} {current : Option Nat} {c : RectCommand α}
    (hc : c ∈ marks frames v current) :
    (c.borderColor.isNone && !c.current) = false ∧ (c.color == .minimapViewport) = false := by
  unfold marks at hc
  split at hc
  · contradiction
  · split at hc
    · rw [List.mem_singleton.1 hc]
      exact ⟨rfl, rfl⟩
    · contradiction

theorem fills_render {frames : List Frame} (hsome : frames ≠ []) (analysis : TemporalAnalysis α)
    {v : Viewport α} (hv : v.HasArea) (visible : PositionRange) (current : Option Nat) :
    fills (render frames analysis v visible current) = background v :: bars frames v := by
  obtain ⟨r, -, -, -, hwindow⟩ := rectsOf_window v frames.length visible
  have hbars : (bars frames v).filter (fun c => c.borderColor.isNone && !c.current) = bars frames v :=
    List.filter_eq_self.2 fun c hc => (isFill_of_mem_bars hc).1
  have hmarks : (marks frames v current).filter (fun c => c.borderColor.isNone && !c.current) = [] :=
    List.filter_eq_nil_iff.2 fun c hc => by rw [(isMark_of_mem_marks hc).1]; exact Bool.false_ne_true
  have houtline : (if r.start < r.stop then [outlineRect v frames.length r] else []).filter
      (fun c => c.borderColor.isNone && !c.current) = [] := by
    split
    · rfl
    · rfl
  rw [fills, rectsOf_render hsome analysis hv, List.filter_cons_of_pos rfl, List.filter_append,
    List.filter_append, hbars, hmarks, hwindow, houtline, List.append_nil, List.append_nil]

/-- The only outline is that of the visible part. -/
theorem outlines_render {frames : List Frame} (hsome : frames ≠ []) (analysis : TemporalAnalysis α)
    {v : Viewport α} (hv : v.HasArea) (visible : PositionRange) (current : Option Nat) :
    outlines (render frames analysis v visible current) =
      rectsOf (window v (v.width / (frames.length : α)) frames.length visible) := by
  obtain ⟨r, -, -, -, hwindow⟩ := rectsOf_window v frames.length visible
  have hbars : (bars frames v).filter (fun c => c.color == .minimapViewport) = [] :=
    List.filter_eq_nil_iff.2 fun c hc => by rw [(isFill_of_mem_bars hc).2]; exact Bool.false_ne_true
  have hmarks : (marks frames v current).filter (fun c => c.color == .minimapViewport) = [] :=
    List.filter_eq_nil_iff.2 fun c hc => by rw [(isMark_of_mem_marks hc).2]; exact Bool.false_ne_true
  have houtline : (if r.start < r.stop then [outlineRect v frames.length r] else []).filter
      (fun c => c.color == .minimapViewport) = if r.start < r.stop then [outlineRect v frames.length r] else [] := by
    split
    · rfl
    · rfl
  rw [outlines, rectsOf_render hsome analysis hv, List.filter_cons_of_neg Bool.false_ne_true, List.filter_append,
    List.filter_append, hbars, hmarks, hwindow, houtline, List.append_nil, List.nil_append]

theorem render_eq_nil {frames : List Frame} (analysis : TemporalAnalysis α) {v : Viewport α} (hv : ¬ v.HasArea)
    (visible : PositionRange) (current : Option Nat) : render frames analysis v visible current = [] := by
  have hflat : v.width ≤ ((0 : Nat) : α) ∨ v.height ≤ ((0 : Nat) : α) := by
    by_contra hnot
    exact hv (not_or.1 hnot)
  rw [render]
  apply if_pos
  rcases hflat with hwidth | hheight
  · simp [hwidth]
  · simp [hheight]

/-- A minimap whose columns have one bar each, and whose outline is that of the visible part of the list. -/
structure ShowsColumns (frames : List Frame) (v : Viewport α) (visible : PositionRange)
    (commands : List (Command α)) : Prop where
  counted : columnCount? v.width frames.length = some (columnCount v.width frames.length)
  columns : ∀ k < columnCount v.width frames.length,
    column? frames (columnCount v.width frames.length) k =
      some (slice frames (bucket frames.length (columnCount v.width frames.length) k))
  whole : (columnFrames frames (columnCount v.width frames.length)).flatten = frames
  bars : ∃ bars, fills commands = background v :: bars ∧ bars.length = columnCount v.width frames.length ∧
    ∀ (k : Nat) (c : RectCommand α), bars[k]? = some c →
      c.rect.x = v.x + (k : α) * (v.width / (columnCount v.width frames.length : α)) ∧
      c.rect.w = v.width / (columnCount v.width frames.length : α) ∧
      IsBarColor (slice frames (bucket frames.length (columnCount v.width frames.length) k)) c.color
  outline : ∃ r, shown? frames.length visible = some r ∧
    (r.start < r.stop ↔ min visible.start frames.length < min visible.stop frames.length) ∧
    (∀ position, r.Contains position ↔ position < frames.length ∧ visible.Contains position) ∧
    outlines commands = if r.start < r.stop then [outlineRect v frames.length r] else []

/-- A minimap shows the columns of its list, the visible part and nothing else. -/
theorem showsColumns_render {frames : List Frame} (hsome : frames ≠ [])
    (hword : frames.length * frames.length < UInt64.size) (analysis : TemporalAnalysis α) {v : Viewport α}
    (hv : v.HasArea) (visible : PositionRange) (current : Option Nat) :
    ShowsColumns frames v visible (render frames analysis v visible current) where
  counted := columnCount?_eq v.width (List.length_pos_iff.2 hsome)
  columns := fun _ hk => column?_eq (columnCount_le v.width frames.length) hword hk
  whole := flatten_columnFrames (columnCount_pos v.width (List.length_pos_iff.2 hsome))
    (columnCount_le v.width frames.length)
  bars := by
    refine ⟨bars frames v, fills_render hsome analysis hv visible current, length_bars frames v, ?_⟩
    intro k c hc
    obtain ⟨hk, hx, hw, hcolor⟩ := getElem?_bars hc
    refine ⟨hx, hw, ?_⟩
    rw [hcolor]
    exact isBarColor_barColor (slice_bucket_ne_nil (columnCount_le v.width frames.length) hk)
  outline := by
    obtain ⟨r, hshown, hiff, hcontains, hwindow⟩ := rectsOf_window v frames.length visible
    refine ⟨r, hshown, hiff, hcontains, ?_⟩
    rw [outlines_render hsome analysis hv, hwindow]

theorem positionX_le_iff (v : Viewport Rat) {frameWidth : Rat} (hwidth : 0 < frameWidth) (p q : Nat) :
    positionX v frameWidth p ≤ positionX v frameWidth q ↔ p ≤ q := by
  have hscale : (p : Rat) * frameWidth ≤ (q : Rat) * frameWidth ↔ (p : Rat) ≤ q := mul_le_mul_iff_left₀ hwidth
  unfold positionX
  rw [add_le_add_iff_left]
  exact hscale.trans Nat.cast_le

/-- In exact numbers the outline covers the visible positions and no others. -/
theorem outlines_cover_iff {frames : List Frame} {analysis : TemporalAnalysis Rat} {v : Viewport Rat}
    {visible : PositionRange} {current : Option Nat} {c : RectCommand Rat}
    (hc : c ∈ outlines (render frames analysis v visible current)) {position : Nat}
    (hposition : position < frames.length) :
    let frameWidth := v.width / (frames.length : Rat)
    (c.rect.x ≤ positionX v frameWidth position ∧ positionX v frameWidth (position + 1) ≤ c.rect.right) ↔
      visible.Contains position := by
  intro frameWidth
  have hsome : frames ≠ [] := List.length_pos_iff.1 (Nat.zero_lt_of_lt hposition)
  have hv : v.HasArea := by
    by_contra hflat
    rw [render_eq_nil analysis hflat] at hc
    contradiction
  have hwidth : 0 < frameWidth :=
    div_pos (not_le.1 hv.1) (Nat.cast_pos.2 (Nat.zero_lt_of_lt hposition))
  obtain ⟨r, -, -, hcontains, hwindow⟩ := rectsOf_window v frames.length visible
  rw [outlines_render hsome analysis hv, hwindow] at hc
  split at hc
  · rw [List.mem_singleton.1 hc]
    have hright : (outlineRect v frames.length r).rect.right = positionX v frameWidth r.stop :=
      add_sub_cancel _ _
    have hleft : (outlineRect v frames.length r).rect.x = positionX v frameWidth r.start := rfl
    have hpart : r.Contains position ↔ visible.Contains position :=
      (hcontains position).trans (and_iff_right hposition)
    rw [hright, hleft, positionX_le_iff v hwidth, positionX_le_iff v hwidth]
    exact hpart
  · contradiction

/-- The columns of a minimap share the list among them, side by side and evenly, for any number of columns up to
that of the frames, and no product in their bounds is larger than the square of the count. In a viewport with an
area every column has one bar, in the color of its frames, and the outline is that of the visible positions of the
list, whatever range is asked for; no clamp has its bounds crossed. In any other viewport nothing is drawn. -/
theorem columns_share_list :
    (∀ count columns : Nat, 0 < columns → columns ≤ count → count * count < UInt64.size →
      IsEvenPartition count columns ∧ ∀ k < columns, bucket? count columns k = some (bucket count columns k)) ∧
    (∀ (width : α) (count : Nat), 0 < count → 0 < columnCount width count ∧ columnCount width count ≤ count) ∧
    (∀ (frames : List Frame) (analysis : TemporalAnalysis α) (v : Viewport α) (visible : PositionRange)
      (current : Option Nat), frames ≠ [] → frames.length * frames.length < UInt64.size →
      (v.HasArea → ShowsColumns frames v visible (render frames analysis v visible current)) ∧
      (¬ v.HasArea → render frames analysis v visible current = [])) ∧
    ∀ (frames : List Frame) (analysis : TemporalAnalysis Rat) (v : Viewport Rat) (visible : PositionRange)
      (current : Option Nat), ∀ c ∈ outlines (render frames analysis v visible current),
      ∀ position < frames.length,
        (c.rect.x ≤ positionX v (v.width / (frames.length : Rat)) position ∧
          positionX v (v.width / (frames.length : Rat)) (position + 1) ≤ c.rect.right) ↔
        visible.Contains position := by
  refine ⟨?partition, ?counts, ?drawn, ?covered⟩
  case partition =>
    intro count columns hpos hle hword
    exact ⟨isEvenPartition hpos hle, fun _ hk => bucket?_eq hle hword hk⟩
  case counts =>
    intro width count hcount
    exact ⟨columnCount_pos width hcount, columnCount_le width count⟩
  case drawn =>
    intro frames analysis v visible current hsome hword
    exact ⟨fun hv => showsColumns_render hsome hword analysis hv visible current,
      fun hv => render_eq_nil analysis hv visible current⟩
  case covered =>
    intro frames analysis v visible current c hc position hposition
    exact outlines_cover_iff hc hposition

/-- Five frames in two columns, the first of them a keyframe's, and a range that goes beyond the list. -/
theorem columns_share_list_of_five :
    let frames : List Frame := [{ index := 4, kind := .intra }, { index := 0, temporalId := some 2 },
      { index := 1, temporalId := some 1 }, { index := 2, temporalId := some 3 }, { index := 3 }]
    let v : Viewport Rat := .sized 6 30
    (0 < 2 ∧ 2 ≤ 5 ∧ 5 * 5 < UInt64.size ∧ frames ≠ [] ∧ v.HasArea ∧ columnCount v.width 5 = 2) ∧
      IsEvenPartition 5 2 ∧ barColor (slice frames (bucket 5 2 1)) = .level3 ∧
      ShowsColumns frames v ⟨3, 9⟩ (render frames (analyze frames) v ⟨3, 9⟩ (some 1)) := by
  intro frames v
  have hword : 5 * 5 < UInt64.size := by decide
  have hsome : frames ≠ [] := by decide
  have hv : v.HasArea := by
    constructor
    · decide +kernel
    · decide +kernel
  have hcount : columnCount v.width 5 = 2 := by decide +kernel
  obtain ⟨hpartition, -, hdrawn, -⟩ := columns_share_list (α := Rat)
  refine ⟨⟨by decide, by decide, hword, hsome, hv, hcount⟩, (hpartition 5 2 (by decide) (by decide) hword).1, ?_,
    (hdrawn frames (analyze frames) v ⟨3, 9⟩ (some 1) hsome hword).1 hv⟩
  decide +kernel

/-- A viewport of some width but no height gets neither bars nor outline, though its width has room for columns. -/
theorem no_columns_without_height :
    let frames : List Frame := [{ index := 0, kind := .intra }, { index := 1 }]
    let v : Viewport Rat := .sized 300 0
    let commands := render frames (analyze frames) v ⟨0, 2⟩ none
    0 < v.width ∧ min 0 frames.length < min 2 frames.length ∧ columnCount v.width frames.length = 2 ∧
      (fills commands).length ≠ columnCount v.width frames.length + 1 ∧ outlines commands = [] := by
  decide +kernel

end Minimap

end FrameAtlas
