import FrameAtlas.Proofs.Scalar.Exact
import FrameAtlas.Proofs.Surface.CurrentMark
import FrameAtlas.Proofs.Surface.Rects
import Mathlib.Algebra.Order.Field.Basic
import Mathlib.Data.Finset.Card
import Mathlib.Data.Nat.Cast.Order.Ring
import Mathlib.Tactic.GCongr
import Mathlib.Tactic.Ring

/-!
The cells of a pyramid. Every frame of a list has one, in the row of its layer and the column of its index, and both
are found by counting: the row by the higher layers of the list, the column by its smaller indices. Layers hold every
frame and columns the distinct indices only, yet no frame of a layer is without a column. In exact numbers the
cells of two columns lie beside one another, and those of two rows one above the other.
-/

namespace FrameAtlas

section Ranks

variable {R : UInt32 → UInt32 → Prop} [DecidableRel R]

/-- What comes before a value of a list in strict order is what stands before it. -/
theorem filter_before_eq_take (hasymm : ∀ x y, R x y → ¬ R y x) {l : List UInt32}
    (hl : l.Pairwise R) {place : Nat} {x : UInt32} (hx : l[place]? = some x) :
    (l.filter fun y => R y x) = l.take place := by
  obtain ⟨hplace, hget⟩ := List.getElem?_eq_some_iff.1 hx
  have hsplit : l = l.take place ++ x :: l.drop (place + 1) := by
    rw [← hget, List.getElem_cons_drop, List.take_append_drop]
  obtain ⟨-, hbehind, hordered⟩ := List.pairwise_append.1 (hsplit ▸ hl)
  have htake : (l.take place).filter (fun y => R y x) = l.take place := by
    rw [List.filter_eq_self]
    intro y hy
    exact decide_eq_true (hordered y hy x List.mem_cons_self)
  have hdrop : (x :: l.drop (place + 1)).filter (fun y => R y x) = [] := by
    rw [List.filter_eq_nil_iff]
    intro y hy
    rcases List.mem_cons.1 hy with rfl | hy
    · simpa using fun h => hasymm y y h h
    · simpa using hasymm x y ((List.pairwise_cons.1 hbehind).1 y hy)
  calc (l.filter fun y => R y x)
      = (l.take place ++ x :: l.drop (place + 1)).filter fun y => R y x := by rw [← hsplit]
    _ = l.take place := by rw [List.filter_append, htake, hdrop, List.append_nil]

/-- As many values of a set come before one of them as stand before it in a list of the set in strict order. -/
theorem card_filter_before (hasymm : ∀ x y, R x y → ¬ R y x) {l : List UInt32}
    (hl : l.Pairwise R) {s : Finset UInt32} (hs : ∀ x, x ∈ s ↔ x ∈ l) {place : Nat} {x : UInt32}
    (hx : l[place]? = some x) : (s.filter fun y => R y x).card = place := by
  have hnodup : l.Nodup := by
    refine hl.imp ?_
    rintro y z hyz rfl
    exact hasymm y y hyz hyz
  have hset : (s.filter fun y => R y x) = (l.take place).toFinset := by
    ext y
    rw [← filter_before_eq_take hasymm hl hx, Finset.mem_filter, List.mem_toFinset, List.mem_filter, hs,
      decide_eq_true_iff]
  have hplace : place ≤ l.length := Nat.le_of_lt (List.getElem?_eq_some_iff.1 hx).1
  rw [hset, List.toFinset_card_of_nodup (hnodup.sublist (List.take_sublist place l)),
    List.length_take_of_le hplace]

theorem card_filter_before_lt (hasymm : ∀ x y, R x y → ¬ R y x)
    (htrans : ∀ x y z, R x y → R y z → R x z) {s : Finset UInt32} {x y : UInt32} (hx : x ∈ s)
    (hxy : R x y) : (s.filter fun z => R z x).card < (s.filter fun z => R z y).card := by
  apply Finset.card_lt_card
  rw [Finset.ssubset_iff_of_subset (Finset.monotone_filter_right s fun z _ hz => htrans z x y hz hxy)]
  refine ⟨x, Finset.mem_filter.2 ⟨hx, hxy⟩, ?_⟩
  rw [Finset.mem_filter]
  exact fun h => hasymm x x h.2 h.2

end Ranks

def indexSet (frames : List Frame) : Finset UInt32 := (frames.map Frame.index).toFinset

def levelSet (frames : List Frame) : Finset UInt32 := (frames.map Frame.level).toFinset

def columnOf (frames : List Frame) (index : UInt32) : Nat := ((indexSet frames).filter fun i => i < index).card

def rowOf (frames : List Frame) (level : UInt32) : Nat := ((levelSet frames).filter fun l => level < l).card

/-- Columns ascend with the indices. -/
theorem columnOf_lt_columnOf {frames : List Frame} {i j : UInt32} (hi : i ∈ indexSet frames) (hlt : i < j) :
    columnOf frames i < columnOf frames j :=
  card_filter_before_lt (R := fun i j => i < j) (fun _ _ => UInt32.lt_asymm) (fun _ _ _ => UInt32.lt_trans) hi hlt

/-- Rows descend with the levels. -/
theorem rowOf_lt_rowOf {frames : List Frame} {j k : UInt32} (hj : j ∈ levelSet frames) (hlt : k < j) :
    rowOf frames j < rowOf frames k :=
  card_filter_before_lt (R := fun j k => k < j) (fun _ _ => UInt32.lt_asymm)
    (fun _ _ _ hxy hyz => UInt32.lt_trans hyz hxy) hj hlt

theorem mem_indexSet {frames : List Frame} {index : UInt32} :
    index ∈ indexSet frames ↔ ∃ f ∈ frames, f.index = index := by
  rw [indexSet, List.mem_toFinset, List.mem_map]

variable {α : Type}

theorem mem_keys_iff_mem_indexSet (frames : List Frame) (index : UInt32) :
    index ∈ (analyze frames : TemporalAnalysis α).frameMap.keys ↔ index ∈ indexSet frames :=
  (mem_keys_frameMap frames index).trans mem_indexSet.symm

theorem size_frameMap (frames : List Frame) :
    (analyze frames : TemporalAnalysis α).frameMap.size = (indexSet frames).card := by
  let keys := (analyze frames : TemporalAnalysis α).frameMap.keys
  have hset : indexSet frames = keys.toFinset := by
    ext index
    rw [List.mem_toFinset, mem_keys_iff_mem_indexSet]
  rw [hset, List.toFinset_card_of_nodup (IndexMap.nodup_keys _)]
  exact (List.length_map _).symm

theorem frames_eq_nil_of_isEmpty {frames : List Frame} (hempty : (analyze frames : TemporalAnalysis α).isEmpty) :
    frames = [] := by
  rw [List.eq_nil_iff_forall_not_mem]
  intro f hf
  have hkey := (mem_keys_frameMap (α := α) frames f.index).2 ⟨f, hf, rfl⟩
  rw [IndexMap.keys, List.isEmpty_iff.1 hempty] at hkey
  contradiction

/-- The entry of an index stands in the map where its column is in the grid. -/
theorem exists_entry_columnOf {frames : List Frame} {index : UInt32} (hindex : index ∈ indexSet frames) :
    ∃ entry,
      (analyze frames : TemporalAnalysis α).frameMap.entries[columnOf frames index]? = some (index, entry) := by
  have hkey := (mem_keys_iff_mem_indexSet (α := α) frames index).2 hindex
  obtain ⟨place, hplace⟩ := List.getElem?_of_mem hkey
  have hcolumn : columnOf frames index = place :=
    card_filter_before (fun _ _ => UInt32.lt_asymm) (IndexMap.keys_ascending _)
      (fun i => (mem_keys_iff_mem_indexSet frames i).symm) hplace
  rw [IndexMap.keys, List.getElem?_map, Option.map_eq_some_iff] at hplace
  obtain ⟨⟨i, entry⟩, hentry, rfl⟩ := hplace
  exact ⟨entry, hcolumn ▸ hentry⟩

/-- The row of a layer is its place among the layers. -/
theorem rowOf_of_getElem? {frames : List Frame} {row : Nat} {l : TemporalLevel}
    (hl : (analyze frames : TemporalAnalysis α).levels[row]? = some l) : rowOf frames l.level = row := by
  rw [analyze_levels, List.getElem?_map, Option.map_eq_some_iff] at hl
  obtain ⟨level, hlevel, rfl⟩ := hl
  -- The layers descend, so the higher levels are the ones that stand before a layer.
  have hmem (k : UInt32) : k ∈ levelSet frames ↔ k ∈ levelNumbers frames := by
    rw [levelSet, List.mem_toFinset, List.mem_map, mem_levelNumbers]
  exact card_filter_before (R := fun j k => k < j) (fun _ _ => UInt32.lt_asymm)
    (levelNumbers_descending frames) hmem hlevel

namespace PyramidGrid

variable [Scalar α]

def cellAt (g : PyramidGrid α) (row column : Nat) : Rect α :=
  ⟨g.origin.x + (column : α) * g.columnWidth, g.origin.y + (row : α) * g.rowHeight,
    g.columnWidth - (cellGap : α), g.rowHeight - (cellGap : α)⟩

def columnCenter (g : PyramidGrid α) (column : Nat) : α :=
  g.origin.x + ((column : α) + ((1 : Nat) : α) / ((2 : Nat) : α)) * g.columnWidth

/-- A grid that has a column for every distinct index of a list, in ascending order, and no other column. -/
structure IsGridOf (frames : List Frame) (g : PyramidGrid α) : Prop where
  column : ∀ index, g.columns.get? index = if index ∈ indexSet frames then some (columnOf frames index) else none
  columns_numbered : g.columns.entries.map Prod.snd = List.range (indexSet frames).card
  position : ∀ index, g.framePositions.get? index =
    if index ∈ indexSet frames then some (g.columnCenter (columnOf frames index)) else none
  size_positions : g.framePositions.size = (indexSet frames).card

theorem get?_columns (frames : List Frame) (v : Viewport α) (index : UInt32) :
    (compute (analyze frames) v).columns.get? index =
      if index ∈ indexSet frames then some (columnOf frames index) else none := by
  split
  · rename_i hindex
    obtain ⟨entry, hentry⟩ := exists_entry_columnOf (α := α) hindex
    exact IndexMap.get?_mapRanked _ hentry
  · rename_i hindex
    apply IndexMap.get?_mapRanked_eq_none
    rw [mem_keys_iff_mem_indexSet]
    exact hindex

theorem size_columns (frames : List Frame) (v : Viewport α) :
    (compute (analyze frames) v).columns.size = (indexSet frames).card := by
  rw [compute, IndexMap.size_mapRanked, size_frameMap]

/-- The grid of an analysis has a column for each index of the list. -/
theorem isGridOf_compute (frames : List Frame) (v : Viewport α) :
    IsGridOf frames (compute (analyze frames) v) where
  column := get?_columns frames v
  columns_numbered := by
    rw [← size_columns frames v]
    apply List.ext_getElem
    · simp [IndexMap.size]
    · intro rank _ _
      simp [compute, IndexMap.mapRanked]
  position := by
    intro index
    rw [framePositions, IndexMap.get?_mapRanked_value, get?_columns]
    split
    · rfl
    · rfl
  size_positions := by
    rw [framePositions, IndexMap.size_mapRanked, size_columns]

theorem cell?_eq_cellAt {frames : List Frame} {g : PyramidGrid α} (hg : IsGridOf frames g) {index : UInt32}
    (hindex : index ∈ indexSet frames) (row : Nat) :
    g.cell? row index = some (g.cellAt row (columnOf frames index)) := by
  rw [cell?, hg.column, if_pos hindex]
  rfl

end PyramidGrid

namespace Pyramid

variable [Scalar α]

def cells (commands : List (Command α)) : List (RectCommand α) :=
  (rectsOf commands).filter fun c => c.frameIndex.isSome

def place (frames : List Frame) (v : Viewport α) (level index : UInt32) : Rect α :=
  (PyramidGrid.compute (analyze frames) v).cellAt (rowOf frames level) (columnOf frames index)

def cellRect (r : Rect α) (level : UInt32) (f : LevelFrame) (isCurrent : Bool) : RectCommand α where
  rect := r
  color := if f.isKeyframe then .frameIntra else Color.ofLevel level
  borderColor := if isCurrent then some .currentFrame else none
  label := some ("#" ++ toString f.index.toNat ++ " " ++ levelName level ++ " refs:" ++ toString f.refs.length)
  frameIndex := some f.index
  current := isCurrent

def cellOf (frames : List Frame) (v : Viewport α) (current : Option UInt32) (level : UInt32) (f : LevelFrame) :
    RectCommand α :=
  cellRect (place frames v level f.index) level f (current == some f.index)

theorem rectsOf_rowCommands {frames : List Frame} {v : Viewport α} (current : Option UInt32) {row : Nat}
    {l : TemporalLevel} (hl : (analyze frames : TemporalAnalysis α).levels[row]? = some l) :
    rectsOf (rowCommands (PyramidGrid.compute (analyze frames) v) v current row l) =
      l.frames.map fun f => cellOf frames v current l.level f := by
  have hgrid := PyramidGrid.isGridOf_compute frames v
  have hindices := analyze_levels_index_perm (α := α) frames
  have hcell : ∀ f ∈ l.frames, (PyramidGrid.compute (analyze frames) v).cell? row f.index =
      some (place frames v l.level f.index) := by
    intro f hf
    -- The columns come from the map by index and the rows from the layers; both hold the indices of the list.
    have hindex : f.index ∈ indexSet frames := by
      rw [indexSet, List.mem_toFinset, ← hindices.mem_iff]
      exact List.mem_flatMap.2 ⟨l, List.mem_of_getElem? hl, List.mem_map_of_mem hf⟩
    rw [PyramidGrid.cell?_eq_cellAt hgrid hindex, place, rowOf_of_getElem? hl]
  rw [rowCommands, rowLabel]
  simp only [rectsOf_text]
  rw [rectsOf, List.filterMap_filterMap, ← List.filterMap_eq_map]
  apply List.filterMap_congr
  intro f hf
  rw [hcell f hf]
  rfl

theorem rectsOf_boundaryLines (g : PyramidGrid α) (v : Viewport α) (gridHeight : α) (boundaries : List UInt32) :
    rectsOf (boundaries.filterMap fun b => (g.cell? 0 b).map (boundaryLine v gridHeight)) = [] := by
  rw [rectsOf, List.filterMap_eq_nil_iff]
  intro c hc
  obtain ⟨b, -, hb⟩ := List.mem_filterMap.1 hc
  obtain ⟨r, -, rfl⟩ := Option.map_eq_some_iff.1 hb
  rfl

theorem rectsOf_rows (frames : List Frame) (v : Viewport α) (current : Option UInt32) :
    rectsOf ((analyze frames : TemporalAnalysis α).levels.mapIdx fun row l =>
        rowCommands (PyramidGrid.compute (analyze frames) v) v current row l).flatten =
      (analyze frames : TemporalAnalysis α).levels.flatMap fun l =>
        l.frames.map fun f => cellOf frames v current l.level f := by
  rw [rectsOf_flatten, List.flatMap_def]
  congr 1
  apply List.ext_getElem?
  intro row
  rw [List.getElem?_map, List.getElem?_mapIdx, List.getElem?_map]
  cases hl : (analyze frames : TemporalAnalysis α).levels[row]? with
  | none => rfl
  | some l => exact congrArg some (rectsOf_rowCommands current hl)

/-- A pyramid draws just one cell for each frame of the list. -/
theorem cells_render_perm (frames : List Frame) (v : Viewport α) (current : Option UInt32) :
    (cells (render (analyze frames) v current)).Perm
      (frames.map fun f => cellOf frames v current f.level f.levelFrame) := by
  have hlevels : ((analyze frames : TemporalAnalysis α).levels.flatMap fun l =>
      l.frames.map fun f => cellOf frames v current l.level f).Perm
        (frames.map fun f => cellOf frames v current f.level f.levelFrame) := by
    have h := (analyze_levels_perm (α := α) frames).map fun p => cellOf frames v current p.1 p.2
    simpa only [List.map_flatMap, List.map_map, Function.comp_def] using h
  have hframed : ∀ c ∈ (analyze frames : TemporalAnalysis α).levels.flatMap fun l =>
      l.frames.map fun f => cellOf frames v current l.level f, c.frameIndex.isSome = true := by
    intro c hc
    obtain ⟨l, -, hl⟩ := List.mem_flatMap.1 hc
    obtain ⟨f, -, rfl⟩ := List.mem_map.1 hl
    rfl
  unfold render
  split
  · rename_i hempty
    rw [frames_eq_nil_of_isEmpty hempty]
    exact .refl _
  · simp only [cells, rectsOf_beginGroup, rectsOf_rect, rectsOf_append, rectsOf_rows, rectsOf_boundaryLines,
      rectsOf_endGroup, rectsOf_nil, List.append_nil]
    rw [List.filter_cons_of_neg Bool.false_ne_true, List.filter_eq_self.2 hframed]
    exact hlevels

end Pyramid

namespace PyramidGrid

theorem minColumnWidth_le (analysis : TemporalAnalysis Rat) (v : Viewport Rat) :
    (minColumnWidth : Rat) ≤ (compute analysis v).columnWidth := by
  rw [compute, Scalar.larger_eq_max]
  exact le_max_right _ _

theorem minRowHeight_le (analysis : TemporalAnalysis Rat) (v : Viewport Rat) :
    (minRowHeight : Rat) ≤ (compute analysis v).rowHeight :=
  Scalar.le_clamp (Nat.cast_le.2 (by decide)) _

/-- What fills a step but for a gap ends a gap before any later step. -/
theorem step_add_le {start size gap : Rat} (hsize : 0 ≤ size) {place other : Nat} (hlt : place < other) :
    start + place * size + (size - gap) + gap ≤ start + other * size := by
  have hnext : (place : Rat) + 1 ≤ other := by exact_mod_cast hlt
  calc start + place * size + (size - gap) + gap = start + (place + 1) * size := by ring
    _ ≤ start + other * size := by gcongr

theorem columnCenter_lt {g : PyramidGrid Rat} (hwidth : 0 < g.columnWidth) {column other : Nat}
    (hlt : column < other) : g.columnCenter column < g.columnCenter other := by
  have hcast : (column : Rat) < other := Nat.cast_lt.2 hlt
  unfold columnCenter
  gcongr

theorem columnWidth_pos (analysis : TemporalAnalysis Rat) (v : Viewport Rat) :
    0 < (compute analysis v).columnWidth := by
  have hmin : (0 : Rat) < (minColumnWidth : Rat) := by decide +kernel
  exact lt_of_lt_of_le hmin (minColumnWidth_le analysis v)

theorem rowHeight_pos (analysis : TemporalAnalysis Rat) (v : Viewport Rat) :
    0 < (compute analysis v).rowHeight := by
  have hmin : (0 : Rat) < (minRowHeight : Rat) := by decide +kernel
  exact lt_of_lt_of_le hmin (minRowHeight_le analysis v)

/-- Positions of frames ascend with their indices. -/
theorem positions_ascending (frames : List Frame) (v : Viewport Rat) :
    (compute (analyze frames) v).framePositions.entries.Pairwise fun a b => a.1 < b.1 ∧ a.2 < b.2 := by
  let g := compute (analyze frames) v
  have hplaced : ∀ a ∈ g.framePositions.entries,
      a.1 ∈ indexSet frames ∧ a.2 = g.columnCenter (columnOf frames a.1) := by
    intro a ha
    have hget := IndexMap.get?_of_mem_entries ha
    rw [(isGridOf_compute frames v).position] at hget
    split at hget
    · rename_i hindex
      exact ⟨hindex, (Option.some.inj hget).symm⟩
    · contradiction
  refine g.framePositions.ascending.imp_of_mem ?_
  intro a b ha hb hlt
  obtain ⟨hindex, hcenter⟩ := hplaced a ha
  obtain ⟨-, hother⟩ := hplaced b hb
  refine ⟨hlt, ?_⟩
  rw [hcenter, hother]
  exact columnCenter_lt (columnWidth_pos _ v) (columnOf_lt_columnOf hindex hlt)

end PyramidGrid

namespace Pyramid

/-- The cells of a pyramid lie apart: a gap lies between those of two indices, and between those of two levels. -/
structure LieApart (frames : List Frame) (v : Viewport Rat) : Prop where
  filled : ∀ f ∈ frames, 0 < (place frames v f.level f.index).w ∧ 0 < (place frames v f.level f.index).h
  columns : ∀ f ∈ frames, ∀ g ∈ frames, f.index < g.index →
    (place frames v f.level f.index).right + (PyramidGrid.cellGap : Rat) ≤ (place frames v g.level g.index).x
  rows : ∀ f ∈ frames, ∀ g ∈ frames, g.level < f.level →
    (place frames v f.level f.index).y + (place frames v f.level f.index).h + (PyramidGrid.cellGap : Rat) ≤
      (place frames v g.level g.index).y

/-- Gaps lie between the columns and between the rows, however small the viewport. -/
theorem lieApart (frames : List Frame) (v : Viewport Rat) : LieApart frames v where
  filled := by
    intro f _
    have hwidth : (PyramidGrid.cellGap : Rat) < (PyramidGrid.minColumnWidth : Rat) := by decide +kernel
    have hheight : (PyramidGrid.cellGap : Rat) < (PyramidGrid.minRowHeight : Rat) := by decide +kernel
    exact ⟨sub_pos.2 (lt_of_lt_of_le hwidth (PyramidGrid.minColumnWidth_le _ v)),
      sub_pos.2 (lt_of_lt_of_le hheight (PyramidGrid.minRowHeight_le _ v))⟩
  columns := by
    intro f hf g _ hlt
    have hindex : f.index ∈ indexSet frames := mem_indexSet.2 ⟨f, hf, rfl⟩
    exact PyramidGrid.step_add_le (le_of_lt (PyramidGrid.columnWidth_pos _ v)) (columnOf_lt_columnOf hindex hlt)
  rows := by
    intro f hf g _ hlt
    have hlevel : f.level ∈ levelSet frames := List.mem_toFinset.2 (List.mem_map_of_mem hf)
    exact PyramidGrid.step_add_le (le_of_lt (PyramidGrid.rowHeight_pos _ v)) (rowOf_lt_rowOf hlevel hlt)

/-- A pyramid draws every frame of a list once, whatever indices repeat: in the row that the number of higher levels
gives it and the column that the number of smaller indices gives it. Columns are numbered without gaps, and every
index has one, with one position. In exact numbers cells of distinct indices lie beside one another, those of
distinct levels one above the other, and the positions ascend with the indices. -/
theorem every_frame_has_own_cell [Scalar α] :
    (∀ (frames : List Frame) (v : Viewport α) (current : Option UInt32),
      let drawn := cells (render (analyze frames) v current)
      (drawn.map RectCommand.frameIndex).Perm (frames.map fun f => some f.index) ∧
        drawn.Perm (frames.map fun f => cellOf frames v current f.level f.levelFrame) ∧
        PyramidGrid.IsGridOf frames (PyramidGrid.compute (analyze frames) v)) ∧
    ∀ (frames : List Frame) (v : Viewport Rat),
      LieApart frames v ∧
        (PyramidGrid.compute (analyze frames) v).framePositions.entries.Pairwise
          fun a b => a.1 < b.1 ∧ a.2 < b.2 := by
  constructor
  · intro frames v current drawn
    have hdrawn : drawn.Perm (frames.map fun f => cellOf frames v current f.level f.levelFrame) :=
      cells_render_perm frames v current
    refine ⟨?_, hdrawn, PyramidGrid.isGridOf_compute frames v⟩
    have hindices := hdrawn.map RectCommand.frameIndex
    rw [List.map_map] at hindices
    exact hindices
  · intro frames v
    exact ⟨lieApart frames v, PyramidGrid.positions_ascending frames v⟩

/-- Of four frames in two levels two share an index, and so a column. The frame with the next smaller index is to the
left of them, and above the one of them that is in the lower level. -/
theorem every_frame_has_own_cell_of_four :
    let first : Frame := { index := 1, temporalId := some 2 }
    let second : Frame := { index := 4, kind := .intra }
    let frames : List Frame := [second, first, { index := 4, temporalId := some 2 }, { index := 9 }]
    let v : Viewport Rat := .sized 118 40
    let cell (f : Frame) : Rect Rat := place frames v f.level f.index
    (first ∈ frames ∧ second ∈ frames ∧ first.index < second.index ∧ second.level < first.level) ∧
      cell first = ⟨28, 0, 29, 19⟩ ∧ cell second = ⟨58, 20, 29, 19⟩ ∧
      (cell first).right + (PyramidGrid.cellGap : Rat) ≤ (cell second).x ∧
      (cell first).y + (cell first).h + (PyramidGrid.cellGap : Rat) ≤ (cell second).y ∧
      ((cells (render (analyze frames) v none)).map RectCommand.frameIndex).Perm
        [some 4, some 1, some 4, some 9] := by
  intro first second frames v cell
  obtain ⟨hdrawn, hexact⟩ := every_frame_has_own_cell (α := Rat)
  obtain ⟨-, hcolumns, hrows⟩ := (hexact frames v).1
  have hfirst : first ∈ frames := by decide
  have hsecond : second ∈ frames := by decide
  have hindex : first.index < second.index := by decide
  have hlevel : second.level < first.level := by decide
  exact ⟨⟨hfirst, hsecond, hindex, hlevel⟩, by decide +kernel, by decide +kernel,
    hcolumns first hfirst second hsecond hindex, hrows first hfirst second hsecond hlevel, (hdrawn frames v none).1⟩

end Pyramid

end FrameAtlas
