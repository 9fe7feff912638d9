import FrameAtlas.Proofs.Strip
import FrameAtlas.Proofs.Temporal
import FrameAtlas.Surface.Filmstrip
import FrameAtlas.Surface.Overlay
import FrameAtlas.Surface.Pyramid
import FrameAtlas.Surface.Timeline

namespace FrameAtlas

variable {α β γ : Type}

def Command.currentMark? : Command α → Option (Option UInt32)
  | .rect c => if c.current then some c.frameIndex else none
  | _ => none

/-- The frames that the rectangles marked as current stand for, in the order of drawing. -/
def currentMarks (commands : List (Command α)) : List (Option UInt32) :=
  commands.filterMap Command.currentMark?

@[simp] theorem currentMarks_nil : currentMarks ([] : List (Command α)) = [] := rfl

@[simp] theorem currentMarks_append (first second : List (Command α)) :
    currentMarks (first ++ second) = currentMarks first ++ currentMarks second :=
  List.filterMap_append

@[simp] theorem currentMarks_rect (c : RectCommand α) (rest : List (Command α)) :
    currentMarks (.rect c :: rest) =
      (if c.current then [c.frameIndex] else []) ++ currentMarks rest := by
  rw [currentMarks, List.filterMap_cons, Command.currentMark?]
  cases c.current <;> rfl

@[simp] theorem currentMarks_text (c : TextCommand α) (rest : List (Command α)) :
    currentMarks (.text c :: rest) = currentMarks rest := rfl

@[simp] theorem currentMarks_line (c : LineCommand α) (rest : List (Command α)) :
    currentMarks (.line c :: rest) = currentMarks rest := rfl

@[simp] theorem currentMarks_path (c : PathCommand α) (rest : List (Command α)) :
    currentMarks (.path c :: rest) = currentMarks rest := rfl

@[simp] theorem currentMarks_beginGroup (id : String) (label : Option String)
    (rest : List (Command α)) :
    currentMarks (.beginGroup id label :: rest) = currentMarks rest := rfl

@[simp] theorem currentMarks_endGroup (rest : List (Command α)) :
    currentMarks (.endGroup :: rest) = currentMarks rest := rfl

/-- Where the elements of a list are drawn one after the other, so are their marks. -/
theorem currentMarks_mapIdx_eq_flatMap {draw : Nat → β → List (Command α)}
    {marks : β → List (Option UInt32)} {l : List β}
    (hdraw : ∀ i, ∀ a ∈ l, currentMarks (draw i a) = marks a) :
    currentMarks (l.mapIdx draw).flatten = l.flatMap marks := by
  induction l generalizing draw with
  | nil => rfl
  | cons a rest ih =>
    rw [List.mapIdx_cons, List.flatten_cons, currentMarks_append, List.flatMap_cons,
      hdraw 0 a List.mem_cons_self, ih fun i b hb => hdraw (i + 1) b (List.mem_cons_of_mem a hb)]

theorem currentMarks_mapIdx_eq_nil {draw : Nat → β → List (Command α)}
    (hdraw : ∀ i a, currentMarks (draw i a) = []) (l : List β) :
    currentMarks (l.mapIdx draw).flatten = [] := by
  rw [currentMarks_mapIdx_eq_flatMap (fun i a _ => hdraw i a), List.flatMap_eq_nil_iff]
  intro a _
  rfl

/-- Where the elements of a list are drawn one after the other, the marks are those of the element at
the current position, if it is there. -/
theorem currentMarks_mapIdx (draw : Nat → β → List (Command α)) (frame : β → UInt32) (start : Nat)
    (current : Option Nat)
    (hdraw : ∀ i a, currentMarks (draw i a) =
      if current = some (start + i) then [some (frame a)] else [])
    (hstart : ∀ c, current = some c → start ≤ c) (l : List β) :
    currentMarks (l.mapIdx draw).flatten =
      ((current.bind fun c => l[c - start]?).map fun a => some (frame a)).toList := by
  induction l generalizing start draw with
  | nil => cases current <;> rfl
  | cons a rest ih =>
    rw [List.mapIdx_cons, List.flatten_cons, currentMarks_append, hdraw]
    by_cases hhere : current = some start
    · have hrest : currentMarks (rest.mapIdx fun i => draw (i + 1)).flatten = [] := by
        apply currentMarks_mapIdx_eq_nil
        intro i b
        have hbehind : ¬ current = some (start + (i + 1)) := by
          rw [hhere, Option.some.injEq]
          omega
        rw [hdraw, if_neg hbehind]
      rw [hrest]
      simp [hhere]
    · have hnext : ∀ c, current = some c → start + 1 ≤ c := by
        intro c hc
        have hle := hstart c hc
        have hne : c ≠ start := fun h => hhere (h ▸ hc)
        omega
      have hdrawNext : ∀ i b, currentMarks (draw (i + 1) b) =
          if current = some (start + 1 + i) then [some (frame b)] else [] := by
        intro i b
        rw [hdraw, Nat.add_assoc, Nat.add_comm 1 i]
      rw [if_neg (by simpa using hhere), List.nil_append,
        ih (fun i => draw (i + 1)) (start + 1) hdrawNext hnext]
      cases hc : current with
      | none => rfl
      | some c =>
        have hle := hnext c hc
        have hsplit : c - start = c - (start + 1) + 1 := by omega
        rw [Option.bind_some, Option.bind_some, hsplit, List.getElem?_cons_succ]

variable [Scalar α]

def Viewport.HasArea (v : Viewport α) : Prop :=
  ¬ v.width ≤ ((0 : Nat) : α) ∧ ¬ v.height ≤ ((0 : Nat) : α)

/-- A timeline marks the cell at the current position, if it lies in the list. -/
theorem currentMarks_timeline (frames : List Frame) (analysis : TemporalAnalysis α) (strip : Strip α)
    (hstrip : strip.elements.length = frames.length) (current : Option Nat) (cursorX : α) :
    currentMarks (Timeline.render frames analysis strip current cursorX) =
      ((current.bind fun c => frames[c]?).map fun f => some f.index).toList := by
  have hdraw : ∀ i (p : Frame × Rect α),
      currentMarks (Timeline.frameCommands analysis current i p.1 p.2) =
        if current = some (0 + i) then [some p.1.index] else [] := by
    intro i p
    have hlines : currentMarks (if analysis.isBoundary p.1.index then [Timeline.boundaryLine p.2] else []) =
        [] := by split <;> rfl
    have htexts : currentMarks
        (if (Timeline.minLabelWidth : α) ≤ p.2.w then [Timeline.cellText p.1 p.2] else []) = [] := by
      split <;> rfl
    simp [Timeline.frameCommands, Timeline.cell, hlines, htexts]
  have hcells := currentMarks_mapIdx (fun i (p : Frame × Rect α) =>
    Timeline.frameCommands analysis current i p.1 p.2) (fun p => p.1.index) 0 current hdraw
    (fun _ _ => Nat.zero_le _) (frames.zip strip.elements)
  have hframes : (frames.zip strip.elements).map (·.1) = frames :=
    List.map_fst_zip (Nat.le_of_eq hstrip.symm)
  have hmarks : ((current.bind fun c => (frames.zip strip.elements)[c - 0]?).map fun p => some p.1.index) =
      (current.bind fun c => frames[c]?).map fun f => some f.index := by
    conv_rhs => rw [← hframes]
    simp only [Nat.sub_zero, List.getElem?_map, Option.map_bind, Option.map_map, Function.comp_def]
  rw [hmarks] at hcells
  unfold Timeline.render
  split
  · rename_i hempty
    have hnone : frames = [] := by
      simpa [← List.length_eq_zero_iff, hstrip] using hempty
    rw [hnone]
    cases current <;> rfl
  · simp [Timeline.lane, Timeline.cursorLine, hcells]

theorem currentMarks_overlay (arrows : FocusedArrows α) : currentMarks (Overlay.render arrows) = [] := by
  have hpaths (l : List (Arrow α)) : currentMarks (l.map (Overlay.arrowPath arrows)) = [] := by
    rw [currentMarks, List.filterMap_map, List.filterMap_eq_nil_iff]
    intro a _
    rfl
  unfold Overlay.render
  split
  · simp [hpaths]
  · rfl

/-- A minimap with an area marks the frame at the current position, if it lies in the list. -/
theorem currentMarks_minimap (frames : List Frame) (analysis : TemporalAnalysis α) {v : Viewport α}
    (hv : v.HasArea) (visible : PositionRange) (current : Option Nat) :
    currentMarks (Minimap.render frames analysis v visible current) =
      ((current.bind fun c => frames[c]?).map fun f => some f.index).toList := by
  have hbars (colWidth maxBytes : α) (column : Nat) (b : List Frame) :
      currentMarks (if b.isEmpty then [] else [Minimap.bar v colWidth maxBytes column b]) = [] := by
    split <;> rfl
  have hticks (frameWidth : α) (position : Nat) (f : Frame) :
      currentMarks (if analysis.isBoundary f.index then [Minimap.tick v frameWidth position] else []) =
        [] := by
    split <;> rfl
  have hwindow (frameWidth : α) (count : Nat) :
      currentMarks (Minimap.window v frameWidth count visible) = [] := by
    unfold Minimap.window
    simp only
    split <;> rfl
  unfold Minimap.render
  split
  · rename_i hnothing
    have hnone : frames = [] := by
      simpa [hv.1, hv.2] using hnothing
    rw [hnone]
    cases current <;> rfl
  · simp only [Minimap.plainRect, currentMarks_beginGroup, currentMarks_rect, currentMarks_append,
      currentMarks_mapIdx_eq_nil (hbars _ _), currentMarks_mapIdx_eq_nil (hticks _), hwindow]
    cases current with
    | none => rfl
    | some c =>
      cases hc : frames[c]? with
      | none => simp [hc]
      | some f => simp [hc, Minimap.marker]

/-- The filmstrip shows the current position, however few cards it has room for. -/
theorem mem_window {count capacity c : Nat} (hcapacity : 0 < capacity) (hc : c < count) :
    (Filmstrip.window count capacity (some c)).start ≤ c ∧
      c < (Filmstrip.window count capacity (some c)).stop := by
  have hfilter : (some c).filter (fun c => decide (c < count)) = some c := by simp [hc]
  rw [Filmstrip.window, if_neg (by omega), hfilter]
  simp only [Option.getD_some]
  omega

theorem start_window_eq_zero {count capacity c : Nat} (hc : count ≤ c) :
    (Filmstrip.window count capacity (some c)).start = 0 := by
  unfold Filmstrip.window
  split
  · rfl
  · have hfilter : (some c).filter (fun c => decide (c < count)) = none := by simp [hc]
    rw [hfilter]
    simp only [Option.getD_none]
    omega

/-- The cards of a filmstrip are those of a part of the list that starts not after the current position
and holds what the list has there. -/
theorem getElem?_slice_window (frames : List Frame) {capacity : Nat} (hcapacity : 0 < capacity) (c : Nat) :
    let shown := Filmstrip.window frames.length capacity (some c)
    shown.start ≤ c ∧ (Minimap.slice frames shown)[c - shown.start]? = frames[c]? := by
  intro shown
  rcases Nat.lt_or_ge c frames.length with hc | hc
  · obtain ⟨hstart, hstop⟩ : shown.start ≤ c ∧ c < shown.stop := mem_window hcapacity hc
    refine ⟨hstart, ?_⟩
    have hplace : shown.start + (c - shown.start) = c := by omega
    rw [Minimap.slice, List.getElem?_take_of_lt (by omega), List.getElem?_drop, hplace]
  · have hstart : shown.start = 0 := start_window_eq_zero hc
    refine ⟨by omega, ?_⟩
    have hlength : (Minimap.slice frames shown).length ≤ frames.length := by
      rw [Minimap.slice, List.length_take, List.length_drop]
      omega
    rw [List.getElem?_eq_none hc, List.getElem?_eq_none (by omega)]

/-- A filmstrip marks the card at the current position, if it lies in the list. -/
theorem currentMarks_filmstrip (frames : List Frame) (analysis : TemporalAnalysis α) (v : Viewport α)
    (current : Option Nat) :
    currentMarks (Filmstrip.render frames analysis v current) =
      ((current.bind fun c => frames[c]?).map fun f => some f.index).toList := by
  let capacity := max (Filmstrip.capacity v.width) 1
  let shown := Filmstrip.window frames.length capacity current
  have hcapacity : 0 < capacity := by omega
  have hdraw (place : Nat) (f : Frame) :
      currentMarks (Filmstrip.card analysis v current place (shown.start + place) f) =
        if current = some (shown.start + place) then [some f.index] else [] := by
    have hline (l : LineCommand α) : currentMarks
        (if analysis.isBoundary f.index then [Command.line l] else []) = [] := by
      split <;> rfl
    simp [Filmstrip.card, hline]
  have hstart : ∀ c, current = some c → shown.start ≤ c := by
    rintro c rfl
    exact (getElem?_slice_window frames hcapacity c).1
  have hcards := currentMarks_mapIdx _ Frame.index shown.start current hdraw hstart
    (Minimap.slice frames shown)
  have hlist : (current.bind fun c => (Minimap.slice frames shown)[c - shown.start]?) =
      current.bind fun c => frames[c]? := by
    cases hcurrent : current with
    | none => rfl
    | some c =>
      subst hcurrent
      exact (getElem?_slice_window frames hcapacity c).2
  rw [hlist] at hcards
  unfold Filmstrip.render
  simp only
  split
  · rename_i hempty
    rw [← hcards, List.isEmpty_iff.1 hempty]
    rfl
  · simpa using hcards

/-- The frames of the list, and no others, have a cell in every row. -/
theorem isSome_cell? (frames : List Frame) (v : Viewport α) (row : Nat) (index : UInt32) :
    ((PyramidGrid.compute (analyze frames) v).cell? row index).isSome ↔ ∃ f ∈ frames, f.index = index := by
  have hcolumn : ((PyramidGrid.compute (analyze frames) v).cell? row index).isSome =
      ((PyramidGrid.compute (analyze frames) v).columns.get? index).isSome := by
    unfold PyramidGrid.cell?
    cases (PyramidGrid.compute (analyze frames) v).columns.get? index <;> rfl
  rw [hcolumn, ← IndexMap.mem_keys_iff, PyramidGrid.compute, IndexMap.keys_mapRanked, mem_keys_frameMap]

/-- Every frame of a row has a cell, so a row marks the frames of its layer with the current index. -/
theorem currentMarks_rowCommands {g : PyramidGrid α} (v : Viewport α) (current : Option UInt32) (row : Nat)
    {l : TemporalLevel} (hcells : ∀ f ∈ l.frames, (g.cell? row f.index).isSome) :
    currentMarks (Pyramid.rowCommands g v current row l) =
      (l.frames.filter fun f => current == some f.index).map fun f => some f.index := by
  rw [Pyramid.rowCommands, Pyramid.rowLabel]
  simp only [currentMarks_text]
  rw [currentMarks, List.filterMap_filterMap, ← List.filterMap_eq_map, List.filterMap_filter]
  apply List.filterMap_congr
  intro f hf
  obtain ⟨r, hr⟩ := Option.isSome_iff_exists.1 (hcells f hf)
  simp [hr, Pyramid.frameCell, Command.currentMark?]

/-- Of distinct values, the ones equal to an optional value of the list are that value alone. -/
theorem filter_beq_some_eq_toList {indices : List UInt32} (hdistinct : indices.Nodup)
    {current : Option UInt32} (hcurrent : ∀ i, current = some i → i ∈ indices) :
    (indices.filter fun i => current == some i) = current.toList := by
  cases hc : current with
  | none => simp
  | some i =>
    have hsame : (fun j => some i == some j) = fun j => j == i := by
      funext j
      simp only [Option.some_beq_some, Bool.beq_comm]
    rw [hsame, List.filter_beq, List.count_eq_one_of_mem hdistinct (hcurrent i hc)]
    rfl

/-- The rows together mark the current index once, for the layers part the list among them. -/
theorem flatMap_levels_marks {frames : List Frame} (hdistinct : (frames.map Frame.index).Nodup)
    {current : Option UInt32} (hcurrent : ∀ i, current = some i → i ∈ frames.map Frame.index) :
    ((analyze frames : TemporalAnalysis β).levels.flatMap fun l =>
        (l.frames.filter fun f => current == some f.index).map fun f => some f.index) =
      (current.map some).toList := by
  let indices := (analyze frames : TemporalAnalysis β).levels.flatMap fun l => l.frames.map LevelFrame.index
  have hindices : indices.Perm (frames.map Frame.index) := analyze_levels_index_perm frames
  have hperm : (indices.filter fun i => current == some i).Perm current.toList := by
    rw [← filter_beq_some_eq_toList hdistinct hcurrent]
    exact hindices.filter _
  calc ((analyze frames : TemporalAnalysis β).levels.flatMap fun l =>
        (l.frames.filter fun f => current == some f.index).map fun f => some f.index)
      = (indices.filter fun i => current == some i).map some := by
        simp only [indices, List.filter_flatMap, List.map_flatMap, List.filter_map, List.map_map,
          Function.comp_def]
    _ = current.toList.map some := by
        cases hc : current with
        | none => simp
        | some i =>
          rw [hc] at hperm
          rw [List.perm_singleton.1 hperm]
          rfl
    _ = (current.map some).toList := by cases current <;> rfl

theorem currentMarks_boundaryLines (g : PyramidGrid α) (v : Viewport α) (gridHeight : α)
    (boundaries : List UInt32) :
    currentMarks (boundaries.filterMap fun b =>
      (g.cell? 0 b).map (Pyramid.boundaryLine v gridHeight)) = [] := by
  rw [currentMarks, List.filterMap_eq_nil_iff]
  intro c hc
  obtain ⟨b, -, hb⟩ := List.mem_filterMap.1 hc
  obtain ⟨r, -, rfl⟩ := Option.map_eq_some_iff.1 hb
  rfl

/-- A pyramid marks the cell of the current index, and where indices are distinct just one. -/
theorem currentMarks_pyramid {frames : List Frame} (hdistinct : (frames.map Frame.index).Nodup)
    (v : Viewport α) {current : Option UInt32}
    (hcurrent : ∀ i, current = some i → i ∈ frames.map Frame.index) :
    currentMarks (Pyramid.render (analyze frames) v current) = (current.map some).toList := by
  let analysis : TemporalAnalysis α := analyze frames
  have hindices := analyze_levels_index_perm (α := α) frames
  have hrows : ∀ row, ∀ l ∈ analysis.levels,
      currentMarks (Pyramid.rowCommands (PyramidGrid.compute analysis v) v current row l) =
        (l.frames.filter fun f => current == some f.index).map fun f => some f.index := by
    intro row l hl
    apply currentMarks_rowCommands
    intro f hf
    rw [isSome_cell?, ← List.mem_map, ← hindices.mem_iff]
    exact List.mem_flatMap.2 ⟨l, hl, List.mem_map.2 ⟨f, hf, rfl⟩⟩
  unfold Pyramid.render
  split
  · rename_i hempty
    cases hc : current with
    | none => rfl
    | some i =>
      have hkey : i ∈ analysis.frameMap.keys := by
        rw [mem_keys_frameMap, ← List.mem_map]
        exact hcurrent i hc
      rw [IndexMap.keys, List.isEmpty_iff.1 hempty] at hkey
      contradiction
  · simp only [currentMarks_beginGroup, currentMarks_rect, currentMarks_append]
    rw [currentMarks_mapIdx_eq_flatMap hrows, flatMap_levels_marks hdistinct hcurrent,
      currentMarks_boundaryLines]
    simp

end FrameAtlas
