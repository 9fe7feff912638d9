import FrameAtlas.Surface.Checked
import Mathlib.Order.Monotone.Basic

namespace FrameAtlas

open CheckedCount

namespace Minimap

section Buckets

variable {count columns column : Nat}

def columnStart (count columns column : Nat) : Nat := column * count / columns

theorem columnStart_zero : columnStart count columns 0 = 0 := by
  rw [columnStart, Nat.zero_mul, Nat.zero_div]

theorem columnStart_self (hpos : 0 < columns) : columnStart count columns columns = count :=
  Nat.mul_div_cancel_left count hpos

/-- With no more columns than positions, every column has one of them at least. -/
theorem columnStart_strictMono (hpos : 0 < columns) (hle : columns ≤ count) :
    StrictMono (columnStart count columns) := by
  apply strictMono_nat_of_lt_succ
  intro column
  calc
    columnStart count columns column < column * count / columns + 1 := Nat.lt_succ_self _
    _ = (column * count + columns) / columns := (Nat.add_div_right _ hpos).symm
    _ ≤ (column * count + count) / columns := Nat.div_le_div_right (Nat.add_le_add_left hle _)
    _ = columnStart count columns (column + 1) := by rw [columnStart, Nat.succ_mul]

/-- A column has the whole part of a fair share, or one position more. -/
theorem length_bucket (count : Nat) (hpos : 0 < columns) (column : Nat) :
    (bucket count columns column).length = count / columns ∨
      (bucket count columns column).length = count / columns + 1 := by
  have hsum := Nat.add_div (a := column * count) (b := count) hpos
  have hnext : columnStart count columns (column + 1) = columnStart count columns column + count / columns ∨
      columnStart count columns (column + 1) = columnStart count columns column + count / columns + 1 := by
    rw [columnStart, Nat.succ_mul, hsum]
    split
    · exact .inr rfl
    · exact .inl rfl
  have hlength : (bucket count columns column).length =
      columnStart count columns (column + 1) - columnStart count columns column := rfl
  rw [hlength]
  exact hnext.imp Nat.sub_eq_of_eq_add' Nat.sub_eq_of_eq_add'

/-- Starts that ascend from zero have every position before the last of them between two neighbours. -/
theorem existsUnique_between {start : Nat → Nat} (hstart : StrictMono start) (hzero : start 0 = 0)
    {position last : Nat} (hlast : position < start last) :
    ∃! k, k < last ∧ start k ≤ position ∧ position < start (k + 1) := by
  have hsome : ∃ k, k < last ∧ start k ≤ position ∧ position < start (k + 1) := by
    induction last with
    | zero => omega
    | succ last ih =>
      rcases Nat.lt_or_ge position (start last) with hbefore | hfrom
      · obtain ⟨k, hk, hbetween⟩ := ih hbefore
        exact ⟨k, Nat.lt_succ_of_lt hk, hbetween⟩
      · exact ⟨last, Nat.lt_succ_self last, hfrom, hlast⟩
  obtain ⟨k, hk, hfrom, hbefore⟩ := hsome
  refine ⟨k, ⟨hk, hfrom, hbefore⟩, ?_⟩
  rintro j ⟨-, hfrom', hbefore'⟩
  have hkj : k < j + 1 := hstart.lt_iff_lt.1 (Nat.lt_of_le_of_lt hfrom hbefore')
  have hjk : j < k + 1 := hstart.lt_iff_lt.1 (Nat.lt_of_le_of_lt hfrom' hbefore)
  omega

/-- Columns that share the positions of a list among them, side by side and evenly. -/
structure IsEvenPartition (count columns : Nat) : Prop where
  first : (bucket count columns 0).start = 0
  last : (bucket count columns (columns - 1)).stop = count
  adjoining : ∀ k, k + 1 < columns → (bucket count columns k).stop = (bucket count columns (k + 1)).start
  nonempty : ∀ k < columns, (bucket count columns k).start < (bucket count columns k).stop
  inside : ∀ k < columns, (bucket count columns k).stop ≤ count
  cover : ∀ position < count, ∃! k, k < columns ∧ (bucket count columns k).Contains position
  even : ∀ j < columns, ∀ k < columns, (bucket count columns j).length ≤ (bucket count columns k).length + 1

/-- Cut at multiples of the count over the columns, a list falls into even columns. -/
theorem isEvenPartition (hpos : 0 < columns) (hle : columns ≤ count) : IsEvenPartition count columns where
  first := columnStart_zero
  last := by
    show columnStart count columns (columns - 1 + 1) = count
    rw [Nat.sub_add_cancel hpos]
    exact columnStart_self hpos
  adjoining := fun _ _ => rfl
  nonempty := fun k _ => columnStart_strictMono hpos hle (Nat.lt_succ_self k)
  inside := by
    intro k hk
    calc
      columnStart count columns (k + 1) ≤ columnStart count columns columns :=
        (columnStart_strictMono hpos hle).monotone hk
      _ = count := columnStart_self hpos
  cover := by
    intro position hposition
    have hlast : position < columnStart count columns columns := by
      rwa [columnStart_self hpos]
    exact existsUnique_between (columnStart_strictMono hpos hle) columnStart_zero hlast
  even := by
    intro j _ k _
    have hj := length_bucket count hpos j
    have hk := length_bucket count hpos k
    omega

/-- No column leaves the machine words if the square of the count does not. -/
theorem bucket?_eq (hle : columns ≤ count) (hword : count * count < UInt64.size) (hcolumn : column < columns) :
    bucket? count columns column = some (bucket count columns column) := by
  have hstop : (column + 1) * count < UInt64.size :=
    Nat.lt_of_le_of_lt (Nat.mul_le_mul_right count (Nat.le_trans hcolumn hle)) hword
  have hstart : column * count < UInt64.size :=
    Nat.lt_of_le_of_lt (Nat.mul_le_mul_right count (Nat.le_succ column)) hstop
  have hpos : 0 < columns := Nat.zero_lt_of_lt hcolumn
  simp only [bucket?, product?_of_lt hstart, product?_of_lt hstop, quotient?_of_pos hpos, Option.bind_eq_bind,
    Option.bind_some]
  rfl

end Buckets

section Frames

variable {frames : List Frame} {columns column : Nat}

/-- No product of counts overflows a word where columns are cut. -/
theorem column?_eq (hle : columns ≤ frames.length) (hword : frames.length * frames.length < UInt64.size)
    (hcolumn : column < columns) :
    column? frames columns column = some (slice frames (bucket frames.length columns column)) := by
  have hpartition := isEvenPartition (Nat.zero_lt_of_lt hcolumn) hle
  have hin : (bucket frames.length columns column).start ≤ (bucket frames.length columns column).stop ∧
      (bucket frames.length columns column).stop ≤ frames.length :=
    ⟨Nat.le_of_lt (hpartition.nonempty column hcolumn), hpartition.inside column hcolumn⟩
  rw [column?, bucket?_eq hle hword hcolumn, Option.bind_eq_bind, Option.bind_some, slice?, if_pos hin]

theorem slice_bucket_ne_nil (hle : columns ≤ frames.length) (hcolumn : column < columns) :
    slice frames (bucket frames.length columns column) ≠ [] := by
  have hpartition := isEvenPartition (Nat.zero_lt_of_lt hcolumn) hle
  have hnonempty := hpartition.nonempty column hcolumn
  have hinside := hpartition.inside column hcolumn
  rw [← List.length_pos_iff, length_slice hinside]
  exact Nat.sub_pos_of_lt hnonempty

def columnFrames (frames : List Frame) (columns : Nat) : List (List Frame) :=
  (List.range columns).map fun column => slice frames (bucket frames.length columns column)

theorem mem_columnFrames_ne_nil (hle : columns ≤ frames.length) {b : List Frame}
    (hb : b ∈ columnFrames frames columns) : b ≠ [] := by
  obtain ⟨column, hcolumn, rfl⟩ := List.mem_map.1 hb
  exact slice_bucket_ne_nil hle (List.mem_range.1 hcolumn)

/-- The first columns hold the list up to where the next one starts. -/
theorem flatten_first_columns (hpos : 0 < columns) (hle : columns ≤ frames.length) (next : Nat) :
    ((List.range next).map fun column => slice frames (bucket frames.length columns column)).flatten =
      frames.take (columnStart frames.length columns next) := by
  induction next with
  | zero => rw [columnStart_zero]; rfl
  | succ column ih =>
    have hascending : columnStart frames.length columns column ≤ columnStart frames.length columns (column + 1) :=
      Nat.le_of_lt (columnStart_strictMono hpos hle (Nat.lt_succ_self column))
    rw [List.range_succ, List.map_append, List.flatten_append, ih, ← Nat.add_sub_of_le hascending, List.take_add,
      List.map_singleton, List.flatten_singleton]
    rfl

/-- The columns together hold the whole list, in order. -/
theorem flatten_columnFrames (hpos : 0 < columns) (hle : columns ≤ frames.length) :
    (columnFrames frames columns).flatten = frames := by
  rw [columnFrames, flatten_first_columns hpos hle, columnStart_self hpos, List.take_length]

/-- The highest of some layers, looked for from one of them on, is that one or the layer of a frame. -/
theorem foldl_level_spec {base highest : UInt32}
    (h : frames.foldl (fun level f => if level < f.level then f.level else level) base = highest) :
    (highest = base ∨ ∃ f ∈ frames, f.level = highest) ∧ base ≤ highest ∧ ∀ f ∈ frames, f.level ≤ highest := by
  induction frames generalizing base with
  | nil => exact ⟨.inl h.symm, UInt32.le_of_eq h, List.forall_mem_nil _⟩
  | cons first rest ih =>
    rw [List.foldl_cons] at h
    by_cases hlt : base < first.level
    · rw [if_pos hlt] at h
      obtain ⟨hfrom, hbase, hrest⟩ := ih h
      refine ⟨.inr ?_, UInt32.le_trans (UInt32.le_of_lt hlt) hbase, List.forall_mem_cons.2 ⟨hbase, hrest⟩⟩
      rcases hfrom with hsame | ⟨f, hf, hlevel⟩
      · exact ⟨first, List.mem_cons_self, hsame.symm⟩
      · exact ⟨f, List.mem_cons_of_mem first hf, hlevel⟩
    · rw [if_neg hlt] at h
      obtain ⟨hfrom, hbase, hrest⟩ := ih h
      have hfirst : first.level ≤ highest := UInt32.le_trans (UInt32.not_lt.1 hlt) hbase
      refine ⟨hfrom.imp_right ?_, hbase, List.forall_mem_cons.2 ⟨hfirst, hrest⟩⟩
      rintro ⟨f, hf, hlevel⟩
      exact ⟨f, List.mem_cons_of_mem first hf, hlevel⟩

theorem level_le_maxLevel {f : Frame} (hf : f ∈ frames) : f.level ≤ maxLevel frames :=
  (foldl_level_spec rfl).2.2 f hf

theorem exists_level_eq_maxLevel (hsome : frames ≠ []) : ∃ f ∈ frames, f.level = maxLevel frames := by
  have hfrom : maxLevel frames = 0 ∨ ∃ f ∈ frames, f.level = maxLevel frames := (foldl_level_spec rfl).1
  rcases hfrom with hzero | hframe
  · obtain ⟨f, hf⟩ := List.exists_mem_of_ne_nil _ hsome
    refine ⟨f, hf, UInt32.le_antisymm (level_le_maxLevel hf) ?_⟩
    rw [hzero]
    exact UInt32.zero_le
  · exact hframe

/-- The color that a bar for some frames has to have. -/
structure IsBarColor (frames : List Frame) (color : Color) : Prop where
  intra : color = .frameIntra ↔ ∃ f ∈ frames, f.isKeyframe = true
  level : (∀ f ∈ frames, f.isKeyframe = false) →
    ∃ f ∈ frames, color = Color.ofLevel f.level ∧ ∀ g ∈ frames, g.level ≤ f.level

theorem ofLevel_mem (level : UInt32) :
    Color.ofLevel level ∈ [Color.levelBase, .level1, .level2, .level3, .levelHigh] := by
  unfold Color.ofLevel
  repeat' split
  all_goals decide

theorem ofLevel_ne_frameIntra (level : UInt32) : Color.ofLevel level ≠ .frameIntra := by
  intro h
  have hmem := ofLevel_mem level
  rw [h] at hmem
  revert hmem
  decide

theorem barColor_ne_minimapViewport (frames : List Frame) : barColor frames ≠ .minimapViewport := by
  unfold barColor
  split
  · decide
  · intro h
    have hmem := ofLevel_mem (maxLevel frames)
    rw [h] at hmem
    revert hmem
    decide

/-- A bar has the color of intra frames if it holds one, and otherwise that of its highest level. -/
theorem isBarColor_barColor (hsome : frames ≠ []) : IsBarColor frames (barColor frames) where
  intra := by
    rw [← List.any_eq_true, barColor]
    split
    · rename_i hany
      exact iff_of_true rfl hany
    · rename_i hnone
      exact iff_of_false (ofLevel_ne_frameIntra _) hnone
  level := by
    intro hnone
    obtain ⟨f, hf, hlevel⟩ := exists_level_eq_maxLevel hsome
    have hany : ¬ frames.any Frame.isKeyframe = true := by
      rw [List.any_eq_true]
      rintro ⟨g, hg, hkey⟩
      rw [hnone g hg] at hkey
      contradiction
    refine ⟨f, hf, ?_, ?_⟩
    · rw [barColor, if_neg hany, hlevel]
    · intro g hg
      rw [hlevel]
      exact level_le_maxLevel hg

end Frames

end Minimap

end FrameAtlas
