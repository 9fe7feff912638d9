import FrameAtlas.Proofs.IndexMap
import Mathlib.Data.List.Nodup
import Mathlib.Data.List.Perm.Basic

namespace FrameAtlas

open scoped List

variable {α : Type}

def IsLowestIndex (frames : List Frame) (index : UInt32) : Prop :=
  (∃ f ∈ frames, f.index = index) ∧ ∀ f ∈ frames, index ≤ f.index

/-- What an analysis has to hold of a frame list. -/
structure IsAnalysisOf (frames : List Frame) (a : TemporalAnalysis α) : Prop where
  levels_descending : a.levels.Pairwise fun l m => m.level < l.level
  mem_levels : ∀ level, (∃ l ∈ a.levels, l.level = level) ↔ ∃ f ∈ frames, f.level = level
  /-- A layer holds the frames of the list that are in it, and no others. -/
  level_perm : ∀ l ∈ a.levels,
    l.frames.Perm ((frames.filter fun f => f.level == l.level).map Frame.levelFrame)
  level_ascending : ∀ l ∈ a.levels, l.frames.Pairwise fun f g => f.index ≤ g.index
  /-- Frames of a layer with one index stand in the order of the list. -/
  level_stable : ∀ l ∈ a.levels, ∀ index,
    l.frames.filter (fun f => f.index == index) =
      (frames.filter fun f => f.level == l.level && f.index == index).map Frame.levelFrame
  /-- The layers together are the list in another order. -/
  levels_perm : (a.levels.flatMap fun l => l.frames.map fun f => (l.level, f)).Perm
    (frames.map fun f => (f.level, f.levelFrame))
  mem_frameMap : ∀ index, index ∈ a.frameMap.keys ↔ ∃ f ∈ frames, f.index = index
  /-- Of frames with one index the map holds the last. -/
  frameMap_last : ∀ index, a.frameMap.get? index =
    (frames.filter fun f => f.index == index).getLast?.map Frame.levelEntry
  boundaries_ascending : a.gopBoundaries.Pairwise (· < ·)
  mem_boundaries : ∀ index, index ∈ a.gopBoundaries ↔
    IsLowestIndex frames index ∨ ∃ f ∈ frames, f.isKeyframe = true ∧ f.index = index
  positions_empty : a.framePositions = .empty
  of_empty : frames = [] → a = ⟨[], .empty, [], .empty⟩

def LevelFrame.before (f g : LevelFrame) : Bool := decide (f.index ≤ g.index)

theorem levelOf_frames (level : UInt32) (frames : List Frame) :
    (levelOf level frames).frames =
      ((frames.filter fun f => f.level == level).map Frame.levelFrame).mergeSort LevelFrame.before :=
  rfl

theorem LevelFrame.before_trans (f g h : LevelFrame) (hfg : f.before g = true)
    (hgh : g.before h = true) : f.before h = true := by
  simp only [before, decide_eq_true_eq] at hfg hgh ⊢
  exact UInt32.le_trans hfg hgh

theorem LevelFrame.before_total (f g : LevelFrame) : (f.before g || g.before f) = true := by
  simp only [before, Bool.or_eq_true, decide_eq_true_eq]
  exact UInt32.le_total f.index g.index

theorem levelOf_ascending (level : UInt32) (frames : List Frame) :
    (levelOf level frames).frames.Pairwise fun f g => f.index ≤ g.index := by
  have h := List.pairwise_mergeSort LevelFrame.before_trans LevelFrame.before_total
    ((frames.filter fun f => f.level == level).map Frame.levelFrame)
  refine h.imp ?_
  intro f g hfg
  simpa only [LevelFrame.before, decide_eq_true_eq] using hfg

/-- A layer holds the frames of its level, and no others. -/
theorem levelOf_perm (level : UInt32) (frames : List Frame) :
    (levelOf level frames).frames.Perm
      ((frames.filter fun f => f.level == level).map Frame.levelFrame) :=
  List.mergeSort_perm _ _

/-- Sorting by index leaves the frames of one index as they stood. -/
theorem filter_mergeSort_before (l : List LevelFrame) (index : UInt32) :
    (l.mergeSort LevelFrame.before).filter (fun f => f.index == index) =
      l.filter fun f => f.index == index := by
  have hpairwise : (l.filter fun f => f.index == index).Pairwise fun f g => f.before g = true := by
    apply List.pairwise_of_forall_mem_list
    intro f hf g hg
    have hfi : f.index = index := eq_of_beq (List.mem_filter.1 hf).2
    have hgi : g.index = index := eq_of_beq (List.mem_filter.1 hg).2
    simp only [LevelFrame.before, hfi, hgi, decide_eq_true_eq]
    exact UInt32.le_refl index
  have hsub : (l.filter fun f => f.index == index).Sublist (l.mergeSort LevelFrame.before) :=
    List.sublist_mergeSort LevelFrame.before_trans LevelFrame.before_total hpairwise List.filter_sublist
  have hfilter := hsub.filter fun f => f.index == index
  rw [List.filter_filter] at hfilter
  simp only [Bool.and_self] at hfilter
  have hlength := ((List.mergeSort_perm l LevelFrame.before).filter fun f => f.index == index).length_eq
  exact (hfilter.eq_of_length hlength.symm).symm

/-- Frames of one index keep their order within a layer. -/
theorem levelOf_stable (level : UInt32) (frames : List Frame) (index : UInt32) :
    (levelOf level frames).frames.filter (fun f => f.index == index) =
      (frames.filter fun f => f.level == level && f.index == index).map Frame.levelFrame := by
  rw [levelOf_frames, filter_mergeSort_before, List.filter_map, List.filter_filter]
  congr 1
  apply List.filter_congr
  intro f _
  exact Bool.and_comm _ _

/-- A list is the frames of its first key, those of its second, and so on, if each key is named once. -/
theorem flatMap_filter_perm {β : Type} (key : β → UInt32) {ks : List UInt32} (hks : ks.Nodup)
    (l : List β) (hl : ∀ x ∈ l, key x ∈ ks) :
    (ks.flatMap fun k => l.filter fun x => key x == k).Perm l := by
  induction ks generalizing l with
  | nil =>
    have hnil : l = [] := List.eq_nil_iff_forall_not_mem.2 fun x hx => List.not_mem_nil (hl x hx)
    rw [hnil, List.flatMap_nil]
  | cons k rest ih =>
    obtain ⟨hk, hrest⟩ := List.nodup_cons.1 hks
    let others := l.filter fun x => !(key x == k)
    have hothers : ∀ x ∈ others, key x ∈ rest := by
      intro x hx
      obtain ⟨hxl, hxk⟩ := List.mem_filter.1 hx
      rcases List.mem_cons.1 (hl x hxl) with h | h
      · simp [h] at hxk
      · exact h
    have hsame : ∀ j ∈ rest, (l.filter fun x => key x == j) = others.filter fun x => key x == j := by
      intro j hj
      rw [List.filter_filter]
      apply List.filter_congr
      intro x _
      have hjk : j ≠ k := fun h => hk (h ▸ hj)
      by_cases hx : key x = j
      · simp [hx, hjk]
      · simp [hx]
    have hflat : (rest.flatMap fun j => l.filter fun x => key x == j) =
        rest.flatMap fun j => others.filter fun x => key x == j := List.flatMap_congr hsame
    rw [List.flatMap_cons, hflat]
    exact ((ih hrest others hothers).append_left _).trans (List.filter_append_perm _ l)

def levelNumbers (frames : List Frame) : List UInt32 :=
  (sortedDistinct (frames.map Frame.level)).reverse

theorem levelNumbers_nodup (frames : List Frame) : (levelNumbers frames).Nodup :=
  List.nodup_reverse.2 (sortedDistinct_nodup _)

theorem levelNumbers_descending (frames : List Frame) :
    (levelNumbers frames).Pairwise fun j k => k < j :=
  List.pairwise_reverse.2 (sortedDistinct_ascending _)

/-- There is a layer for each level that a frame has. -/
theorem mem_levelNumbers (frames : List Frame) (level : UInt32) :
    level ∈ levelNumbers frames ↔ ∃ f ∈ frames, f.level = level := by
  rw [levelNumbers, List.mem_reverse, mem_sortedDistinct, List.mem_map]

theorem analyze_levels (frames : List Frame) :
    (analyze frames : TemporalAnalysis α).levels =
      (levelNumbers frames).map fun level => levelOf level frames := rfl

theorem mem_analyze_levels {frames : List Frame} {l : TemporalLevel} :
    l ∈ (analyze frames : TemporalAnalysis α).levels ↔
      l = levelOf l.level frames ∧ ∃ f ∈ frames, f.level = l.level := by
  rw [analyze_levels, List.mem_map]
  constructor
  · rintro ⟨level, hlevel, rfl⟩
    exact ⟨rfl, (mem_levelNumbers frames level).1 hlevel⟩
  · rintro ⟨hl, hmem⟩
    exact ⟨l.level, (mem_levelNumbers frames l.level).2 hmem, hl.symm⟩

/-- The layers together hold each frame once. -/
theorem analyze_levels_perm (frames : List Frame) :
    ((analyze frames : TemporalAnalysis α).levels.flatMap fun l =>
        l.frames.map fun f => (l.level, f)) ~
      frames.map fun f => (f.level, f.levelFrame) := by
  have hmem : ∀ f ∈ frames, f.level ∈ levelNumbers frames :=
    fun f hf => (mem_levelNumbers frames f.level).2 ⟨f, hf, rfl⟩
  have hlevel : ∀ k ∈ levelNumbers frames, ((levelOf k frames).frames.map fun f => (k, f)) ~
      (frames.filter fun f => f.level == k).map fun f => (f.level, f.levelFrame) := by
    intro k _
    refine ((levelOf_perm k frames).map _).trans (.of_eq ?_)
    rw [List.map_map]
    apply List.map_congr_left
    intro f hf
    have hfk : f.level = k := eq_of_beq (List.mem_filter.1 hf).2
    simp only [Function.comp, hfk]
  calc ((analyze frames : TemporalAnalysis α).levels.flatMap fun l => l.frames.map fun f => (l.level, f))
      = (levelNumbers frames).flatMap fun k => (levelOf k frames).frames.map fun f => (k, f) := by
        rw [analyze_levels, List.flatMap_map]
        rfl
    _ ~ (levelNumbers frames).flatMap fun k =>
          (frames.filter fun f => f.level == k).map fun f => (f.level, f.levelFrame) :=
        List.Perm.flatMap_left _ hlevel
    _ = ((levelNumbers frames).flatMap fun k => frames.filter fun f => f.level == k).map
          fun f => (f.level, f.levelFrame) := List.map_flatMap.symm
    _ ~ frames.map fun f => (f.level, f.levelFrame) :=
        (flatMap_filter_perm Frame.level (levelNumbers_nodup frames) frames hmem).map _

/-- The indices in the layers are those of the list, each as often as there. -/
theorem analyze_levels_index_perm (frames : List Frame) :
    ((analyze frames : TemporalAnalysis α).levels.flatMap fun l => l.frames.map LevelFrame.index) ~
      frames.map Frame.index := by
  have h := (analyze_levels_perm (α := α) frames).map fun p => p.2.index
  simpa only [List.map_flatMap, List.map_map, Function.comp_def, Frame.levelFrame] using h

/-- A group starts at the lowest index and at keyframes. -/
theorem mem_gopStarts (frames : List Frame) (index : UInt32) :
    index ∈ gopStarts frames ↔
      IsLowestIndex frames index ∨ ∃ f ∈ frames, f.isKeyframe = true ∧ f.index = index := by
  have hlowest : index ∈ (sortedDistinct (frames.map Frame.index)).take 1 ↔
      IsLowestIndex frames index := by
    simp only [mem_take_one_sortedDistinct, List.mem_map, IsLowestIndex, forall_exists_index, and_imp,
      forall_apply_eq_imp_iff₂]
  rw [gopStarts, mem_sortedDistinct, List.mem_append, hlowest]
  simp only [List.mem_map, List.mem_filter, and_assoc]

/-- Of frames with one index the map knows the last. -/
theorem get?_frameMap (frames : List Frame) (index : UInt32) :
    (analyze frames : TemporalAnalysis α).frameMap.get? index =
      (frames.filter fun f => f.index == index).getLast?.map Frame.levelEntry := by
  show (IndexMap.ofList (frames.map fun f => (f.index, f.levelEntry))).get? index = _
  rw [IndexMap.get?_ofList, List.filter_map, List.getLast?_map, Option.map_map]
  rfl

theorem mem_keys_frameMap (frames : List Frame) (index : UInt32) :
    index ∈ (analyze frames : TemporalAnalysis α).frameMap.keys ↔ ∃ f ∈ frames, f.index = index := by
  show index ∈ (IndexMap.ofList (frames.map fun f => (f.index, f.levelEntry))).keys ↔ _
  rw [IndexMap.mem_keys_ofList]
  simp only [List.mem_map, exists_exists_and_eq_and]

/-- Analysis neither loses, nor repeats, nor misplaces a frame, whatever the order of the list and
however often an index occurs. -/
theorem analyze_isAnalysisOf (frames : List Frame) :
    IsAnalysisOf frames (analyze frames : TemporalAnalysis α) where
  levels_descending := by
    rw [analyze_levels, List.pairwise_map]
    exact levelNumbers_descending frames
  mem_levels level := by
    constructor
    · rintro ⟨l, hl, rfl⟩
      exact (mem_analyze_levels.1 hl).2
    · intro h
      exact ⟨levelOf level frames, mem_analyze_levels.2 ⟨rfl, h⟩, rfl⟩
  level_perm l hl := by
    rw [(mem_analyze_levels.1 hl).1]
    exact levelOf_perm l.level frames
  level_ascending l hl := by
    rw [(mem_analyze_levels.1 hl).1]
    exact levelOf_ascending l.level frames
  level_stable l hl index := by
    rw [(mem_analyze_levels.1 hl).1]
    exact levelOf_stable l.level frames index
  levels_perm := analyze_levels_perm frames
  mem_frameMap := mem_keys_frameMap frames
  frameMap_last := get?_frameMap frames
  boundaries_ascending := sortedDistinct_ascending _
  mem_boundaries := mem_gopStarts frames
  positions_empty := rfl
  of_empty h := by rw [h]; rfl

end FrameAtlas
