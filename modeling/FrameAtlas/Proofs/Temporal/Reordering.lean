import FrameAtlas.Proofs.Temporal
import FrameAtlas.Scalar.Exact
import FrameAtlas.Surface.Pyramid

namespace FrameAtlas

open scoped List

variable {α : Type} {frames other : List Frame}

/-- Sorting values and keeping one of each asks only which values there are. -/
theorem sortedDistinct_eq_of_mem_iff {xs ys : List UInt32} (h : ∀ x, x ∈ xs ↔ x ∈ ys) :
    sortedDistinct xs = sortedDistinct ys := by
  have hperm : (sortedDistinct xs).Perm (sortedDistinct ys) := by
    apply (List.perm_ext_iff_of_nodup (sortedDistinct_nodup xs) (sortedDistinct_nodup ys)).2
    intro x
    rw [mem_sortedDistinct, mem_sortedDistinct]
    exact h x
  apply hperm.eq_of_pairwise _ (sortedDistinct_ascending xs) (sortedDistinct_ascending ys)
  intro x y _ _ hxy hyx
  exact absurd (UInt32.lt_trans hxy hyx) (UInt32.lt_irrefl x)

/-- The levels do not depend on the order of the list. -/
theorem levelNumbers_eq_of_perm (h : other.Perm frames) : levelNumbers other = levelNumbers frames := by
  rw [levelNumbers, levelNumbers, sortedDistinct_eq_of_mem_iff]
  exact fun _ => (h.map Frame.level).mem_iff

theorem gopStarts_eq_of_perm (h : other.Perm frames) : gopStarts other = gopStarts frames := by
  have hindices : sortedDistinct (other.map Frame.index) = sortedDistinct (frames.map Frame.index) :=
    sortedDistinct_eq_of_mem_iff fun _ => (h.map Frame.index).mem_iff
  have hkeys : ((other.filter Frame.isKeyframe).map Frame.index).Perm
      ((frames.filter Frame.isKeyframe).map Frame.index) := (h.filter _).map _
  rw [gopStarts, gopStarts, hindices]
  apply sortedDistinct_eq_of_mem_iff
  intro x
  rw [List.mem_append, List.mem_append, hkeys.mem_iff]

/-- Frames of pairwise distinct indices are told apart by their indices, in a layer too. -/
theorem eq_of_mem_levelOf (hdistinct : (frames.map Frame.index).Nodup) {level : UInt32} {f g : LevelFrame}
    (hf : f ∈ (levelOf level frames).frames) (hg : g ∈ (levelOf level frames).frames)
    (hindex : f.index = g.index) : f = g := by
  rw [(levelOf_perm level frames).mem_iff] at hf hg
  obtain ⟨a, ha, rfl⟩ := List.mem_map.1 hf
  obtain ⟨b, hb, rfl⟩ := List.mem_map.1 hg
  have hsame : a = b := List.inj_on_of_nodup_map hdistinct (List.mem_filter.1 ha).1 (List.mem_filter.1 hb).1 hindex
  rw [hsame]

/-- Where indices are distinct a layer does not depend on the order of the list. -/
theorem levelOf_eq_of_perm (h : other.Perm frames) (hdistinct : (frames.map Frame.index).Nodup) (level : UInt32) :
    levelOf level other = levelOf level frames := by
  have hperm : (levelOf level other).frames.Perm (levelOf level frames).frames :=
    calc
      (levelOf level other).frames ~ (other.filter fun f => f.level == level).map Frame.levelFrame :=
        levelOf_perm level other
      _ ~ (frames.filter fun f => f.level == level).map Frame.levelFrame := (h.filter _).map _
      _ ~ (levelOf level frames).frames := (levelOf_perm level frames).symm
  -- Both layers ascend, and where two frames could change places they would be one frame.
  have hframes : (levelOf level other).frames = (levelOf level frames).frames := by
    apply hperm.eq_of_pairwise _ (levelOf_ascending level other) (levelOf_ascending level frames)
    intro f g hf hg hfg hgf
    exact eq_of_mem_levelOf hdistinct (hperm.mem_iff.1 hf) hg (UInt32.le_antisymm hfg hgf)
  exact congrArg (TemporalLevel.mk level) hframes

-- Frames of one index keep the order of the list, so such a list may be told from another order of it.
example : (levelOf 0 [{ index := 1, refs := [3] }, { index := 1, refs := [4] }]).frames.map LevelFrame.refs =
    [[3], [4]] := by
  cbv

/-- Where indices are distinct the map does not depend on the order of the list. -/
theorem frameMap_eq_of_perm (h : other.Perm frames) (hdistinct : (frames.map Frame.index).Nodup) :
    (analyze other : TemporalAnalysis α).frameMap = (analyze frames : TemporalAnalysis α).frameMap := by
  let entries (l : List Frame) := l.map fun f => (f.index, f.levelEntry)
  have hkeys : ((entries frames).map Prod.fst).Nodup := by
    rwa [List.map_map]
  have hperm : (entries other).Perm (IndexMap.ofList (entries frames)).entries :=
    (h.map _).trans (IndexMap.entries_ofList_perm hkeys).symm
  exact IndexMap.ofList_eq_of_perm hperm

/-- The order of a list of pairwise distinct indices does not matter to its analysis, and so to nothing that is read
off the analysis: the groups, the layer of an index, the starts of groups and the whole pyramid. -/
theorem analyze_perm_eq [Scalar α] (h : other.Perm frames) (hdistinct : (frames.map Frame.index).Nodup) :
    let a : TemporalAnalysis α := analyze other
    let b : TemporalAnalysis α := analyze frames
    (a.levels = b.levels ∧ a.frameMap = b.frameMap ∧ a.gopBoundaries = b.gopBoundaries ∧
        a.framePositions = b.framePositions) ∧
      (∀ index, a.gopOf? index = b.gopOf? index) ∧ a.gops = b.gops ∧
      (∀ index, a.levelOf? index = b.levelOf? index) ∧ (∀ index, a.isBoundary index = b.isBoundary index) ∧
      ∀ v current, Pyramid.render a v current = Pyramid.render b v current := by
  intro a b
  have hlevels : a.levels = b.levels := by
    rw [analyze_levels, analyze_levels, levelNumbers_eq_of_perm h]
    apply List.map_congr_left
    intro level _
    exact levelOf_eq_of_perm h hdistinct level
  have hmap : a.frameMap = b.frameMap := frameMap_eq_of_perm h hdistinct
  have hstarts : a.gopBoundaries = b.gopBoundaries := gopStarts_eq_of_perm h
  have hwhole : a = b := by
    show (⟨a.levels, a.frameMap, a.gopBoundaries, .empty⟩ : TemporalAnalysis α) = _
    rw [hlevels, hmap, hstarts]
    rfl
  refine ⟨⟨hlevels, hmap, hstarts, rfl⟩, ?_⟩
  rw [hwhole]
  exact ⟨fun _ => rfl, rfl, fun _ => rfl, fun _ => rfl, fun _ _ => rfl⟩

/-- Four frames in two layers, once in coding order and once in display order. -/
theorem analyze_perm_eq_of_coding_order :
    let i : Frame := { index := 3, kind := .intra }
    let p : Frame := { index := 9, temporalId := some 1, refs := [3] }
    let b : Frame := { index := 5, temporalId := some 1, refs := [3, 9] }
    let k : Frame := { index := 7, keyFrame := some true }
    [i, p, b, k].Perm [i, b, k, p] ∧ ([i, b, k, p].map Frame.index).Nodup ∧
      (analyze [i, p, b, k] : TemporalAnalysis Rat).gops = [⟨3, some 7⟩, ⟨7, none⟩] := by
  intro i p b k
  have hperm : [i, p, b, k].Perm [i, b, k, p] := by decide
  have hdistinct : ([i, b, k, p].map Frame.index).Nodup := by decide
  obtain ⟨-, -, hgops, -⟩ := analyze_perm_eq (α := Rat) hperm hdistinct
  refine ⟨hperm, hdistinct, hgops.trans ?_⟩
  decide

end FrameAtlas
