import FrameAtlas.Proofs.Arrow.Edges
import FrameAtlas.Proofs.Temporal
import FrameAtlas.Reference

namespace FrameAtlas

variable {α β : Type}

namespace ReferenceSummary

def ofReferences (known : List UInt32) (refs : List (UInt32 × UInt32)) : ReferenceSummary :=
  refs.foldl (fun s r => s.add known r.1 r.2) .empty

theorem ofReferences_append_singleton (known : List UInt32) (refs : List (UInt32 × UInt32))
    (r : UInt32 × UInt32) :
    ofReferences known (refs ++ [r]) = (ofReferences known refs).add known r.1 r.2 := by
  simp only [ofReferences, List.foldl_append, List.foldl_cons, List.foldl_nil]

theorem outgoingTotal_ofReferences (known : List UInt32) (refs : List (UInt32 × UInt32)) :
    (ofReferences known refs).outgoingTotal = refs.length := by
  induction refs using List.reverseRecOn with
  | nil => rfl
  | append_singleton rest r ih =>
    rw [ofReferences_append_singleton, List.length_append, List.length_singleton, ← ih]
    rfl

theorem referencedBy_add (known : List UInt32) (s : ReferenceSummary) (source target t : UInt32) :
    (s.add known source target).referencedBy t =
      s.referencedBy t ++ if target = t then [source] else [] := by
  rw [referencedBy, add, IndexMap.get?_insert]
  by_cases h : target = t
  · rw [if_pos h, if_pos h, h, Option.getD_some]
  · rw [if_neg h, if_neg h, List.append_nil, referencedBy]

/-- A frame is referenced by the sources of the references to it, in order. -/
theorem referencedBy_ofReferences (known : List UInt32) (refs : List (UInt32 × UInt32)) (t : UInt32) :
    (ofReferences known refs).referencedBy t = (refs.filter fun r => r.2 == t).map (·.1) := by
  induction refs using List.reverseRecOn with
  | nil => rfl
  | append_singleton rest r ih =>
    rw [ofReferences_append_singleton, referencedBy_add, ih, List.filter_append, List.map_append]
    congr 1
    by_cases h : r.2 = t <;> simp [h]

/-- Dangling are the references to what is not in the list. -/
theorem dangling_ofReferences (known : List UInt32) (refs : List (UInt32 × UInt32)) :
    (ofReferences known refs).dangling =
      (refs.filter fun r => !known.contains r.2).map fun r => ⟨r.1, r.2⟩ := by
  induction refs using List.reverseRecOn with
  | nil => rfl
  | append_singleton rest r ih =>
    rw [ofReferences_append_singleton, add, ih, List.filter_append, List.map_append]
    by_cases h : r.2 ∈ known
    · simp [h]
    · simp [h]

end ReferenceSummary

theorem summarize_eq (frames : List Frame) :
    summarize frames = .ofReferences (frames.map Frame.index) (references frames) := by
  rw [summarize, ReferenceSummary.ofReferences, references, List.foldl_flatMap]
  simp only [List.foldl_map]

/-- A reference is dangling if a frame of the list makes it and no frame of the list is its target. -/
theorem isDangling_summarize (frames : List Frame) (source target : UInt32) :
    (summarize frames).isDangling source target = true ↔
      (∃ f ∈ frames, f.index = source ∧ target ∈ f.refs) ∧ ∀ f ∈ frames, f.index ≠ target := by
  rw [← mem_references, ReferenceSummary.isDangling, summarize_eq,
    ReferenceSummary.dangling_ofReferences, List.any_eq_true]
  have hunknown : (∀ f ∈ frames, f.index ≠ target) ↔ target ∉ frames.map Frame.index := by
    simp only [List.mem_map, ne_eq, not_exists, not_and]
  rw [hunknown]
  simp only [List.mem_map, List.mem_filter, Bool.and_eq_true, beq_iff_eq]
  constructor
  · rintro ⟨d, ⟨r, ⟨hr, hknown⟩, rfl⟩, rfl, rfl⟩
    exact ⟨hr, by simpa using hknown⟩
  · rintro ⟨hr, hknown⟩
    exact ⟨⟨source, target⟩, ⟨(source, target), ⟨hr, by simpa using hknown⟩, rfl⟩, rfl, rfl⟩

/-- Arrows look levels up where the analysis has them: of frames with one index the last counts. -/
theorem get?_levelsByIndex (frames : List Frame) (index : UInt32) :
    (ArrowLayout.levelsByIndex frames).get? index =
      (analyze frames : TemporalAnalysis β).levelOf? index := by
  rw [TemporalAnalysis.levelOf?, get?_frameMap, ArrowLayout.levelsByIndex, IndexMap.get?_ofList,
    List.filter_map, List.getLast?_map, Option.map_map, Option.map_map]
  rfl

theorem levelOf?_isSome (frames : List Frame) (index : UInt32) :
    ((analyze frames : TemporalAnalysis β).levelOf? index).isSome ↔ ∃ f ∈ frames, f.index = index := by
  have hkeys := (IndexMap.mem_keys_iff (analyze frames : TemporalAnalysis β).frameMap index).symm
  rw [TemporalAnalysis.levelOf?, Option.isSome_map, hkeys, mem_keys_frameMap]

/-- An analysis knows no level for an index exactly if no frame of the list has it. -/
theorem levelOf?_eq_none_iff (frames : List Frame) (index : UInt32) :
    (analyze frames : TemporalAnalysis β).levelOf? index = none ↔ ∀ f ∈ frames, f.index ≠ index := by
  rw [← Option.not_isSome_iff_eq_none, levelOf?_isSome]
  simp only [ne_eq, not_exists, not_and]

theorem Color.ofLevel_ne_arrowDangling (level : UInt32) : Color.ofLevel level ≠ .arrowDangling := by
  unfold ofLevel
  split_ifs <;> decide

section Arrows

variable [Scalar α] {frames : List Frame} {g : ArrowGeometry α} {anchors : FrameAnchors α} {a : Arrow α}

/-- An arrow has the color of its target's level, and one of its own where there is no target. -/
theorem color_eq (h : a ∈ (ArrowLayout.compute frames g anchors).arrows) :
    a.color = match (analyze frames : TemporalAnalysis β).levelOf? a.target with
      | some level => Color.ofLevel level
      | none => .arrowDangling := by
  obtain ⟨e, -, slot, rfl⟩ := ArrowLayout.mem_compute_arrows h
  rw [← get?_levelsByIndex]
  rfl

theorem color_eq_arrowDangling_iff (h : a ∈ (ArrowLayout.compute frames g anchors).arrows) :
    a.color = .arrowDangling ↔ ∀ f ∈ frames, f.index ≠ a.target := by
  rw [← levelOf?_eq_none_iff (β := Unit), color_eq (β := Unit) h]
  cases hlevel : (analyze frames : TemporalAnalysis Unit).levelOf? a.target with
  | none => simp only
  | some level => simp only [Color.ofLevel_ne_arrowDangling, reduceCtorEq]

theorem resolved_eq (h : a ∈ (ArrowLayout.compute frames g anchors).arrows) :
    a.resolved = ((analyze frames : TemporalAnalysis β).levelOf? a.target).isSome := by
  obtain ⟨e, -, slot, rfl⟩ := ArrowLayout.mem_compute_arrows h
  rw [← get?_levelsByIndex]
  rfl

/-- The arrows know the frames that the summary knows. -/
theorem resolved_eq_contains (h : a ∈ (ArrowLayout.compute frames g anchors).arrows) :
    a.resolved = (frames.map Frame.index).contains a.target := by
  have hiff : a.resolved = true ↔ a.target ∈ frames.map Frame.index := by
    rw [resolved_eq (β := Unit) h, levelOf?_isSome, List.mem_map]
  rw [Bool.eq_iff_iff, hiff, List.contains_iff_mem]

end Arrows

/-- What arrows, a summary and an analysis say of one frame list if they agree. -/
structure PassesAgree (frames : List Frame) (arrows : List (Arrow α)) (summary : ReferenceSummary)
    (analysis : TemporalAnalysis β) : Prop where
  pairs : arrows.map (fun a => (a.source, a.target)) = references frames
  total : summary.outgoingTotal = arrows.length
  referencedBy : ∀ target, summary.referencedBy target =
    (arrows.filter fun a => a.target == target).map Arrow.source
  dangling : summary.dangling = (arrows.filter fun a => !a.resolved).map fun a => ⟨a.source, a.target⟩
  resolved_iff : ∀ a ∈ arrows, a.resolved = true ↔ ∃ level, analysis.levelOf? a.target = some level
  color_of_level : ∀ a ∈ arrows, ∀ level, analysis.levelOf? a.target = some level →
    a.color = Color.ofLevel level
  color_dangling_iff : ∀ a ∈ arrows, a.color = .arrowDangling ↔ ∀ f ∈ frames, f.index ≠ a.target
  isDangling_iff : ∀ source target, summary.isDangling source target = true ↔
    (∃ f ∈ frames, f.index = source ∧ target ∈ f.refs) ∧ ∀ f ∈ frames, f.index ≠ target

/-- The arrows, the summary and the analysis of a frame list agree on its references: on their order, on
who makes them, on which of them dangle and on the levels of their targets. -/
theorem passes_agree [Scalar α] (frames : List Frame) (g : ArrowGeometry α) (anchors : FrameAnchors α) :
    PassesAgree frames (ArrowLayout.compute frames g anchors).arrows (summarize frames)
      (analyze frames : TemporalAnalysis β) where
  pairs := ArrowLayout.compute_arrows_map_pair frames g anchors
  total := by
    have hpairs := ArrowLayout.compute_arrows_map_pair frames g anchors
    rw [summarize_eq, ReferenceSummary.outgoingTotal_ofReferences, ← hpairs, List.length_map]
  referencedBy target := by
    have hpairs := ArrowLayout.compute_arrows_map_pair frames g anchors
    rw [summarize_eq, ReferenceSummary.referencedBy_ofReferences, ← hpairs, List.filter_map,
      List.map_map]
    rfl
  dangling := by
    have hpairs := ArrowLayout.compute_arrows_map_pair frames g anchors
    -- Whether a reference dangles the arrows read off the levels, the summary off the indices.
    have hunresolved := List.filter_congr
      fun a (ha : a ∈ (ArrowLayout.compute frames g anchors).arrows) =>
        congrArg Bool.not (resolved_eq_contains ha)
    rw [summarize_eq, ReferenceSummary.dangling_ofReferences, ← hpairs, List.filter_map, List.map_map,
      hunresolved]
    rfl
  resolved_iff a ha := by
    rw [resolved_eq (β := β) ha, Option.isSome_iff_exists]
  color_of_level a ha level hlevel := by
    rw [color_eq (β := β) ha, hlevel]
  color_dangling_iff a ha := color_eq_arrowDangling_iff ha
  isDangling_iff := isDangling_summarize frames

end FrameAtlas
