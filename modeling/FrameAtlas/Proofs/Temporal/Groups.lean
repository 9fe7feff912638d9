import FrameAtlas.Proofs.Temporal
import Mathlib.Data.List.Chain

/-!
The groups of pictures of a frame list. They cut the axis of frame indices from the lowest index of the list
upwards, one group beside the other, and the group looked up for an index is the one that it lies in.
-/

namespace FrameAtlas

variable {α : Type}

/-- How the groups of a frame list lie on the axis of indices. -/
structure GroupsPartition (frames : List Frame) (a : TemporalAnalysis α) : Prop where
  /-- An index below the whole list lies in no group, and so does every index if the list is empty. -/
  below : ∀ index, (∀ f ∈ frames, index < f.index) →
    a.gopOf? index = none ∧ ∀ g ∈ a.gops, g.contains index = false
  /-- Any other index lies in one group and no more, and that one is looked up for it. -/
  inside : ∀ index, (∃ f ∈ frames, f.index ≤ index) →
    ∃ g, a.gopOf? index = some g ∧ a.gops.filter (fun h => h.contains index) = [g]
  ascending : a.gops.Pairwise fun g h => g.start < h.start
  adjacent : a.gops.IsChain fun g h => g.stop = some h.start
  open_iff_last : ∀ g ∈ a.gops, g.stop = none ↔ a.gops.getLast? = some g
  first : ∀ g, a.gops.head? = some g → IsLowestIndex frames g.start
  boundary_iff_start : ∀ index, a.isBoundary index = true ↔ ∃ g ∈ a.gops, g.start = index
  boundary_iff_listed : ∀ index, a.isBoundary index = true ↔
    IsLowestIndex frames index ∨ ∃ f ∈ frames, f.isKeyframe = true ∧ f.index = index

namespace TemporalAnalysis

theorem spansFrom_map_start (bs : List UInt32) : (spansFrom bs).map GopSpan.start = bs := by
  induction bs with
  | nil => rfl
  | cons b rest ih => rw [spansFrom, List.map_cons, ih]

theorem start_mem_of_mem_spansFrom {bs : List UInt32} {g : GopSpan} (h : g ∈ spansFrom bs) :
    g.start ∈ bs := by
  rw [← spansFrom_map_start bs]
  exact List.mem_map_of_mem h

theorem pairwise_spansFrom {bs : List UInt32} (h : bs.Pairwise (· < ·)) :
    (spansFrom bs).Pairwise fun g h => g.start < h.start := by
  rw [← spansFrom_map_start bs, List.pairwise_map] at h
  exact h

/-- Each group ends where the next one starts. -/
theorem isChain_spansFrom (bs : List UInt32) :
    (spansFrom bs).IsChain fun g h => g.stop = some h.start := by
  induction bs with
  | nil => exact .nil
  | cons b rest ih =>
    cases rest with
    | nil => exact .singleton _
    | cons c rest => exact .cons_cons rfl ih

/-- Only the last group is open. -/
theorem stop_eq_none_iff {bs : List UInt32} (hbs : bs.Pairwise (· < ·)) {g : GopSpan}
    (hg : g ∈ spansFrom bs) : g.stop = none ↔ (spansFrom bs).getLast? = some g := by
  induction bs with
  | nil => exact absurd hg List.not_mem_nil
  | cons b rest ih =>
    obtain ⟨hb, hrest⟩ := List.pairwise_cons.1 hbs
    cases rest with
    | nil =>
      obtain rfl : g = ⟨b, none⟩ := List.mem_singleton.1 hg
      exact ⟨fun _ => rfl, fun _ => rfl⟩
    | cons c rest =>
      have hlast : (spansFrom (b :: c :: rest)).getLast? = (spansFrom (c :: rest)).getLast? := rfl
      rw [hlast]
      rcases List.mem_cons.1 hg with rfl | hg
      · refine ⟨fun hstop => absurd hstop (Option.some_ne_none c), ?_⟩
        intro hfirst
        have hmem := start_mem_of_mem_spansFrom (List.mem_of_getLast? hfirst)
        exact absurd (hb b hmem) (UInt32.lt_irrefl b)
      · exact ih hrest hg

theorem contains_eq_false_of_lt {g : GopSpan} {index : UInt32} (h : index < g.start) :
    g.contains index = false := by
  have hnot : ¬ g.start ≤ index := UInt32.not_le.2 h
  simp [GopSpan.contains, hnot]

theorem filter_contains_of_lt {bs : List UInt32} {index : UInt32} (h : ∀ b ∈ bs, index < b) :
    (spansFrom bs).filter (fun g => g.contains index) = [] := by
  rw [List.filter_eq_nil_iff]
  intro g hg
  rw [contains_eq_false_of_lt (h g.start (start_mem_of_mem_spansFrom hg))]
  exact Bool.false_ne_true

/-- Of the groups between ascending boundaries one index is in that of the last boundary not above it. -/
theorem filter_contains_spansFrom {lower upper : List UInt32} {b index : UInt32} (hb : b ≤ index)
    (hlower : ∀ c ∈ lower, c ≤ index) (hupper : ∀ c ∈ upper, index < c) :
    (spansFrom (lower ++ b :: upper)).filter (fun g => g.contains index) = [⟨b, upper.head?⟩] := by
  induction lower with
  | nil =>
    have hcontains : (⟨b, upper.head?⟩ : GopSpan).contains index = true := by
      cases upper with
      | nil => simp [GopSpan.contains, hb]
      | cons c rest => simp [GopSpan.contains, hb, hupper c List.mem_cons_self]
    rw [List.nil_append, spansFrom, List.filter_cons, if_pos hcontains, filter_contains_of_lt hupper]
  | cons c rest ih =>
    -- The group of an earlier boundary ends at the next one, which is not above the index either.
    obtain ⟨d, hd, hnext⟩ : ∃ d, d ≤ index ∧ (rest ++ b :: upper).head? = some d := by
      cases rest with
      | nil => exact ⟨b, hb, rfl⟩
      | cons d rest => exact ⟨d, hlower d (by simp), rfl⟩
    have hcontains : (⟨c, some d⟩ : GopSpan).contains index = false := by
      have hnot : ¬ index < d := UInt32.not_lt.2 hd
      simp [GopSpan.contains, hnot]
    rw [List.cons_append, spansFrom, hnext, List.filter_cons, hcontains, if_neg Bool.false_ne_true]
    exact ih fun c hc => hlower c (List.mem_cons_of_mem _ hc)

variable {a : TemporalAnalysis α}

theorem isOrderedBy_compare {bs : List UInt32} (h : bs.Pairwise (· < ·)) (index : UInt32) :
    IsOrderedBy (fun b => compare b index) bs := by
  refine h.imp ?_
  intro b c hbc
  rw [Std.compare_eq_lt, Std.compare_eq_lt, Std.compare_eq_gt, Std.compare_eq_gt]
  exact ⟨UInt32.lt_trans hbc, fun hb => UInt32.lt_trans hb hbc⟩

/-- The search among the boundaries ends at the right place. -/
theorem boundaryPlace_isRight (ha : a.gopBoundaries.Pairwise (· < ·)) (index : UInt32) :
    (a.boundaryPlace index).IsRight (fun b => compare b index) a.gopBoundaries :=
  search_isRight (isOrderedBy_compare ha index)

theorem gopAt?_of_split {lower upper : List UInt32} {b : UInt32} (h : a.gopBoundaries = lower ++ b :: upper) :
    a.gopAt? lower.length = some ⟨b, upper.head?⟩ := by
  have hnext : (lower ++ b :: upper)[lower.length + 1]? = upper.head? := by
    rw [List.getElem?_append_right (by omega), Nat.add_sub_cancel_left, List.getElem?_cons_succ,
      List.head?_eq_getElem?]
  rw [gopAt?, h, hnext, List.getElem?_append_right (Nat.le_refl _), Nat.sub_self, List.getElem?_cons_zero]
  rfl

/-- What is looked up: nothing below all boundaries, and otherwise the group of the last boundary not above. -/
theorem gopOf?_cases (ha : a.gopBoundaries.Pairwise (· < ·)) (index : UInt32) :
    (∀ b ∈ a.gopBoundaries, index < b) ∧ a.gopOf? index = none ∨
      ∃ lower b upper, a.gopBoundaries = lower ++ b :: upper ∧ b ≤ index ∧
        (∀ c ∈ upper, index < c) ∧ a.gopOf? index = some ⟨b, upper.head?⟩ := by
  have hright := boundaryPlace_isRight ha index
  unfold gopOf?
  cases hplace : a.boundaryPlace index with
  | found place =>
    rw [hplace] at hright
    obtain ⟨b, hb, hequal⟩ := hright
    obtain rfl : b = index := Std.LawfulEqOrd.eq_of_compare hequal
    obtain ⟨lower, upper, hsplit, rfl⟩ :
        ∃ lower upper, a.gopBoundaries = lower ++ b :: upper ∧ lower.length = place := by
      obtain ⟨hplace, hget⟩ := List.getElem?_eq_some_iff.1 hb
      refine ⟨a.gopBoundaries.take place, a.gopBoundaries.drop (place + 1), ?_, ?_⟩
      · rw [← hget, List.getElem_cons_drop, List.take_append_drop]
      · exact List.length_take_of_le (Nat.le_of_lt hplace)
    have hbehind : ∀ c ∈ upper, b < c := by
      rw [hsplit] at ha
      exact (List.pairwise_cons.1 (List.pairwise_append.1 ha).2.1).1
    exact .inr ⟨lower, b, upper, hsplit, UInt32.le_refl b, hbehind, gopAt?_of_split hsplit⟩
  | missing place =>
    rw [hplace] at hright
    obtain ⟨lower, upper, hsplit, hlength, hlower, hupper⟩ := hright
    have habove : ∀ c ∈ upper, index < c := fun c hc => Std.compare_eq_gt.1 (hupper c hc)
    cases place with
    | zero =>
      obtain rfl : lower = [] := List.length_eq_zero_iff.1 hlength
      rw [List.nil_append] at hsplit
      exact .inl ⟨hsplit ▸ habove, rfl⟩
    | succ place =>
      -- The place is behind the last boundary below the index, so its group starts one place before.
      obtain ⟨before, b, rfl⟩ : ∃ before b, lower = before ++ [b] := by
        have hne : lower ≠ [] := by
          intro hnil
          rw [hnil] at hlength
          contradiction
        exact ⟨lower.dropLast, lower.getLast hne, (List.dropLast_append_getLast hne).symm⟩
      rw [List.append_assoc, List.singleton_append] at hsplit
      have hbelow : b < index := Std.compare_eq_lt.1 (hlower b (by simp))
      obtain rfl : before.length = place := by simpa using hlength
      exact .inr ⟨before, b, upper, hsplit, UInt32.le_of_lt hbelow, habove, gopAt?_of_split hsplit⟩

/-- An index is found among the boundaries exactly if it is one. -/
theorem isBoundary_iff_mem (ha : a.gopBoundaries.Pairwise (· < ·)) (index : UInt32) :
    a.isBoundary index = true ↔ index ∈ a.gopBoundaries := by
  have hright := boundaryPlace_isRight ha index
  unfold isBoundary
  cases hplace : a.boundaryPlace index with
  | found place =>
    rw [hplace] at hright
    obtain ⟨b, hb, hequal⟩ := hright
    obtain rfl : b = index := Std.LawfulEqOrd.eq_of_compare hequal
    exact iff_of_true rfl (List.mem_of_getElem? hb)
  | missing place =>
    rw [hplace] at hright
    obtain ⟨lower, upper, hsplit, -, hlower, hupper⟩ := hright
    refine iff_of_false Bool.false_ne_true ?_
    rw [hsplit, List.mem_append]
    rintro (hmem | hmem)
    · exact UInt32.lt_irrefl _ (Std.compare_eq_lt.1 (hlower index hmem))
    · exact UInt32.lt_irrefl _ (Std.compare_eq_gt.1 (hupper index hmem))

end TemporalAnalysis

theorem exists_isLowestIndex {frames : List Frame} (h : frames ≠ []) : ∃ index, IsLowestIndex frames index := by
  obtain ⟨f, hf⟩ := List.exists_mem_of_ne_nil frames h
  have hne : sortedDistinct (frames.map Frame.index) ≠ [] :=
    List.ne_nil_of_mem ((mem_sortedDistinct _ f.index).2 (List.mem_map_of_mem hf))
  obtain ⟨low, rest, hlow⟩ := List.exists_cons_of_ne_nil hne
  have hmem : low ∈ (sortedDistinct (frames.map Frame.index)).take 1 := by
    rw [hlow]
    exact List.mem_cons_self
  obtain ⟨hlisted, hleast⟩ := (mem_take_one_sortedDistinct _ low).1 hmem
  refine ⟨low, List.mem_map.1 hlisted, ?_⟩
  intro g hg
  exact hleast g.index (List.mem_map_of_mem hg)

theorem listed_of_mem_gopStarts {frames : List Frame} {index : UInt32} (h : index ∈ gopStarts frames) :
    ∃ f ∈ frames, f.index = index := by
  rcases (mem_gopStarts frames index).1 h with hlow | ⟨f, hf, -, hindex⟩
  · exact hlow.1
  · exact ⟨f, hf, hindex⟩

/-- The first boundary is the lowest index of the list. -/
theorem isLowestIndex_of_head? {frames : List Frame} {index : UInt32}
    (h : (gopStarts frames).head? = some index) : IsLowestIndex frames index := by
  obtain ⟨rest, hstarts⟩ := List.head?_eq_some_iff.1 h
  have hmem : index ∈ gopStarts frames := List.mem_of_head? h
  obtain ⟨f, hf, hindex⟩ := listed_of_mem_gopStarts hmem
  obtain ⟨low, hlow⟩ := exists_isLowestIndex (List.ne_nil_of_mem hf)
  have hlowMem : low ∈ index :: rest := hstarts ▸ (mem_gopStarts frames low).2 (.inl hlow)
  have hascending : (index :: rest).Pairwise (· < ·) := hstarts ▸ sortedDistinct_ascending _
  rcases List.mem_cons.1 hlowMem with rfl | hrest
  · exact hlow
  · have hlt := (List.pairwise_cons.1 hascending).1 low hrest
    have hle := hlow.2 f hf
    rw [hindex] at hle
    exact absurd (UInt32.lt_of_le_of_lt hle hlt) (UInt32.lt_irrefl low)

/-- The groups of a frame list partition the axis of indices from its lowest index on, and the group looked up
for an index is the one that contains it. -/
theorem analyze_groupsPartition (frames : List Frame) :
    GroupsPartition frames (analyze frames : TemporalAnalysis α) := by
  let a : TemporalAnalysis α := analyze frames
  have ha : a.gopBoundaries.Pairwise (· < ·) := sortedDistinct_ascending _
  have hlisted : ∀ index, index ∈ a.gopBoundaries ↔
      IsLowestIndex frames index ∨ ∃ f ∈ frames, f.isKeyframe = true ∧ f.index = index := mem_gopStarts frames
  have hboundary := TemporalAnalysis.isBoundary_iff_mem ha
  refine ⟨?below, ?inside, TemporalAnalysis.pairwise_spansFrom ha, TemporalAnalysis.isChain_spansFrom _,
    fun g hg => TemporalAnalysis.stop_eq_none_iff ha hg, ?first, ?start, ?listed⟩
  case below =>
    intro index hindex
    have hbelow : ∀ b ∈ a.gopBoundaries, index < b := by
      intro b hb
      obtain ⟨f, hf, rfl⟩ := listed_of_mem_gopStarts hb
      exact hindex f hf
    refine ⟨?_, ?_⟩
    · rcases TemporalAnalysis.gopOf?_cases ha index with ⟨-, hnone⟩ | ⟨lower, b, upper, hsplit, hle, -, -⟩
      · exact hnone
      · have hlt : index < b := hbelow b (hsplit ▸ List.mem_append_right _ List.mem_cons_self)
        exact absurd hlt (UInt32.not_lt.2 hle)
    · intro g hg
      exact TemporalAnalysis.contains_eq_false_of_lt
        (hbelow g.start (TemporalAnalysis.start_mem_of_mem_spansFrom hg))
  case inside =>
    rintro index ⟨f, hf, hindex⟩
    obtain ⟨low, hlow⟩ := exists_isLowestIndex (List.ne_nil_of_mem hf)
    rcases TemporalAnalysis.gopOf?_cases ha index with ⟨habove, -⟩ | ⟨lower, b, upper, hsplit, hle, hupper, hgop⟩
    · have hlt : index < low := habove low ((hlisted low).2 (.inl hlow))
      exact absurd hlt (UInt32.not_lt.2 (UInt32.le_trans (hlow.2 f hf) hindex))
    · refine ⟨_, hgop, ?_⟩
      have hlower : ∀ c ∈ lower, c ≤ index := by
        rw [hsplit] at ha
        intro c hc
        have hcb : c < b := (List.pairwise_append.1 ha).2.2 c hc b List.mem_cons_self
        exact UInt32.le_trans (UInt32.le_of_lt hcb) hle
      rw [TemporalAnalysis.gops, hsplit]
      exact TemporalAnalysis.filter_contains_spansFrom hle hlower hupper
  case first =>
    intro g hg
    apply isLowestIndex_of_head?
    have hstarts := congrArg List.head? (TemporalAnalysis.spansFrom_map_start a.gopBoundaries)
    rw [List.head?_map] at hstarts
    exact hstarts.symm.trans (congrArg (Option.map GopSpan.start) hg)
  case start =>
    intro index
    rw [hboundary index, ← TemporalAnalysis.spansFrom_map_start a.gopBoundaries, List.mem_map]
    rfl
  case listed =>
    intro index
    rw [hboundary index, hlisted index]

end FrameAtlas
