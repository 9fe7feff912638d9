import FrameAtlas.Proofs.Arrow.Stacking
import FrameAtlas.Scalar.Exact

namespace FrameAtlas

open scoped List

variable {α : Type}

section Spans

variable {spans other : List IndexSpan}

/-- The order of visiting does not depend on the order of the list. -/
theorem visitedSpans_eq_of_perm (h : other.Perm spans) : visitedSpans other = visitedSpans spans := by
  have hperm : (visitedSpans other).Perm (visitedSpans spans) :=
    calc
      visitedSpans other ~ other := visitedSpans_perm other
      _ ~ spans := h
      _ ~ visitedSpans spans := (visitedSpans_perm spans).symm
  apply hperm.eq_of_pairwise _ (visitedSpans_sorted other) (visitedSpans_sorted spans)
  intro a b _ _ hab hba
  exact IndexSpan.visitedBefore_antisymm hab hba

/-- A reordered list gives out the same slots to the same spans. -/
theorem zip_assignSlots_perm_of_perm (h : other.Perm spans) :
    (other.zip (assignSlots other)).Perm (spans.zip (assignSlots spans)) := by
  have hother := zip_assignSlots_perm other
  rw [visitedSpans_eq_of_perm h] at hother
  exact hother.trans (zip_assignSlots_perm spans).symm

/-- The slots given out are the same in any order of the list, though not for the same positions. -/
theorem assignSlots_perm_of_perm (h : other.Perm spans) : (assignSlots other).Perm (assignSlots spans) := by
  have hslots := assignSlots_perm other
  rw [visitedSpans_eq_of_perm h] at hslots
  exact hslots.trans (assignSlots_perm spans).symm

theorem mem_zip_assignSlots {s : IndexSpan} {i : Nat} (hi : spans[i]? = some s) :
    ∃ slot, (assignSlots spans)[i]? = some slot ∧ (s, slot) ∈ spans.zip (assignSlots spans) := by
  obtain ⟨hlt, rfl⟩ := List.getElem?_eq_some_iff.1 hi
  have hslot : i < (assignSlots spans).length := (length_assignSlots spans).symm ▸ hlt
  refine ⟨(assignSlots spans)[i], List.getElem?_eq_getElem hslot, ?_⟩
  apply List.mem_of_getElem? (i := i)
  rw [List.getElem?_zip_eq_some]
  exact ⟨hi, List.getElem?_eq_getElem hslot⟩

/-- A span that is listed once has one slot, wherever it is listed. -/
theorem getElem?_assignSlots_of_count_eq_one (h : other.Perm spans) {s : IndexSpan} (honce : spans.count s = 1)
    {i j : Nat} (hi : spans[i]? = some s) (hj : other[j]? = some s) :
    (assignSlots other)[j]? = (assignSlots spans)[i]? := by
  obtain ⟨slot, hslot, hmem⟩ := mem_zip_assignSlots hi
  obtain ⟨slot', hslot', hmem'⟩ := mem_zip_assignSlots hj
  -- Both slots are given to the span in the one list, where it takes part in one pair.
  let ofSpan := (spans.zip (assignSlots spans)).filter fun p => p.1 == s
  have hspans : (spans.zip (assignSlots spans)).map (·.1) = spans :=
    List.map_fst_zip (Nat.le_of_eq (length_assignSlots spans).symm)
  have hlength : ofSpan.length = 1 :=
    calc
      ofSpan.length = (spans.zip (assignSlots spans)).countP fun p => p.1 == s :=
        List.countP_eq_length_filter.symm
      _ = ((spans.zip (assignSlots spans)).map (·.1)).countP (· == s) := by rw [List.countP_map]; rfl
      _ = spans.count s := by rw [hspans, List.count]
      _ = 1 := honce
  obtain ⟨pair, hpair⟩ := List.length_eq_one_iff.1 hlength
  have hsole : ∀ n, (s, n) ∈ spans.zip (assignSlots spans) → (s, n) = pair := by
    intro n hn
    have hin : (s, n) ∈ ofSpan := List.mem_filter.2 ⟨hn, beq_self_eq_true s⟩
    rwa [hpair, List.mem_singleton] at hin
  have hsame := (hsole slot hmem).trans (hsole slot' ((zip_assignSlots_perm_of_perm h).mem_iff.1 hmem')).symm
  rw [hslot, hslot', (Prod.mk.inj hsame).2]

end Spans

theorem edgeSlots_perm_of_perm {frames other : List Frame} (h : other.Perm frames) :
    (edgeSlots other).Perm (edgeSlots frames) := by
  have hedges : (edges other).Perm (edges frames) := h.flatMap_right Frame.edges
  exact assignSlots_perm_of_perm (hedges.map Edge.span)

namespace ArrowLayout

variable [Scalar α]

/-- The number of slots does not depend on the order of the list. -/
theorem slotCount_eq_of_perm {frames other : List Frame} (h : other.Perm frames) (g : ArrowGeometry α)
    (anchors : FrameAnchors α) :
    (compute other g anchors).slotCount = (compute frames g anchors).slotCount := by
  apply eq_of_forall_lt_iff
  intro n
  rw [lt_slotCount_iff, lt_slotCount_iff]
  exact (edgeSlots_perm_of_perm h).mem_iff

/-- Slots depend on the spans alone. A reordered list of spans, whichever end of a span comes first, gives the
same slots to the same spans, so that a span listed once keeps its slot; and the arrows of a reordered frame
list need as many slots as before, at the nominal anchors or at any others. -/
theorem slots_eq_of_reordered :
    (∀ spans other : List IndexSpan, other.Perm spans →
      (assignSlots other).length = other.length ∧
        (other.zip (assignSlots other)).Perm (spans.zip (assignSlots spans)) ∧
        ∀ (s : IndexSpan) (i j : Nat), spans.count s = 1 → spans[i]? = some s → other[j]? = some s →
          (assignSlots other)[j]? = (assignSlots spans)[i]?) ∧
    ∀ frames other : List Frame, other.Perm frames → ∀ g : ArrowGeometry α,
      (computeNominal other g).slotCount = (computeNominal frames g).slotCount ∧
        ∀ anchors, (compute other g anchors).slotCount = (compute frames g anchors).slotCount := by
  constructor
  · intro spans other h
    refine ⟨length_assignSlots other, zip_assignSlots_perm_of_perm h, ?_⟩
    intro s i j honce hi hj
    exact getElem?_assignSlots_of_count_eq_one h honce hi hj
  · intro frames other h g
    exact ⟨slotCount_eq_of_perm h g .empty, slotCount_eq_of_perm h g⟩

/-- The span from 2 to 4 is listed twice and takes two slots; the two others keep theirs. -/
theorem slots_eq_of_reordered_with_equal_spans :
    let spans : List IndexSpan := [⟨2, 4⟩, ⟨0, 3⟩, ⟨2, 4⟩, ⟨4, 1⟩]
    let other : List IndexSpan := [⟨4, 1⟩, ⟨2, 4⟩, ⟨2, 4⟩, ⟨0, 3⟩]
    (other.Perm spans ∧ spans.count ⟨4, 1⟩ = 1 ∧ spans[3]? = some ⟨4, 1⟩ ∧ other[0]? = some ⟨4, 1⟩) ∧
      assignSlots spans = [1, 0, 2, 0] ∧ (assignSlots other)[0]? = (assignSlots spans)[3]? := by
  intro spans other
  have hperm : other.Perm spans := by decide
  obtain ⟨-, -, hslot⟩ := (slots_eq_of_reordered (α := Rat)).1 spans other hperm
  have honce : spans.count ⟨4, 1⟩ = 1 := by decide
  have hvisits : visitOrder spans = [(⟨0, 3⟩, 1), (⟨2, 4⟩, 0), (⟨2, 4⟩, 2), (⟨4, 1⟩, 3)] := by
    simp [spans, visitOrder, List.mergeSort, IndexSpan.visitedBefore]
  have hslots : assignSlots spans = [1, 0, 2, 0] := by
    rw [assignSlots, hvisits]
    decide
  exact ⟨⟨hperm, honce, rfl, rfl⟩, hslots, hslot ⟨4, 1⟩ 3 0 honce rfl rfl⟩

end ArrowLayout

end FrameAtlas
