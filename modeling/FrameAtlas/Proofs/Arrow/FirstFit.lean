import FrameAtlas.Proofs.Arrow.Slots
import Mathlib.Data.Fintype.EquivFin
import Mathlib.Data.Nat.Find

/-!
Slots in view of all that was placed before. The packing looks at one number for each slot, the end of the span
placed there last. As spans come by start, that number is the greatest end in its slot, and a coming span meets a
span of the slot just when it starts no later: so the packing and first fit against all placed spans choose alike.
-/

namespace FrameAtlas

namespace IndexSpan

def SharesIndex (a b : IndexSpan) : Prop := ∃ p, a.Contains p ∧ b.Contains p

/-- Spans share an index if each starts before either of them ends. -/
theorem sharesIndex_iff (a b : IndexSpan) :
    a.SharesIndex b ↔ (a.start ≤ a.stop ∧ a.start ≤ b.stop) ∧ b.start ≤ a.stop ∧ b.start ≤ b.stop := by
  constructor
  · rintro ⟨p, ⟨haStart, haStop⟩, hbStart, hbStop⟩
    exact ⟨⟨UInt32.le_trans haStart haStop, UInt32.le_trans haStart hbStop⟩,
      UInt32.le_trans hbStart haStop, UInt32.le_trans hbStart hbStop⟩
  · rintro ⟨⟨ha, hab⟩, hba, hb⟩
    rcases UInt32.le_total a.start b.start with hle | hle
    · exact ⟨b.start, ⟨hle, hba⟩, UInt32.le_refl _, hb⟩
    · exact ⟨a.start, ⟨UInt32.le_refl _, ha⟩, hle, hab⟩

instance (a b : IndexSpan) : Decidable (a.SharesIndex b) := decidable_of_iff' _ (sharesIndex_iff a b)

end IndexSpan

def IsFree (placed : List (IndexSpan × Nat)) (s : IndexSpan) (slot : Nat) : Prop :=
  ∀ p ∈ placed, p.2 = slot → ¬ p.1.SharesIndex s

instance (placed : List (IndexSpan × Nat)) (s : IndexSpan) : DecidablePred (IsFree placed s) := fun slot =>
  inferInstanceAs (Decidable (∀ p ∈ placed, p.2 = slot → ¬ p.1.SharesIndex s))

/-- A slot that no span was placed in yet is free, so first fit never runs out of slots. -/
theorem exists_isFree (placed : List (IndexSpan × Nat)) (s : IndexSpan) : ∃ slot, IsFree placed s slot := by
  obtain ⟨slot, hslot⟩ := Infinite.exists_notMem_finset (placed.map (·.2)).toFinset
  refine ⟨slot, ?_⟩
  rintro p hp rfl
  exact absurd (List.mem_toFinset.2 (List.mem_map_of_mem hp)) hslot

def lowestFree (placed : List (IndexSpan × Nat)) (s : IndexSpan) : Nat := Nat.find (exists_isFree placed s)

def firstFit : List (IndexSpan × Nat) → List IndexSpan → List Nat
  | _, [] => []
  | placed, s :: rest => lowestFree placed s :: firstFit (placed ++ [(s, lowestFree placed s)]) rest

/-- The slot of every span by first fit, in the order of the list: the one that it got when it was visited. -/
def firstFitSlots (spans : List IndexSpan) : List Nat :=
  let slots := firstFit [] (visitedSpans spans)
  spans.zipIdx.map fun e => slots.getD ((visitOrder spans).idxOf e) 0

section Summary

/-- The ends of the slots sum up the spans placed: no slot but these was used, and the end of a slot is the
greatest end of a span in it. -/
structure SumsUp (ends : List UInt32) (placed : List (IndexSpan × Nat)) : Prop where
  bounded : ∀ p ∈ placed, ∃ last, ends[p.2]? = some last ∧ p.1.stop ≤ last
  attained : ∀ slot last, ends[slot]? = some last → ∃ p ∈ placed, p.2 = slot ∧ p.1.stop = last

namespace SumsUp

variable {ends : List UInt32} {placed : List (IndexSpan × Nat)} {s : IndexSpan}

theorem nil : SumsUp [] [] := ⟨fun _ hp => absurd hp List.not_mem_nil, fun _ _ h => by simp at h⟩

/-- A slot is free for a span that starts behind its end, and for no other that comes by start. -/
theorem isFree_iff (h : SumsUp ends placed) (hstarted : ∀ p ∈ placed, p.1.start ≤ s.start)
    (hproper : s.start ≤ s.stop) (slot : Nat) :
    IsFree placed s slot ↔ ∀ last, ends[slot]? = some last → last < s.start := by
  constructor
  · intro hfree last hlast
    obtain ⟨p, hp, rfl, rfl⟩ := h.attained slot last hlast
    apply UInt32.not_le.1
    intro hmeets
    exact hfree p hp rfl ⟨s.start, ⟨hstarted p hp, hmeets⟩, UInt32.le_refl _, hproper⟩
  · rintro hbehind p hp rfl ⟨index, ⟨-, hstop⟩, hstart, -⟩
    obtain ⟨last, hlast, hle⟩ := h.bounded p hp
    have hlt : last < index := UInt32.lt_of_lt_of_le (hbehind last hlast) hstart
    exact UInt32.lt_irrefl _ (UInt32.lt_of_lt_of_le hlt (UInt32.le_trans hstop hle))

/-- First fit finds the first slot whose end lies before the span, or the one behind all slots. -/
theorem lowestFree_eq (h : SumsUp ends placed) (hstarted : ∀ p ∈ placed, p.1.start ≤ s.start)
    (hproper : s.start ≤ s.stop) {slot : Nat} (hbehind : ∀ last, ends[slot]? = some last → last < s.start)
    (hlower : ∀ lower < slot, ∃ last, ends[lower]? = some last ∧ s.start ≤ last) :
    lowestFree placed s = slot := by
  have hfree := h.isFree_iff hstarted hproper
  rw [lowestFree, Nat.find_eq_iff]
  constructor
  · exact (hfree slot).2 hbehind
  · intro lower hlt hlowerFree
    obtain ⟨last, hlast, hle⟩ := hlower lower hlt
    exact UInt32.not_lt.2 hle ((hfree lower).1 hlowerFree last hlast)

/-- A span that takes an old slot ends later than all spans in it, so it is the end of the slot from then on. -/
theorem set (h : SumsUp ends placed) {slot : Nat} (hslot : slot < ends.length) (hle : ends[slot] ≤ s.stop) :
    SumsUp (ends.set slot s.stop) (placed ++ [(s, slot)]) := by
  constructor
  · intro p hp
    rcases List.mem_append.1 hp with hp | hp
    · obtain ⟨last, hlast, hstop⟩ := h.bounded p hp
      by_cases hsame : slot = p.2
      · subst hsame
        rw [List.getElem?_eq_getElem hslot, Option.some_inj] at hlast
        refine ⟨s.stop, List.getElem?_set_self hslot, UInt32.le_trans hstop ?_⟩
        rwa [← hlast]
      · exact ⟨last, by rwa [List.getElem?_set_ne hsame], hstop⟩
    · rw [List.mem_singleton.1 hp]
      exact ⟨s.stop, List.getElem?_set_self hslot, UInt32.le_refl _⟩
  · intro other last hlast
    by_cases hsame : slot = other
    · subst hsame
      rw [List.getElem?_set_self hslot, Option.some_inj] at hlast
      exact ⟨(s, slot), by simp, rfl, hlast⟩
    · rw [List.getElem?_set_ne hsame] at hlast
      obtain ⟨p, hp, hother⟩ := h.attained other last hlast
      exact ⟨p, List.mem_append_left _ hp, hother⟩

/-- A span that opens a slot is the only one in it. -/
theorem concat (h : SumsUp ends placed) (s : IndexSpan) :
    SumsUp (ends ++ [s.stop]) (placed ++ [(s, ends.length)]) := by
  constructor
  · intro p hp
    rcases List.mem_append.1 hp with hp | hp
    · obtain ⟨last, hlast, hstop⟩ := h.bounded p hp
      have hold : p.2 < ends.length := (List.getElem?_eq_some_iff.1 hlast).1
      exact ⟨last, by rwa [List.getElem?_append_left hold], hstop⟩
    · rw [List.mem_singleton.1 hp]
      exact ⟨s.stop, List.getElem?_concat_length, UInt32.le_refl _⟩
  · intro slot last hlast
    rcases Nat.lt_or_ge slot ends.length with hold | hnew
    · rw [List.getElem?_append_left hold] at hlast
      obtain ⟨p, hp, hslot⟩ := h.attained slot last hlast
      exact ⟨p, List.mem_append_left _ hp, hslot⟩
    · have hin : slot < (ends ++ [s.stop]).length := (List.getElem?_eq_some_iff.1 hlast).1
      rw [List.length_append, List.length_singleton] at hin
      obtain rfl : slot = ends.length := by omega
      rw [List.getElem?_concat_length, Option.some_inj] at hlast
      exact ⟨(s, ends.length), by simp, rfl, hlast⟩

end SumsUp

/-- Spans that come by start are packed as first fit packs them. -/
theorem packSlots_eq_firstFit {ends : List UInt32} {placed : List (IndexSpan × Nat)} {spans : List IndexSpan}
    (h : SumsUp ends placed) (hstarted : ∀ p ∈ placed, ∀ s ∈ spans, p.1.start ≤ s.start)
    (hsorted : spans.Pairwise fun a b => a.start ≤ b.start) (hproper : ∀ s ∈ spans, s.start ≤ s.stop) :
    packSlots ends spans = firstFit placed spans := by
  induction spans generalizing ends placed with
  | nil => rfl
  | cons s rest ih =>
    obtain ⟨hfirst, hrest⟩ := List.pairwise_cons.1 hsorted
    obtain ⟨hself, hproper'⟩ := List.forall_mem_cons.1 hproper
    have hstarts : ∀ p ∈ placed, p.1.start ≤ s.start := fun p hp => hstarted p hp s List.mem_cons_self
    -- Whichever slot the span takes, it has started by the time the rest comes.
    have hstarted' (slot : Nat) : ∀ p ∈ placed ++ [(s, slot)], ∀ b ∈ rest, p.1.start ≤ b.start := by
      intro p hp b hb
      rcases List.mem_append.1 hp with hp | hp
      · exact hstarted p hp b (List.mem_cons_of_mem s hb)
      · rw [List.mem_singleton.1 hp]
        exact hfirst b hb
    obtain ⟨slot, hslot, hbehind, hlower, hpack⟩ | ⟨hbusy, hpack⟩ := packSlots_cons ends s rest
    · have hlowest : lowestFree placed s = slot := by
        apply h.lowestFree_eq hstarts hself
        · intro last hlast
          rw [List.getElem?_eq_getElem hslot, Option.some_inj] at hlast
          rwa [← hlast]
        · intro lower hlt
          exact ⟨_, List.getElem?_eq_getElem (hlt.trans hslot), hlower lower hlt⟩
      have hle : ends[slot] ≤ s.stop := UInt32.le_trans (UInt32.le_of_lt hbehind) hself
      rw [hpack, firstFit, hlowest, ih (h.set hslot hle) (hstarted' slot) hrest hproper']
    · have hlowest : lowestFree placed s = ends.length := by
        apply h.lowestFree_eq hstarts hself
        · intro last hlast
          exact absurd (List.getElem?_eq_some_iff.1 hlast).1 (Nat.lt_irrefl _)
        · intro lower hlt
          exact ⟨_, List.getElem?_eq_getElem hlt, hbusy _ (List.getElem_mem hlt)⟩
      rw [hpack, firstFit, hlowest, ih (h.concat s) (hstarted' ends.length) hrest hproper']

end Summary

section Order

def IsVisitedFirst (a b : IndexSpan × Nat) : Prop :=
  a.1.start < b.1.start ∨ a.1.start = b.1.start ∧ (a.1.stop < b.1.stop ∨ a.1.stop = b.1.stop ∧ a.2 < b.2)

structure IsStableOrder (spans : List IndexSpan) (visited : List (IndexSpan × Nat)) : Prop where
  perm : visited.Perm spans.zipIdx
  ordered : visited.Pairwise IsVisitedFirst

/-- The places of one and the same span are visited in the order of the list. -/
theorem filter_visitOrder (spans : List IndexSpan) (s : IndexSpan) :
    (visitOrder spans).filter (fun e => e.1 == s) = spans.zipIdx.filter fun e => e.1 == s := by
  -- Equal spans stand in the visiting order as they come, and the sort keeps such a part of a list in its order.
  have hequal : (spans.zipIdx.filter fun e => e.1 == s).Pairwise fun a b => a.1.visitedBefore b.1 = true := by
    rw [List.pairwise_filter]
    apply List.pairwise_of_forall
    intro a b ha hb
    rw [eq_of_beq ha, eq_of_beq hb, ← Bool.or_self (s.visitedBefore s)]
    exact IndexSpan.visitedBefore_total s s
  have hsublist : (spans.zipIdx.filter fun e => e.1 == s).Sublist (visitOrder spans) :=
    List.sublist_mergeSort (fun a b c => IndexSpan.visitedBefore_trans a.1 b.1 c.1)
      (fun a b => IndexSpan.visitedBefore_total a.1 b.1) hequal List.filter_sublist
  have hfiltered := hsublist.filter fun e => e.1 == s
  rw [List.filter_filter] at hfiltered
  simp only [Bool.and_self] at hfiltered
  exact (hfiltered.eq_of_length ((visitOrder_perm spans).filter _).length_eq.symm).symm

/-- Equal spans are visited by their places. -/
theorem pairwise_visitOrder_of_eq (spans : List IndexSpan) :
    (visitOrder spans).Pairwise fun a b => a.1 = b.1 → a.2 < b.2 := by
  have hplaces : spans.zipIdx.Pairwise fun a b => a.2 < b.2 := by
    rw [← List.pairwise_map (f := Prod.snd), List.zipIdx_map_snd]
    exact List.pairwise_lt_range'
  have hties (s : IndexSpan) : (visitOrder spans).Pairwise fun a b => a.1 == s → b.1 == s → a.2 < b.2 := by
    rw [← List.pairwise_filter, filter_visitOrder]
    exact hplaces.filter _
  rw [List.pairwise_iff_forall_sublist]
  intro a b hab hsame
  exact List.pairwise_iff_forall_sublist.1 (hties b.1) hab (beq_iff_eq.2 hsame) (beq_self_eq_true _)

theorem IsVisitedFirst.of_visitedBefore {a b : IndexSpan × Nat} (h : a.1.visitedBefore b.1 = true)
    (hties : a.1 = b.1 → a.2 < b.2) : IsVisitedFirst a b := by
  rcases (IndexSpan.visitedBefore_iff _ _).1 h with hstart | ⟨hstart, hstop⟩
  · exact .inl hstart
  · refine .inr ⟨hstart, ?_⟩
    by_cases heq : a.1.stop = b.1.stop
    · have hsame : a.1 = b.1 := by
        apply IndexSpan.visitedBefore_antisymm h
        rw [IndexSpan.visitedBefore_iff]
        exact .inr ⟨hstart.symm, UInt32.le_of_eq heq.symm⟩
      exact .inr ⟨heq, hties hsame⟩
    · exact .inl (UInt32.lt_of_le_of_ne hstop heq)

/-- The visiting order is the stable sort of the spans with their places. -/
theorem isStableOrder_visitOrder (spans : List IndexSpan) : IsStableOrder spans (visitOrder spans) := by
  refine ⟨visitOrder_perm spans, ?_⟩
  have hsorted := visitedSpans_sorted spans
  rw [visitedSpans, List.pairwise_map] at hsorted
  apply (hsorted.and (pairwise_visitOrder_of_eq spans)).imp
  rintro a b ⟨hbefore, hties⟩
  exact IsVisitedFirst.of_visitedBefore hbefore hties

end Order

section Assignment

variable {spans : List IndexSpan}

/-- In visiting order the ends of slots tell all that first fit asks of the spans placed before. -/
theorem packSlots_visitedSpans (hproper : ∀ s ∈ spans, s.start ≤ s.stop) :
    packSlots [] (visitedSpans spans) = firstFit [] (visitedSpans spans) := by
  apply packSlots_eq_firstFit SumsUp.nil
  · intro p hp
    exact absurd hp List.not_mem_nil
  · exact visitedSpans_starts spans
  · intro s hs
    exact hproper s ((visitedSpans_perm spans).mem_iff.1 hs)

/-- To remember the last end of each slot is enough. Spans with their ends in order get the slots that first fit
gives them in view of all spans placed before, where both visit the spans by start, then by end, and equal spans in
the order of the list. -/
theorem assignSlots_eq_firstFitSlots (hproper : ∀ s ∈ spans, s.start ≤ s.stop) :
    assignSlots spans = firstFitSlots spans ∧ IsStableOrder spans (visitOrder spans) := by
  refine ⟨?_, isStableOrder_visitOrder spans⟩
  rw [assignSlots_eq_map, firstFitSlots]
  apply List.map_congr_left
  intro e he
  have hvisited : (visitOrder spans).idxOf e < (visitOrder spans).length :=
    List.idxOf_lt_length_of_mem ((visitOrder_perm spans).mem_iff.2 he)
  have hslot : (packSlots [] (visitedSpans spans))[(visitOrder spans).idxOf e]? = some (slotAt spans e.2) := by
    rw [← map_slotAt_visitOrder, List.getElem?_map, List.getElem?_eq_getElem hvisited, List.getElem_idxOf]
    rfl
  rw [← packSlots_visitedSpans hproper, List.getD_eq_getElem?_getD, hslot]
  rfl

/-- Two equal spans, one that ends where the first span ends, and one that goes back to the first slot. -/
theorem assignSlots_eq_firstFitSlots_of_equal_spans :
    let spans : List IndexSpan := [⟨2, 4⟩, ⟨0, 3⟩, ⟨2, 4⟩, ⟨3, 3⟩, ⟨4, 9⟩]
    (∀ s ∈ spans, s.start ≤ s.stop) ∧ firstFitSlots spans = [1, 0, 2, 3, 0] := by
  intro spans
  have hproper : ∀ s ∈ spans, s.start ≤ s.stop := by decide
  have hvisits : visitOrder spans = [(⟨0, 3⟩, 1), (⟨2, 4⟩, 0), (⟨2, 4⟩, 2), (⟨3, 3⟩, 3), (⟨4, 9⟩, 4)] := by
    simp [spans, visitOrder, List.mergeSort, IndexSpan.visitedBefore]
  refine ⟨hproper, ?_⟩
  rw [← (assignSlots_eq_firstFitSlots hproper).1, assignSlots, hvisits]
  decide

end Assignment

end FrameAtlas
