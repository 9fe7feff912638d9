import FrameAtlas.Arrow.Slots
import Mathlib.Data.List.Perm.Subperm

namespace FrameAtlas

namespace IndexSpan

def Contains (s : IndexSpan) (p : UInt32) : Prop := s.start ≤ p ∧ p ≤ s.stop

instance (s : IndexSpan) (p : UInt32) : Decidable (s.Contains p) :=
  inferInstanceAs (Decidable (_ ∧ _))

theorem start_le_stop_between (a b : UInt32) : (between a b).start ≤ (between a b).stop := by
  unfold between
  split
  · assumption
  · rename_i h
    exact (UInt32.le_total a b).resolve_left h

theorem contains_between (a b p : UInt32) :
    (between a b).Contains p ↔ min a b ≤ p ∧ p ≤ max a b := by
  rw [UInt32.min_def, UInt32.max_def]
  unfold between Contains
  split
  · rfl
  · rfl

def Apart (a b : IndexSpan) : Prop := a.stop < b.start ∨ b.stop < a.start

theorem Apart.symm {a b : IndexSpan} (h : a.Apart b) : b.Apart a := Or.symm h

/-- No index lies in two spans that are apart. -/
theorem Apart.not_contains {a b : IndexSpan} {p : UInt32} (h : a.Apart b) (ha : a.Contains p) :
    ¬ b.Contains p := by
  intro hb
  rcases h with h | h
  · exact UInt32.lt_irrefl p (UInt32.lt_of_le_of_lt ha.2 (UInt32.lt_of_lt_of_le h hb.1))
  · exact UInt32.lt_irrefl p (UInt32.lt_of_le_of_lt hb.2 (UInt32.lt_of_lt_of_le h ha.1))

theorem visitedBefore_iff (a b : IndexSpan) :
    a.visitedBefore b = true ↔ a.start < b.start ∨ a.start = b.start ∧ a.stop ≤ b.stop := by
  simp only [visitedBefore, Bool.or_eq_true, Bool.and_eq_true, decide_eq_true_eq, beq_iff_eq]

theorem start_le_of_visitedBefore {a b : IndexSpan} (h : a.visitedBefore b = true) :
    a.start ≤ b.start := by
  rcases (visitedBefore_iff a b).1 h with hlt | ⟨heq, _⟩
  · exact UInt32.le_of_lt hlt
  · exact UInt32.le_of_eq heq

theorem visitedBefore_trans (a b c : IndexSpan) (hab : a.visitedBefore b = true)
    (hbc : b.visitedBefore c = true) : a.visitedBefore c = true := by
  rw [visitedBefore_iff] at hab hbc ⊢
  rcases hab with hab | ⟨hab, hab'⟩
  · left
    rcases hbc with hbc | ⟨hbc, _⟩
    · exact UInt32.lt_trans hab hbc
    · rwa [← hbc]
  · rcases hbc with hbc | ⟨hbc, hbc'⟩
    · left
      rwa [hab]
    · right
      exact ⟨hab.trans hbc, UInt32.le_trans hab' hbc'⟩

/-- Any two spans are visited one before the other. -/
theorem visitedBefore_total (a b : IndexSpan) :
    (a.visitedBefore b || b.visitedBefore a) = true := by
  rw [Bool.or_eq_true, visitedBefore_iff, visitedBefore_iff]
  by_cases heq : a.start = b.start
  · rcases UInt32.le_total a.stop b.stop with hle | hle
    · exact Or.inl (Or.inr ⟨heq, hle⟩)
    · exact Or.inr (Or.inr ⟨heq.symm, hle⟩)
  · rcases UInt32.le_total a.start b.start with hle | hle
    · exact Or.inl (Or.inl (UInt32.lt_of_le_of_ne hle heq))
    · exact Or.inr (Or.inl (UInt32.lt_of_le_of_ne hle (Ne.symm heq)))

/-- Only equal spans could change places in the visiting order. -/
theorem visitedBefore_antisymm {a b : IndexSpan} (hab : a.visitedBefore b = true)
    (hba : b.visitedBefore a = true) : a = b := by
  have hstart : a.start = b.start :=
    UInt32.le_antisymm (start_le_of_visitedBefore hab) (start_le_of_visitedBefore hba)
  have hnot : ∀ {c d : UInt32}, c = d → ¬ c < d := fun h => UInt32.not_lt.2 (UInt32.le_of_eq h.symm)
  have hstop : a.stop = b.stop := by
    apply UInt32.le_antisymm
    · exact (((visitedBefore_iff a b).1 hab).resolve_left (hnot hstart)).2
    · exact (((visitedBefore_iff b a).1 hba).resolve_left (hnot hstart.symm)).2
  cases a with
  | mk start stop =>
    cases b with
    | mk start' stop' =>
      obtain rfl : start = start' := hstart
      obtain rfl : stop = stop' := hstop
      rfl

end IndexSpan

section Packing

/-- A span takes the lowest slot that is free at its start, and opens one when none is. -/
theorem packSlots_cons (ends : List UInt32) (s : IndexSpan) (rest : List IndexSpan) :
    (∃ slot, ∃ h : slot < ends.length, ends[slot] < s.start ∧
      (∀ lower (hlower : lower < slot), s.start ≤ ends[lower]) ∧
      packSlots ends (s :: rest) = slot :: packSlots (ends.set slot s.stop) rest) ∨
    ((∀ last ∈ ends, s.start ≤ last) ∧
      packSlots ends (s :: rest) = ends.length :: packSlots (ends ++ [s.stop]) rest) := by
  cases hfree : ends.findIdx? fun last => last < s.start with
  | some slot =>
    left
    obtain ⟨hslot, hlast, hlower⟩ := List.findIdx?_eq_some_iff_getElem.1 hfree
    refine ⟨slot, hslot, of_decide_eq_true hlast, ?_, ?_⟩
    · intro lower hlt
      have hbusy := hlower lower hlt
      rw [decide_eq_true_eq, UInt32.not_lt] at hbusy
      exact hbusy
    · rw [packSlots, hfree]
  | none =>
    right
    refine ⟨?_, by rw [packSlots, hfree]⟩
    intro last hlast
    have hbusy := List.findIdx?_eq_none_iff.1 hfree last hlast
    rwa [decide_eq_false_iff_not, UInt32.not_lt] at hbusy

theorem length_packSlots (ends : List UInt32) (spans : List IndexSpan) :
    (packSlots ends spans).length = spans.length := by
  induction spans generalizing ends with
  | nil => rfl
  | cons s rest ih =>
    obtain ⟨slot, _, _, _, h⟩ | ⟨_, h⟩ := packSlots_cons ends s rest
    · rw [h, List.length_cons, ih, List.length_cons]
    · rw [h, List.length_cons, ih, List.length_cons]

/-- A span starts after the span that was last in its slot before any of the list was placed. -/
theorem lt_start_of_mem_zip_packSlots {ends : List UInt32} {spans : List IndexSpan}
    (hsorted : spans.Pairwise fun a b => a.start ≤ b.start) {placed : IndexSpan × Nat}
    (hplaced : placed ∈ spans.zip (packSlots ends spans)) {last : UInt32}
    (hlast : ends[placed.2]? = some last) : last < placed.1.start := by
  induction spans generalizing ends last with
  | nil => simp at hplaced
  | cons s rest ih =>
    obtain ⟨hfirst, hrest⟩ := List.pairwise_cons.1 hsorted
    obtain ⟨slot, hslot, hfree, _, h⟩ | ⟨_, h⟩ := packSlots_cons ends s rest
    · rw [h, List.zip_cons_cons, List.mem_cons] at hplaced
      have hend : ends[slot]? = some ends[slot] := List.getElem?_eq_getElem hslot
      rcases hplaced with rfl | hplaced
      · rw [hend, Option.some_inj] at hlast
        rwa [← hlast]
      · by_cases hsame : slot = placed.2
        -- The slot has since gone to the first span, which starts after the old end and no later.
        · rw [← hsame, hend, Option.some_inj] at hlast
          rw [← hlast]
          exact UInt32.lt_of_lt_of_le hfree (hfirst _ (List.of_mem_zip hplaced).1)
        · apply ih hrest hplaced
          rwa [List.getElem?_set_ne hsame]
    · rw [h, List.zip_cons_cons, List.mem_cons] at hplaced
      have hold : placed.2 < ends.length := (List.getElem?_eq_some_iff.1 hlast).1
      rcases hplaced with rfl | hplaced
      · exact absurd hold (Nat.lt_irrefl _)
      · apply ih hrest hplaced
        rwa [List.getElem?_append_left hold]

/-- Of two spans in one slot the earlier ends before the later starts. -/
theorem pairwise_zip_packSlots {spans : List IndexSpan} (ends : List UInt32)
    (hsorted : spans.Pairwise fun a b => a.start ≤ b.start) :
    (spans.zip (packSlots ends spans)).Pairwise fun a b => a.2 = b.2 → a.1.stop < b.1.start := by
  induction spans generalizing ends with
  | nil => exact List.Pairwise.nil
  | cons s rest ih =>
    obtain ⟨_, hrest⟩ := List.pairwise_cons.1 hsorted
    obtain ⟨slot, hslot, _, _, h⟩ | ⟨_, h⟩ := packSlots_cons ends s rest
    · rw [h, List.zip_cons_cons]
      refine List.Pairwise.cons ?_ (ih _ hrest)
      intro placed hplaced hsame
      apply lt_start_of_mem_zip_packSlots hrest hplaced
      rw [← hsame, List.getElem?_set_self hslot]
    · rw [h, List.zip_cons_cons]
      refine List.Pairwise.cons ?_ (ih _ hrest)
      intro placed hplaced hsame
      apply lt_start_of_mem_zip_packSlots hrest hplaced
      rw [← hsame, List.getElem?_concat_length]

example : packSlots [] [⟨0, 5⟩, ⟨5, 9⟩, ⟨6, 9⟩] = [0, 1, 0] := by decide

/-- Slots are opened in order, so those below a used slot are used or were open before. -/
theorem mem_packSlots_of_le {ends : List UInt32} {spans : List IndexSpan} {slot lower : Nat}
    (hslot : slot ∈ packSlots ends spans) (hopen : ends.length ≤ lower) (hle : lower ≤ slot) :
    lower ∈ packSlots ends spans := by
  induction spans generalizing ends with
  | nil => simp [packSlots] at hslot
  | cons s rest ih =>
    obtain ⟨first, hfirst, _, _, h⟩ | ⟨_, h⟩ := packSlots_cons ends s rest
    · rw [h, List.mem_cons] at hslot ⊢
      rcases hslot with rfl | hslot
      · omega
      · right
        apply ih hslot
        rwa [List.length_set]
    · rw [h, List.mem_cons] at hslot ⊢
      rcases Nat.eq_or_lt_of_le hopen with heq | hlt
      · exact Or.inl heq.symm
      · right
        rcases hslot with rfl | hslot
        · omega
        · apply ih hslot
          rwa [List.length_append, List.length_singleton]

/-- The ends of the slots stand for spans placed already: at every index at least as many of these
have yet to end as there are ends to come, and all have started when a coming span starts. -/
structure Backed (ends : List UInt32) (placed coming : List IndexSpan) : Prop where
  started : ∀ a ∈ placed, ∀ s ∈ coming, a.start ≤ s.start
  running : ∀ p, (ends.countP fun last => p ≤ last) ≤ placed.countP fun a => p ≤ a.stop

namespace Backed

variable {ends : List UInt32} {placed rest : List IndexSpan} {s : IndexSpan}

/-- Spans are placed in the order of their starts. -/
theorem started_concat (h : Backed ends placed (s :: rest))
    (hfirst : ∀ b ∈ rest, s.start ≤ b.start) :
    ∀ a ∈ placed ++ [s], ∀ b ∈ rest, a.start ≤ b.start := by
  intro a ha b hb
  rcases List.mem_append.1 ha with ha | ha
  · exact h.started a ha b (List.mem_cons_of_mem s hb)
  · rw [List.mem_singleton.1 ha]
    exact hfirst b hb

/-- Placing a span in the slot of one that ended keeps the count of spans that have yet to end. -/
theorem set (h : Backed ends placed (s :: rest)) (hfirst : ∀ b ∈ rest, s.start ≤ b.start)
    {slot : Nat} (hslot : slot < ends.length) :
    Backed (ends.set slot s.stop) (placed ++ [s]) rest := by
  refine ⟨h.started_concat hfirst, ?_⟩
  intro p
  have hrunning := h.running p
  rw [List.countP_set hslot, List.countP_append, List.countP_singleton]
  omega

/-- A new slot comes with a span that has yet to end. -/
theorem concat (h : Backed ends placed (s :: rest)) (hfirst : ∀ b ∈ rest, s.start ≤ b.start) :
    Backed (ends ++ [s.stop]) (placed ++ [s]) rest := by
  refine ⟨h.started_concat hfirst, ?_⟩
  intro p
  rw [List.countP_append, List.countP_append, List.countP_singleton, List.countP_singleton]
  exact Nat.add_le_add_right (h.running p) _

/-- When no slot is free, the start of the span is crowded: besides it, a span for each slot. -/
theorem crowded (h : Backed ends placed (s :: rest)) (hproper : s.start ≤ s.stop)
    (hbusy : ∀ last ∈ ends, s.start ≤ last) :
    ends.length < (placed ++ s :: rest).countP fun b => b.Contains s.start := by
  -- Counted at the start of the span, every slot has a span that has yet to end.
  have hall : (ends.countP fun last => s.start ≤ last) = ends.length := by
    rw [List.countP_eq_length]
    intro last hlast
    exact decide_eq_true (hbusy last hlast)
  have hplaced : (placed.countP fun a => s.start ≤ a.stop) =
      placed.countP fun a => a.Contains s.start := by
    apply List.countP_congr
    intro a ha
    have hstarted := h.started a ha s List.mem_cons_self
    simp only [decide_eq_true_eq, IndexSpan.Contains, hstarted, true_and]
  have hself : s.Contains s.start := ⟨UInt32.le_refl _, hproper⟩
  calc
    ends.length ≤ placed.countP fun a => a.Contains s.start := by
      rw [← hall, ← hplaced]
      exact h.running s.start
    _ < placed.countP (fun a => a.Contains s.start) +
        ((rest.countP fun a => a.Contains s.start) + 1) := by omega
    _ = (placed ++ s :: rest).countP fun b => b.Contains s.start := by
      rw [List.countP_append, List.countP_cons, if_pos (decide_eq_true hself)]

end Backed

/-- Where a slot is opened, more spans share an index than there are slots below it. -/
theorem exists_crowded_of_mem_packSlots {ends : List UInt32} {placed spans : List IndexSpan}
    (hsorted : spans.Pairwise fun a b => a.start ≤ b.start)
    (hproper : ∀ s ∈ spans, s.start ≤ s.stop) (hbacked : Backed ends placed spans)
    {slot : Nat} (hslot : slot ∈ packSlots ends spans) (hopened : ends.length ≤ slot) :
    ∃ p, slot < (placed ++ spans).countP fun s => s.Contains p := by
  induction spans generalizing ends placed with
  | nil => simp [packSlots] at hslot
  | cons s rest ih =>
    obtain ⟨hfirst, hrest⟩ := List.pairwise_cons.1 hsorted
    have hproper' : ∀ b ∈ rest, b.start ≤ b.stop := fun b hb =>
      hproper b (List.mem_cons_of_mem s hb)
    obtain ⟨first, hslotlt, _, _, h⟩ | ⟨hbusy, h⟩ := packSlots_cons ends s rest
    · rw [h, List.mem_cons] at hslot
      rcases hslot with rfl | hslot
      · omega
      · rw [List.append_cons]
        apply ih hrest hproper' (hbacked.set hfirst hslotlt) hslot
        rwa [List.length_set]
    · have hcrowded := hbacked.crowded (hproper s List.mem_cons_self) hbusy
      rw [h, List.mem_cons] at hslot
      rcases Nat.eq_or_lt_of_le hopened with heq | hlt
      · exact ⟨s.start, heq ▸ hcrowded⟩
      · rcases hslot with rfl | hslot
        · omega
        · rw [List.append_cons]
          apply ih hrest hproper' (hbacked.concat hfirst) hslot
          rwa [List.length_append, List.length_singleton]

end Packing

section Assignment

theorem length_assignSlots (spans : List IndexSpan) : (assignSlots spans).length = spans.length := by
  simp only [assignSlots, List.length_map, List.length_range]

/-- Every span is visited, and once. -/
theorem visitOrder_perm (spans : List IndexSpan) : (visitOrder spans).Perm spans.zipIdx :=
  List.mergeSort_perm _ _

def visitedSpans (spans : List IndexSpan) : List IndexSpan := (visitOrder spans).map (·.1)

theorem visitedSpans_perm (spans : List IndexSpan) : (visitedSpans spans).Perm spans := by
  have h := (visitOrder_perm spans).map (·.1)
  rwa [List.zipIdx_map_fst] at h

theorem visitedSpans_sorted (spans : List IndexSpan) :
    (visitedSpans spans).Pairwise fun a b => a.visitedBefore b = true := by
  rw [visitedSpans, List.pairwise_map]
  exact List.pairwise_mergeSort (fun a b c => IndexSpan.visitedBefore_trans a.1 b.1 c.1)
    (fun a b => IndexSpan.visitedBefore_total a.1 b.1) spans.zipIdx

theorem visitedSpans_starts (spans : List IndexSpan) :
    (visitedSpans spans).Pairwise fun a b => a.start ≤ b.start :=
  (visitedSpans_sorted spans).imp IndexSpan.start_le_of_visitedBefore

/-- Each value is found under its own key if no key is given twice. -/
theorem map_find?_zip {keys values : List Nat} (hnodup : keys.Nodup)
    (hlength : keys.length = values.length) :
    (keys.map fun key => (((keys.zip values).find? fun p => p.1 == key).map (·.2)).getD 0) =
      values := by
  induction keys generalizing values with
  | nil => exact (List.length_eq_zero_iff.1 hlength.symm).symm
  | cons first rest ih =>
    obtain ⟨hfirst, hrest⟩ := List.nodup_cons.1 hnodup
    cases values with
    | nil => simp at hlength
    | cons value values =>
      have hhead : ((first, value) :: rest.zip values).find? (fun p => p.1 == first) =
          some (first, value) := List.find?_cons_of_pos (beq_self_eq_true first)
      rw [List.map_cons, List.zip_cons_cons, hhead]
      congr 1
      refine (List.map_congr_left ?_).trans (ih hrest (Nat.succ_inj.1 hlength))
      intro key hkey
      have hne : ¬ (first == key) = true := by
        rw [beq_iff_eq]
        rintro rfl
        exact hfirst hkey
      have htail : ((first, value) :: rest.zip values).find? (fun p => p.1 == key) =
          (rest.zip values).find? fun p => p.1 == key := List.find?_cons_of_neg hne
      rw [htail]

def slotAt (spans : List IndexSpan) (position : Nat) : Nat :=
  let placed := ((visitOrder spans).map (·.2)).zip (packSlots [] (visitedSpans spans))
  ((placed.find? fun p => p.1 == position).map (·.2)).getD 0

/-- Each position of the list is given the slot of its own span. -/
theorem assignSlots_eq_map (spans : List IndexSpan) :
    assignSlots spans = spans.zipIdx.map fun e => slotAt spans e.2 := by
  have hpositions : List.range spans.length = spans.zipIdx.map (·.2) := by
    rw [List.zipIdx_map_snd, List.range_eq_range']
  calc
    assignSlots spans = (List.range spans.length).map (slotAt spans) := rfl
    _ = spans.zipIdx.map fun e => slotAt spans e.2 := by rw [hpositions, List.map_map]; rfl

theorem map_slotAt_visitOrder (spans : List IndexSpan) :
    (visitOrder spans).map (fun e => slotAt spans e.2) = packSlots [] (visitedSpans spans) := by
  have hnodup : ((visitOrder spans).map (·.2)).Nodup := by
    have hperm := (visitOrder_perm spans).map (·.2)
    rw [List.zipIdx_map_snd] at hperm
    exact hperm.nodup_iff.2 (List.nodup_range' 1)
  have hlength : ((visitOrder spans).map (·.2)).length =
      (packSlots [] (visitedSpans spans)).length := by
    rw [length_packSlots, visitedSpans, List.length_map, List.length_map]
  rw [← map_find?_zip hnodup hlength, List.map_map]
  rfl

/-- Every span has the slot that it gets in visiting order. -/
theorem zip_assignSlots_perm (spans : List IndexSpan) :
    (spans.zip (assignSlots spans)).Perm
      ((visitedSpans spans).zip (packSlots [] (visitedSpans spans))) := by
  have hinput : spans.zip (assignSlots spans) =
      spans.zipIdx.map fun e => (e.1, slotAt spans e.2) := by
    nth_rewrite 1 [← List.zipIdx_map_fst 0 spans]
    rw [assignSlots_eq_map]
    exact List.zip_map'
  have hvisited : (visitedSpans spans).zip (packSlots [] (visitedSpans spans)) =
      (visitOrder spans).map fun e => (e.1, slotAt spans e.2) := by
    rw [← map_slotAt_visitOrder, visitedSpans]
    exact List.zip_map'
  rw [hinput, hvisited]
  exact ((visitOrder_perm spans).map _).symm

theorem assignSlots_perm (spans : List IndexSpan) :
    (assignSlots spans).Perm (packSlots [] (visitedSpans spans)) := by
  have h := (zip_assignSlots_perm spans).map (·.2)
  have hinput := length_assignSlots spans
  have hvisited := length_packSlots [] (visitedSpans spans)
  rwa [List.map_snd_zip (Nat.le_of_eq hinput), List.map_snd_zip (Nat.le_of_eq hvisited)] at h

/-- Of two spans in one slot neither shares an index with the other. -/
theorem pairwise_zip_assignSlots (spans : List IndexSpan) :
    (spans.zip (assignSlots spans)).Pairwise fun a b => a.2 = b.2 → a.1.Apart b.1 := by
  have hvisited := pairwise_zip_packSlots [] (visitedSpans_starts spans)
  refine ((zip_assignSlots_perm spans).pairwise_iff ?_).2 (hvisited.imp ?_)
  · intro a b h hsame
    exact (h hsame.symm).symm
  · intro a b h hsame
    exact Or.inl (h hsame)

theorem apart_of_assignSlots_eq {spans : List IndexSpan} {i j : Nat} (hne : i ≠ j)
    {s t : IndexSpan} (hs : spans[i]? = some s) (ht : spans[j]? = some t)
    (hsame : (assignSlots spans)[i]? = (assignSlots spans)[j]?) : s.Apart t := by
  have hlength := length_assignSlots spans
  obtain ⟨hi, rfl⟩ := List.getElem?_eq_some_iff.1 hs
  obtain ⟨hj, rfl⟩ := List.getElem?_eq_some_iff.1 ht
  have hslots := hsame
  rw [List.getElem?_eq_getElem (by omega), List.getElem?_eq_getElem (by omega),
    Option.some_inj] at hslots
  have hzip := List.pairwise_iff_getElem.1 (pairwise_zip_assignSlots spans)
  have hlengthzip : (spans.zip (assignSlots spans)).length = spans.length := by
    rw [List.length_zip, hlength, Nat.min_self]
  rcases Nat.lt_or_gt_of_ne hne with hlt | hgt
  · have h := hzip i j (by omega) (by omega) hlt
    rw [List.getElem_zip, List.getElem_zip] at h
    exact h hslots
  · have h := hzip j i (by omega) (by omega) hgt
    rw [List.getElem_zip, List.getElem_zip] at h
    exact (h hslots.symm).symm

/-- No slot is left out: below a slot in use all slots are in use. -/
theorem mem_assignSlots_of_le {spans : List IndexSpan} {slot lower : Nat}
    (hslot : slot ∈ assignSlots spans) (hle : lower ≤ slot) : lower ∈ assignSlots spans := by
  rw [(assignSlots_perm spans).mem_iff] at hslot ⊢
  exact mem_packSlots_of_le hslot (Nat.zero_le lower) hle

/-- A slot is only opened at an index that lies in more spans than there are lower slots. -/
theorem exists_crowded_of_mem_assignSlots {spans : List IndexSpan}
    (hproper : ∀ s ∈ spans, s.start ≤ s.stop) {slot : Nat} (hslot : slot ∈ assignSlots spans) :
    ∃ p, slot < spans.countP fun s => s.Contains p := by
  have hproper' : ∀ s ∈ visitedSpans spans, s.start ≤ s.stop := fun s hs =>
    hproper s ((visitedSpans_perm spans).mem_iff.1 hs)
  have hbacked : Backed [] [] (visitedSpans spans) := by
    refine ⟨?_, fun p => Nat.le_refl _⟩
    intro a ha
    simp at ha
  rw [(assignSlots_perm spans).mem_iff] at hslot
  obtain ⟨p, hp⟩ := exists_crowded_of_mem_packSlots (visitedSpans_starts spans) hproper' hbacked
    hslot (Nat.zero_le slot)
  rw [List.nil_append, (visitedSpans_perm spans).countP_eq] at hp
  exact ⟨p, hp⟩

/-- Spans through one index have different slots, so there are no more of them than slots. -/
theorem countP_contains_le {spans : List IndexSpan} {bound : Nat}
    (hbound : ∀ slot ∈ assignSlots spans, slot < bound) (p : UInt32) :
    (spans.countP fun s => s.Contains p) ≤ bound := by
  let through := (spans.zip (assignSlots spans)).filter fun a => a.1.Contains p
  have hcount : (spans.countP fun s => s.Contains p) = (through.map (·.2)).length := by
    have hspans : (spans.zip (assignSlots spans)).map (·.1) = spans :=
      List.map_fst_zip (Nat.le_of_eq (length_assignSlots spans).symm)
    rw [List.length_map, ← List.countP_eq_length_filter]
    nth_rewrite 1 [← hspans]
    exact List.countP_map
  have hnodup : (through.map (·.2)).Nodup := by
    rw [List.Nodup, List.pairwise_map, List.pairwise_filter]
    refine (pairwise_zip_assignSlots spans).imp ?_
    intro a b h ha hb hsame
    exact (h hsame).not_contains (of_decide_eq_true ha) (of_decide_eq_true hb)
  have hsubset : through.map (·.2) ⊆ List.range bound := by
    intro slot hslot
    obtain ⟨a, ha, rfl⟩ := List.mem_map.1 hslot
    exact List.mem_range.2 (hbound _ (List.of_mem_zip (List.mem_of_mem_filter ha)).2)
  rw [hcount, ← List.length_range (n := bound)]
  exact (hnodup.subperm hsubset).length_le

end Assignment

end FrameAtlas
