import FrameAtlas.Proofs.Arrow.Edges
import Mathlib.Order.Bounds.Basic

namespace FrameAtlas

variable {α : Type}

def IsOver (p source target : UInt32) : Prop := min source target ≤ p ∧ p ≤ max source target

instance (p source target : UInt32) : Decidable (IsOver p source target) :=
  inferInstanceAs (Decidable (_ ∧ _))

def coverage (frames : List Frame) (p : UInt32) : Nat :=
  (references frames).countP fun r => IsOver p r.1 r.2

/-- References over an index are spans that contain it. -/
theorem coverage_eq_countP_span (frames : List Frame) (p : UInt32) :
    coverage frames p = ((edges frames).map Edge.span).countP fun s => s.Contains p := by
  rw [coverage, edges_map_span, List.countP_map]
  apply List.countP_congr
  intro r _
  rw [Function.comp_apply, decide_eq_true_iff, decide_eq_true_iff]
  exact (IndexSpan.contains_between r.1 r.2 p).symm

theorem start_le_stop_of_mem_edges {frames : List Frame} {s : IndexSpan}
    (h : s ∈ (edges frames).map Edge.span) : s.start ≤ s.stop := by
  rw [edges_map_span] at h
  obtain ⟨r, _, rfl⟩ := List.mem_map.1 h
  exact IndexSpan.start_le_stop_between r.1 r.2

theorem lt_foldl_max_succ (slots : List Nat) (base n : Nat) :
    n < slots.foldl (fun count slot => max count (slot + 1)) base ↔
      n < base ∨ ∃ slot ∈ slots, n ≤ slot := by
  induction slots generalizing base with
  | nil => simp
  | cons first rest ih =>
    have hmax : n < max base (first + 1) ↔ n < base ∨ n ≤ first := by omega
    rw [List.foldl_cons, ih, List.exists_mem_cons_iff, hmax, or_assoc]

namespace ArrowLayout

variable [Scalar α]

theorem lt_slotCount_iff (frames : List Frame) (g : ArrowGeometry α) (anchors : FrameAnchors α)
    (n : Nat) : n < (compute frames g anchors).slotCount ↔ n ∈ edgeSlots frames := by
  rw [compute_slotCount, lt_foldl_max_succ]
  constructor
  · rintro (h | ⟨slot, hslot, hle⟩)
    · exact absurd h (Nat.not_lt_zero n)
    · exact mem_assignSlots_of_le hslot hle
  · intro h
    exact Or.inr ⟨n, h, Nat.le_refl n⟩

/-- Every index needs a slot for each of the references over it. -/
theorem coverage_le_slotCount (frames : List Frame) (g : ArrowGeometry α)
    (anchors : FrameAnchors α) (p : UInt32) :
    coverage frames p ≤ (compute frames g anchors).slotCount := by
  rw [coverage_eq_countP_span]
  apply countP_contains_le
  intro slot hslot
  exact (lt_slotCount_iff frames g anchors slot).2 hslot

/-- Some index needs all of the slots, so fewer would not do. -/
theorem exists_slotCount_le_coverage (frames : List Frame) (g : ArrowGeometry α)
    (anchors : FrameAnchors α) :
    ∃ p, (compute frames g anchors).slotCount ≤ coverage frames p := by
  rcases Nat.eq_zero_or_pos (compute frames g anchors).slotCount with hzero | hpos
  · exact ⟨0, hzero ▸ Nat.zero_le _⟩
  -- The last slot was opened at an index over which all slots are needed.
  · have htop : (compute frames g anchors).slotCount - 1 ∈ edgeSlots frames :=
      (lt_slotCount_iff frames g anchors _).1 (Nat.sub_lt hpos Nat.one_pos)
    obtain ⟨p, hp⟩ := exists_crowded_of_mem_assignSlots
      (fun s hs => start_le_stop_of_mem_edges hs) htop
    rw [← coverage_eq_countP_span] at hp
    exact ⟨p, by omega⟩

/-- Arrows over a common index have different slots, and there are as few slots as that allows. -/
structure IsStacked (frames : List Frame) (layout : ArrowLayout α) : Prop where
  apart : ∀ (i j : Nat) (a b : Arrow α), i ≠ j → layout.arrows[i]? = some a → layout.arrows[j]? = some b →
    ∀ p, IsOver p a.source a.target → IsOver p b.source b.target → a.slot ≠ b.slot
  used : ∀ n, n < layout.slotCount ↔ ∃ a ∈ layout.arrows, a.slot = n
  fewest : IsGreatest (Set.range (coverage frames)) layout.slotCount

/-- Arrows in one slot share no index. -/
theorem apart_compute (frames : List Frame) (g : ArrowGeometry α) (anchors : FrameAnchors α)
    {i j : Nat} {a b : Arrow α} (hne : i ≠ j)
    (ha : (compute frames g anchors).arrows[i]? = some a)
    (hb : (compute frames g anchors).arrows[j]? = some b) (hslot : a.slot = b.slot) :
    (IndexSpan.between a.source a.target).Apart (IndexSpan.between b.source b.target) := by
  have hspans : (compute frames g anchors).arrows.map
      (fun a => IndexSpan.between a.source a.target) = (edges frames).map Edge.span :=
    map_compute_arrows frames g anchors fun _ _ => rfl
  have hspan : ∀ {k : Nat} {c : Arrow α}, (compute frames g anchors).arrows[k]? = some c →
      ((edges frames).map Edge.span)[k]? = some (IndexSpan.between c.source c.target) := by
    intro k c hc
    rw [← hspans, List.getElem?_map, hc]
    rfl
  have hslotAt : ∀ {k : Nat} {c : Arrow α}, (compute frames g anchors).arrows[k]? = some c →
      (assignSlots ((edges frames).map Edge.span))[k]? = some c.slot := by
    intro k c hc
    change (edgeSlots frames)[k]? = some c.slot
    rw [← map_compute_slots frames g anchors, List.getElem?_map, hc]
    rfl
  apply apart_of_assignSlots_eq hne (hspan ha) (hspan hb)
  rw [hslotAt ha, hslotAt hb, hslot]

/-- Any spans in one slot are apart, whichever end of a span comes first, and the arrows of a frame
list are stacked in as many slots as there are references over its most crowded index. -/
theorem slots_apart_and_fewest :
    (∀ spans : List IndexSpan, (assignSlots spans).length = spans.length ∧
      ∀ (i j : Nat) (s t : IndexSpan), i ≠ j → spans[i]? = some s → spans[j]? = some t →
        (assignSlots spans)[i]? = (assignSlots spans)[j]? → s.stop < t.start ∨ t.stop < s.start) ∧
    ∀ (frames : List Frame) (g : ArrowGeometry α) (anchors : FrameAnchors α),
      IsStacked frames (compute frames g anchors) := by
  constructor
  · intro spans
    refine ⟨length_assignSlots spans, ?_⟩
    intro i j s t hne hs ht hsame
    exact apart_of_assignSlots_eq hne hs ht hsame
  · intro frames g anchors
    refine ⟨?apart, ?used, ?fewest⟩
    case apart =>
      intro i j a b hne ha hb p hpa hpb hslot
      have hspans := apart_compute frames g anchors hne ha hb hslot
      rw [IsOver, ← IndexSpan.contains_between] at hpa hpb
      exact hspans.not_contains hpa hpb
    case used =>
      intro n
      rw [lt_slotCount_iff, ← map_compute_slots frames g anchors, List.mem_map]
    case fewest =>
      obtain ⟨p, hp⟩ := exists_slotCount_le_coverage frames g anchors
      refine ⟨⟨p, ?_⟩, ?_⟩
      · exact Nat.le_antisymm (coverage_le_slotCount frames g anchors p) hp
      · rintro _ ⟨q, rfl⟩
        exact coverage_le_slotCount frames g anchors q

end ArrowLayout

end FrameAtlas
