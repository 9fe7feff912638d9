import FrameAtlas.Arrow.Layout
import FrameAtlas.Proofs.Arrow.Slots
import Mathlib.Data.List.Basic

namespace FrameAtlas

variable {α : Type}

def references (frames : List Frame) : List (UInt32 × UInt32) :=
  frames.flatMap fun f => f.refs.map fun target => (f.index, target)

theorem edgesFrom_map_pair (source : UInt32) (past future : Nat) (targets : List UInt32) :
    (edgesFrom source past future targets).map (fun e => (e.source, e.target)) =
      targets.map fun target => (source, target) := by
  induction targets generalizing past future with
  | nil => rfl
  | cons target rest ih =>
    unfold edgesFrom
    split
    · rw [List.map_cons, List.map_cons, ih]
    · rw [List.map_cons, List.map_cons, ih]

/-- Edges are the references of the list, in order, with labels beside them. -/
theorem edges_map_pair (frames : List Frame) :
    (edges frames).map (fun e => (e.source, e.target)) = references frames := by
  rw [edges, List.map_flatMap, references]
  apply List.flatMap_congr
  intro f _
  exact edgesFrom_map_pair f.index 0 0 f.refs

theorem edges_map_span (frames : List Frame) :
    (edges frames).map Edge.span = (references frames).map fun r => IndexSpan.between r.1 r.2 := by
  rw [← edges_map_pair, List.map_map]
  rfl

/-- A reference is one that a frame of the list names. -/
theorem mem_references (frames : List Frame) (source target : UInt32) :
    (source, target) ∈ references frames ↔ ∃ f ∈ frames, f.index = source ∧ target ∈ f.refs := by
  simp only [references, List.mem_flatMap, List.mem_map, Prod.mk.injEq]
  constructor
  · rintro ⟨f, hf, t, ht, hsource, rfl⟩
    exact ⟨f, hf, hsource, ht⟩
  · rintro ⟨f, hf, hsource, ht⟩
    exact ⟨f, hf, target, ht, hsource, rfl⟩

def edgeSlots (frames : List Frame) : List Nat := assignSlots ((edges frames).map Edge.span)

/-- There is a slot for every edge. -/
theorem length_edgeSlots (frames : List Frame) : (edgeSlots frames).length = (edges frames).length := by
  rw [edgeSlots, length_assignSlots, List.length_map]

namespace ArrowLayout

variable [Scalar α]

/-- A list without references is no special case for the arrows and the slots. -/
theorem compute_arrows (frames : List Frame) (g : ArrowGeometry α) (anchors : FrameAnchors α) :
    (compute frames g anchors).arrows = ((edges frames).zip (edgeSlots frames)).map
      fun e => Arrow.ofEdge g anchors (levelsByIndex frames) e.1 e.2 := by
  rw [List.map_zip_eq_zipWith]
  unfold compute
  simp only
  split
  · rename_i h
    rw [List.isEmpty_iff.1 h]
    rfl
  · rfl

theorem compute_slotCount (frames : List Frame) (g : ArrowGeometry α) (anchors : FrameAnchors α) :
    (compute frames g anchors).slotCount =
      (edgeSlots frames).foldl (fun n slot => max n (slot + 1)) 0 := by
  unfold compute
  simp only
  split
  · rename_i h
    have hslots : edgeSlots frames = [] := by
      rw [edgeSlots, List.isEmpty_iff.1 h]
      rfl
    rw [hslots]
    rfl
  · rfl

/-- Every arrow comes from an edge and a slot. -/
theorem mem_compute_arrows {frames : List Frame} {g : ArrowGeometry α} {anchors : FrameAnchors α}
    {a : Arrow α} (h : a ∈ (compute frames g anchors).arrows) :
    ∃ e ∈ edges frames, ∃ slot, a = Arrow.ofEdge g anchors (levelsByIndex frames) e slot := by
  rw [compute_arrows] at h
  obtain ⟨e, he, rfl⟩ := List.mem_map.1 h
  exact ⟨e.1, (List.of_mem_zip he).1, e.2, rfl⟩

theorem map_compute_arrows {β : Type} {p : Arrow α → β} {q : Edge → β} (frames : List Frame)
    (g : ArrowGeometry α) (anchors : FrameAnchors α)
    (h : ∀ e slot, p (Arrow.ofEdge g anchors (levelsByIndex frames) e slot) = q e) :
    (compute frames g anchors).arrows.map p = (edges frames).map q := by
  have hedges : ((edges frames).zip (edgeSlots frames)).map (·.1) = edges frames :=
    List.map_fst_zip (Nat.le_of_eq (length_edgeSlots frames).symm)
  calc
    (compute frames g anchors).arrows.map p =
        ((edges frames).zip (edgeSlots frames)).map fun e => q e.1 := by
      rw [compute_arrows, List.map_map]
      apply List.map_congr_left
      intro e _
      exact h e.1 e.2
    _ = (((edges frames).zip (edgeSlots frames)).map (·.1)).map q := by
      rw [List.map_map]
      rfl
    _ = (edges frames).map q := by rw [hedges]

/-- Arrows keep the slots that their edges were given, in order. -/
theorem map_compute_slots (frames : List Frame) (g : ArrowGeometry α) (anchors : FrameAnchors α) :
    (compute frames g anchors).arrows.map Arrow.slot = edgeSlots frames := by
  have hslots : ((edges frames).zip (edgeSlots frames)).map (·.2) = edgeSlots frames :=
    List.map_snd_zip (Nat.le_of_eq (length_edgeSlots frames))
  rw [compute_arrows, List.map_map]
  exact hslots

/-- The arrows of a list are its references, in order. -/
theorem compute_arrows_map_pair (frames : List Frame) (g : ArrowGeometry α) (anchors : FrameAnchors α) :
    (compute frames g anchors).arrows.map (fun a => (a.source, a.target)) = references frames := by
  rw [← edges_map_pair]
  exact map_compute_arrows frames g anchors fun _ _ => rfl

end ArrowLayout

end FrameAtlas
