import FrameAtlas.Proofs.Arrow.Edges
import Mathlib.Data.List.Nodup

namespace FrameAtlas

variable {α : Type}

def isAhead (source target : UInt32) : Bool := decide (source < target)

theorem isAhead_beq_true (source target : UInt32) : (isAhead source target == true) = decide (source < target) :=
  beq_true _

theorem isAhead_beq_false (source target : UInt32) : (isAhead source target == false) = decide (target ≤ source) := by
  rw [beq_false, isAhead, ← decide_not]
  exact decide_eq_decide.2 UInt32.not_lt

section Labels

theorem edgeLabel_past (rank : Nat) : edgeLabel 0 rank = "L0[" ++ toString rank ++ "]" := by
  have hlist : "L" ++ toString 0 ++ "[" = "L0[" := by decide
  rw [edgeLabel, hlist]

theorem edgeLabel_ahead (rank : Nat) : edgeLabel 1 rank = "L1[" ++ toString rank ++ "]" := by
  have hlist : "L" ++ toString 1 ++ "[" = "L1[" := by decide
  rw [edgeLabel, hlist]

/-- Labels of one side are told apart by their ranks. -/
theorem edgeLabel_injective (side : Nat) : Function.Injective (edgeLabel side) := by
  intro rank other h
  rw [edgeLabel, edgeLabel, String.append_left_inj, String.append_right_inj] at h
  have hdigits : decimalDigits rank = decimalDigits other :=
    calc
      decimalDigits rank = (toString rank).toList := Nat.toList_repr.symm
      _ = (toString other).toList := by rw [h]
      _ = decimalDigits other := Nat.toList_repr
  rw [← digitsValue_decimalDigits rank, hdigits, digitsValue_decimalDigits]

/-- The lists are told apart by the second character of a label. -/
theorem edgeLabel_past_ne_ahead (rank other : Nat) : edgeLabel 0 rank ≠ edgeLabel 1 other := by
  intro h
  rw [edgeLabel_past, edgeLabel_ahead] at h
  have hsecond := congrArg (fun s => s.toList[1]?) h
  simp at hsecond

end Labels

section Edges

def counted (source target : UInt32) (counts : Bool → Nat) : Bool → Nat := fun ahead =>
  counts ahead + if isAhead source target == ahead then 1 else 0

theorem edgesFrom_cons (source target : UInt32) (counts : Bool → Nat) (rest : List UInt32) :
    edgesFrom source (counts false) (counts true) (target :: rest) =
      ⟨source, target, edgeLabel (isAhead source target).toNat (counts (isAhead source target))⟩ ::
        edgesFrom source (counted source target counts false) (counted source target counts true) rest := by
  rw [edgesFrom, counted, counted]
  split
  · rename_i hle
    have hside : isAhead source target = false := decide_eq_false (UInt32.not_lt.2 hle)
    rw [hside]
    rfl
  · rename_i hlt
    have hside : isAhead source target = true := decide_eq_true (UInt32.not_le.1 hlt)
    rw [hside]
    rfl

/-- A reference is labelled by its list and by the number of earlier references in that list. -/
theorem edgesFrom_eq_mapIdx (source : UInt32) (counts : Bool → Nat) (targets : List UInt32) :
    edgesFrom source (counts false) (counts true) targets = targets.mapIdx fun k target =>
      ⟨source, target, edgeLabel (isAhead source target).toNat (counts (isAhead source target) +
        (targets.take k).countP fun t => isAhead source t == isAhead source target)⟩ := by
  induction targets generalizing counts with
  | nil => rfl
  | cons target rest ih =>
    rw [edgesFrom_cons, List.mapIdx_cons, ih]
    congr 1
    rw [List.mapIdx_eq_mapIdx_iff]
    intro k hk
    rw [List.take_succ_cons, List.countP_cons, counted, Nat.add_assoc, Nat.add_comm (List.countP _ _)]

example : (edgesFrom 4 0 0 [0, 8, 4, 2, 6]).map Edge.label = ["L0[0]", "L1[0]", "L0[1]", "L0[2]", "L1[1]"] := by
  decide

/-- In either list the ranks of the references run on without a gap. -/
theorem map_label_filter_edgesFrom (source : UInt32) (counts : Bool → Nat) (targets : List UInt32)
    (ahead : Bool) :
    ((edgesFrom source (counts false) (counts true) targets).filter fun e =>
        isAhead source e.target == ahead).map Edge.label =
      (List.range' (counts ahead) (targets.countP fun t => isAhead source t == ahead)).map
        (edgeLabel ahead.toNat) := by
  induction targets generalizing counts with
  | nil => rfl
  | cons target rest ih =>
    rw [edgesFrom_cons]
    by_cases hside : isAhead source target = ahead
    · have hcounted : counted source target counts ahead = counts ahead + 1 := by
        rw [counted, hside, beq_self_eq_true, if_pos rfl]
      rw [List.filter_cons_of_pos (by simpa using hside), List.map_cons, ih, hcounted,
        List.countP_cons_of_pos (by simpa using hside), List.range'_succ, List.map_cons, hside]
    · have hcounted : counted source target counts ahead = counts ahead := by
        rw [counted, beq_false_of_ne hside, if_neg Bool.false_ne_true, Nat.add_zero]
      rw [List.filter_cons_of_neg (by simpa using hside), ih, hcounted,
        List.countP_cons_of_neg (by simpa using hside)]

end Edges

/-- There is one edge for each reference. -/
theorem length_edges (frames : List Frame) : (edges frames).length = (references frames).length := by
  rw [← edges_map_pair, List.length_map]

theorem Frame.edges_map_pair (f : Frame) :
    f.edges.map (fun e => (e.source, e.target)) = f.refs.map fun target => (f.index, target) :=
  edgesFrom_map_pair f.index 0 0 f.refs

theorem Frame.length_edges (f : Frame) : f.edges.length = f.refs.length := by
  rw [← List.length_map (f := fun e : Edge => (e.source, e.target)), f.edges_map_pair, List.length_map]

/-- The arrows of one frame, in the order of its references, with their labels: past references and references
beyond the frame are numbered apart. -/
structure Frame.IsNumberedBy (f : Frame) (own : List (Arrow α)) : Prop where
  references : own.map (fun a => (a.source, a.target)) = f.refs.map fun target => (f.index, target)
  label : ∀ k a, own[k]? = some a → a.label =
    if a.target ≤ f.index then "L0[" ++ toString ((f.refs.take k).countP fun t => t ≤ f.index) ++ "]"
    else "L1[" ++ toString ((f.refs.take k).countP fun t => f.index < t) ++ "]"
  distinct : (own.map Arrow.label).Nodup
  past : (own.filter fun a => a.target ≤ f.index).map Arrow.label =
    (List.range (f.refs.countP fun t => t ≤ f.index)).map fun rank => "L0[" ++ toString rank ++ "]"
  ahead : (own.filter fun a => f.index < a.target).map Arrow.label =
    (List.range (f.refs.countP fun t => f.index < t)).map fun rank => "L1[" ++ toString rank ++ "]"

namespace ArrowLayout

def arrowsOf (l : ArrowLayout α) (before : List Frame) (f : Frame) : List (Arrow α) :=
  (l.arrows.drop (references before).length).take f.refs.length

variable [Scalar α] (before : List Frame) (f : Frame) (rest : List Frame) (g : ArrowGeometry α)
  (anchors : FrameAnchors α)

/-- What the arrows of a frame take from their edges alone does not depend on other frames. -/
theorem map_arrowsOf {β : Type} {p : Arrow α → β} {q : Edge → β}
    (h : ∀ levels e slot, p (Arrow.ofEdge g anchors levels e slot) = q e) :
    ((compute (before ++ f :: rest) g anchors).arrowsOf before f).map p = f.edges.map q := by
  have hedges : edges (before ++ f :: rest) = edges before ++ (f.edges ++ edges rest) := by
    rw [edges, List.flatMap_append, List.flatMap_cons]
    rfl
  rw [arrowsOf, List.map_take, List.map_drop, map_compute_arrows _ _ _ (h _), ← List.map_drop, ← List.map_take,
    hedges, ← length_edges, ← f.length_edges, List.drop_left, List.take_left]

theorem map_target_label_arrowsOf :
    ((compute (before ++ f :: rest) g anchors).arrowsOf before f).map (fun a => (a.target, a.label)) =
      f.edges.map fun e => (e.target, e.label) :=
  map_arrowsOf before f rest g anchors fun _ _ _ => rfl

theorem map_label_filter_arrowsOf (ahead : Bool) :
    (((compute (before ++ f :: rest) g anchors).arrowsOf before f).filter fun a =>
        isAhead f.index a.target == ahead).map Arrow.label =
      (List.range (f.refs.countP fun t => isAhead f.index t == ahead)).map (edgeLabel ahead.toNat) := by
  have hpairs := map_target_label_arrowsOf before f rest g anchors
  have hlabels := map_label_filter_edgesFrom f.index (fun _ => 0) f.refs ahead
  generalize (compute (before ++ f :: rest) g anchors).arrowsOf before f = own at hpairs
  calc
    (own.filter fun a => isAhead f.index a.target == ahead).map Arrow.label =
        ((own.map fun a => (a.target, a.label)).filter fun r => isAhead f.index r.1 == ahead).map (·.2) := by
      rw [List.filter_map, List.map_map]
      rfl
    _ = (f.edges.filter fun e => isAhead f.index e.target == ahead).map Edge.label := by
      rw [hpairs, List.filter_map, List.map_map]
      rfl
    _ = (List.range (f.refs.countP fun t => isAhead f.index t == ahead)).map (edgeLabel ahead.toNat) := by
      rw [List.range_eq_range']
      exact hlabels

/-- The rank in a label counts the earlier references of the frame that lie on the same side. -/
theorem label_of_mem_arrowsOf {k : Nat} {a : Arrow α}
    (ha : ((compute (before ++ f :: rest) g anchors).arrowsOf before f)[k]? = some a) :
    a.label = edgeLabel (isAhead f.index a.target).toNat
      ((f.refs.take k).countP fun t => isAhead f.index t == isAhead f.index a.target) := by
  have hpairs := map_target_label_arrowsOf before f rest g anchors
  have hpair := congrArg (·[k]?) hpairs
  simp only [List.getElem?_map, ha, Option.map_some] at hpair
  have hedge : f.edges[k]? = f.refs[k]?.map fun target => ⟨f.index, target, edgeLabel (isAhead f.index target).toNat
      (0 + (f.refs.take k).countP fun t => isAhead f.index t == isAhead f.index target)⟩ := by
    rw [Frame.edges, edgesFrom_eq_mapIdx f.index (fun _ => 0), List.getElem?_mapIdx]
  rw [hedge, Option.map_map, eq_comm, Option.map_eq_some_iff] at hpair
  obtain ⟨target, -, htarget⟩ := hpair
  simp only [Function.comp_apply, Nat.zero_add, Prod.mk.injEq] at htarget
  obtain ⟨rfl, hlabel⟩ := htarget
  exact hlabel.symm

/-- No two arrows of one frame have the same label. -/
theorem nodup_labels_arrowsOf :
    (((compute (before ++ f :: rest) g anchors).arrowsOf before f).map Arrow.label).Nodup := by
  have hlabels := map_label_filter_arrowsOf before f rest g anchors
  generalize (compute (before ++ f :: rest) g anchors).arrowsOf before f = own at hlabels
  have hperm := (List.filter_append_perm (fun a => isAhead f.index a.target == false) own).map Arrow.label
  have hrest : (fun a : Arrow α => !(isAhead f.index a.target == false)) =
      fun a => isAhead f.index a.target == true := by
    funext a
    cases isAhead f.index a.target <;> rfl
  rw [hrest, List.map_append, hlabels, hlabels] at hperm
  rw [← hperm.nodup_iff, List.nodup_append]
  refine ⟨List.nodup_range.map (edgeLabel_injective 0), List.nodup_range.map (edgeLabel_injective 1), ?_⟩
  intro label hpast other hahead
  obtain ⟨rank, -, rfl⟩ := List.mem_map.1 hpast
  obtain ⟨rank', -, rfl⟩ := List.mem_map.1 hahead
  exact edgeLabel_past_ne_ahead rank rank'

/-- Labels name list and rank. Of the arrows of a frame, those to indices up to its own are numbered from zero in
the one list, the others in the other list, both in the order of the references, so no label is given twice; and
the labels are the same in whatever company the frame is listed. -/
theorem labels_name_list_and_rank :
    f.IsNumberedBy ((compute (before ++ f :: rest) g anchors).arrowsOf before f) ∧
      ∀ (before' rest' : List Frame) (g' : ArrowGeometry α) (anchors' : FrameAnchors α),
        ((compute (before' ++ f :: rest') g' anchors').arrowsOf before' f).map Arrow.label =
          ((compute (before ++ f :: rest) g anchors).arrowsOf before f).map Arrow.label := by
  have hlabels := map_label_filter_arrowsOf before f rest g anchors
  refine ⟨⟨?references, ?label, ?distinct, ?past, ?ahead⟩, ?alone⟩
  case references =>
    rw [← f.edges_map_pair]
    exact map_arrowsOf before f rest g anchors fun _ _ _ => rfl
  case label =>
    intro k a ha
    rw [label_of_mem_arrowsOf before f rest g anchors ha]
    by_cases hside : a.target ≤ f.index
    · have hbehind : isAhead f.index a.target = false := decide_eq_false (UInt32.not_lt.2 hside)
      simp only [hbehind, isAhead_beq_false, if_pos hside]
      exact edgeLabel_past _
    · have hahead : isAhead f.index a.target = true := decide_eq_true (UInt32.not_le.1 hside)
      simp only [hahead, isAhead_beq_true, if_neg hside]
      exact edgeLabel_ahead _
  case distinct => exact nodup_labels_arrowsOf before f rest g anchors
  case past =>
    have hpast := hlabels false
    simp only [isAhead_beq_false] at hpast
    rw [hpast]
    exact List.map_congr_left fun rank _ => edgeLabel_past rank
  case ahead =>
    have hahead := hlabels true
    simp only [isAhead_beq_true] at hahead
    rw [hahead]
    exact List.map_congr_left fun rank _ => edgeLabel_ahead rank
  case alone =>
    intro before' rest' g' anchors'
    rw [map_arrowsOf before' f rest' g' anchors' (q := Edge.label) fun _ _ _ => rfl,
      map_arrowsOf before f rest g anchors (q := Edge.label) fun _ _ _ => rfl]

end ArrowLayout

end FrameAtlas
