import FrameAtlas.Proofs.Arrow.Anchors
import FrameAtlas.Proofs.Scalar.Exact
import Mathlib.Tactic.Ring

namespace FrameAtlas

variable {α : Type}

def distance? (low high : UInt32) : Option UInt32 := if low ≤ high then some (high - low) else none

/-- Between indices in order the distance does not wrap around. -/
theorem distance?_of_le {low high : UInt32} (h : low ≤ high) : distance? low high = some (high - low) := if_pos h

namespace ArrowGeometry

variable {g : ArrowGeometry Rat} {low high : UInt32}

/-- Pitches counted up from a nominal anchor lead to the nominal anchor of the higher index. -/
theorem anchorX_add (h : low ≤ high) :
    g.anchorX low + ((high.toNat - low.toNat : Nat) : Rat) * g.framePitch = g.anchorX high := by
  have hdistance : ((high.toNat - low.toNat : Nat) : Rat) = high.toNat - low.toNat :=
    Nat.cast_sub (UInt32.le_iff_toNat_le.1 h)
  rw [hdistance]
  show (low.toNat : Rat) * g.framePitch + g.framePitch / (2 : Nat) + (high.toNat - low.toNat) * g.framePitch =
    high.toNat * g.framePitch + g.framePitch / (2 : Nat)
  ring

/-- Pitches counted down from a nominal anchor lead to the nominal anchor of the lower index. -/
theorem anchorX_sub (h : low ≤ high) :
    g.anchorX high - ((high.toNat - low.toNat : Nat) : Rat) * g.framePitch = g.anchorX low := by
  rw [← anchorX_add h, add_sub_cancel_right]

end ArrowGeometry

namespace FrameAnchors

variable [Scalar α]

def x? (a : FrameAnchors α) (index : UInt32) (g : ArrowGeometry α) : Option α :=
  match a.centers.get? index with
  | some x => some x
  | none => match a.centers.below? index, a.centers.above? index with
    | some (known, x), _ => (distance? known index).map fun d => x + (d.toNat : α) * g.framePitch
    | none, some (known, x) => (distance? index known).map fun d => x - (d.toNat : α) * g.framePitch
    | none, none => some (g.anchorX index)

/-- No distance is ever taken the wrong way round when a frame is anchored. -/
theorem x?_eq (a : FrameAnchors α) (index : UInt32) (g : ArrowGeometry α) : a.x? index g = some (a.x index g) := by
  cases hget : a.centers.get? index with
  | some center => simp only [x?, x, hget]
  | none =>
    cases hbelow : a.centers.below? index with
    | some e =>
      obtain ⟨-, hlt, -⟩ := IndexMap.below?_eq_some hbelow
      simp only [x?, x, hget, hbelow, distance?_of_le (UInt32.le_of_lt hlt), Option.map_some]
    | none =>
      cases habove : a.centers.above? index with
      | some e =>
        obtain ⟨-, hle, -⟩ := IndexMap.above?_eq_some habove
        simp only [x?, x, hget, hbelow, habove, distance?_of_le hle, Option.map_some]
      | none => simp only [x?, x, hget, hbelow, habove]

/-- Where the centers are nominal, so are all anchors. -/
theorem x_ofCenters_of_nominal {g : ArrowGeometry Rat} {centers : List (UInt32 × Rat)}
    (h : ∀ c ∈ centers, c.2 = g.anchorX c.1) (index : UInt32) :
    (ofCenters centers).x index g = g.anchorX index := by
  have hknown : ∀ {known x}, (ofCenters centers).centers.get? known = some x → x = g.anchorX known :=
    fun hget => h _ (IndexMap.mem_of_get?_ofFirst hget)
  by_cases hlisted : index ∈ centers.map (·.1)
  · obtain ⟨x, hx⟩ := Option.isSome_iff_exists.1 ((isSome_get?_ofCenters centers index).2 hlisted)
    rw [x_of_get?_eq_some hx, hknown hx]
  · by_cases hbelow : ∃ i ∈ centers.map (·.1), i < index
    · obtain ⟨known, x, ⟨-, hlt, -⟩, hget, hx⟩ := x_ofCenters_of_below hlisted hbelow g
      rw [hx, hknown hget]
      exact ArrowGeometry.anchorX_add (UInt32.le_of_lt hlt)
    · by_cases hempty : centers = []
      · rw [hempty]
        rfl
      · have hnone : ∀ i ∈ centers.map (·.1), ¬ i < index := fun i hi hlt => hbelow ⟨i, hi, hlt⟩
        obtain ⟨known, x, ⟨-, hlt, -⟩, hget, hx⟩ := x_ofCenters_of_above hlisted hempty hnone g
        rw [hx, hknown hget]
        exact ArrowGeometry.anchorX_sub (UInt32.le_of_lt hlt)

end FrameAnchors

namespace ArrowLayout

variable [Scalar α]

/-- A layout takes nothing from its anchors but where they hang frames. -/
theorem compute_congr {g : ArrowGeometry α} {anchors other : FrameAnchors α}
    (h : ∀ index, anchors.x index g = other.x index g) (frames : List Frame) :
    compute frames g anchors = compute frames g other := by
  have hedge : Arrow.ofEdge g anchors = Arrow.ofEdge g other := by
    funext levels e slot
    simp only [Arrow.ofEdge, h]
  have hreach : Arrow.extendRight g anchors = Arrow.extendRight g other := by
    funext reach a
    simp only [Arrow.extendRight, h]
  unfold compute
  rw [hedge, hreach]

/-- Centers at their nominal places change nothing: every index hangs where it hangs without them, and every layout
is the nominal one. Of any centers the first given for an index counts, and no distance is taken that lies below
zero. -/
theorem nominal_centers_change_nothing :
    (∀ (g : ArrowGeometry Rat) (centers : List (UInt32 × Rat)), (∀ c ∈ centers, c.2 = g.anchorX c.1) →
      (∀ index, (FrameAnchors.ofCenters centers).x index g = g.anchorX index) ∧
        ∀ frames, compute frames g (.ofCenters centers) = computeNominal frames g) ∧
    ∀ (g : ArrowGeometry α) (centers : List (UInt32 × α)),
      (∀ before index x rest, centers = before ++ (index, x) :: rest → (∀ c ∈ before, c.1 ≠ index) →
        (FrameAnchors.ofCenters centers).x index g = x) ∧
      ∀ index, (FrameAnchors.ofCenters centers).x? index g = some ((FrameAnchors.ofCenters centers).x index g) := by
  constructor
  · intro g centers hcenters
    have hx := FrameAnchors.x_ofCenters_of_nominal hcenters
    refine ⟨hx, ?_⟩
    intro frames
    apply compute_congr
    intro index
    rw [hx]
    rfl
  · intro g centers
    refine ⟨?_, fun index => FrameAnchors.x?_eq _ index g⟩
    rintro before index x rest rfl hfirst
    exact FrameAnchors.x_of_get?_eq_some (IndexMap.get?_ofFirst_append hfirst x rest) g

/-- Centers of the frames 2 and 5, the latter given twice, and indices on all sides of them. -/
theorem nominal_centers_change_nothing_around_two :
    let g : ArrowGeometry Rat := .default
    let centers : List (UInt32 × Rat) := [(5, 132), (2, 60), (5, 132)]
    let anchors := FrameAnchors.ofCenters centers
    let moved := FrameAnchors.ofCenters [(5, 7), (2, 60), (5, 132)]
    ((∀ c ∈ centers, c.2 = g.anchorX c.1) ∧
        [0, 2, 3, 4294967295].map (anchors.x · g) = ([12, 60, 84, 103079215092] : List Rat)) ∧
      moved.x 5 g = 7 ∧ moved.x? 0 g = some (moved.x 0 g) := by
  intro g centers anchors moved
  have hcenters : ∀ c ∈ centers, c.2 = g.anchorX c.1 := by decide +kernel
  obtain ⟨hnominal, hany⟩ := nominal_centers_change_nothing (α := Rat)
  have hx := (hnominal g centers hcenters).1
  have hanchors : [0, 2, 3, 4294967295].map g.anchorX = ([12, 60, 84, 103079215092] : List Rat) := by decide +kernel
  refine ⟨⟨hcenters, ?_⟩, ?_, ?_⟩
  · rw [← hanchors]
    exact List.map_congr_left fun index _ => hx index
  · exact (hany g _).1 [] 5 7 [(2, 60), (5, 132)] rfl fun c hc => absurd hc List.not_mem_nil
  · exact (hany g _).2 0

end ArrowLayout

end FrameAtlas
