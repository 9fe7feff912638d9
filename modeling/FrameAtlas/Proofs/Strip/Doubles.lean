import FrameAtlas.Proofs.Scalar.Double.Counts
import FrameAtlas.Proofs.Strip

namespace FrameAtlas.Strip

open Double

def weightBits : Nat := 120

theorem isWithin_one : IsWithin ((1 : Nat) : Float) (weightBits + unitBits) :=
  isWithin_natCast Nat.one_le_two_pow (by decide)

theorem isWithin_sizeOf? {f : Frame} {x : Float} (h : sizeOf? f = some x) : IsWithin x (64 + unitBits) := by
  obtain ⟨size, -, rfl⟩ := Option.map_eq_some_iff.1 h
  exact isWithin_natCast (Nat.le_of_lt size.toNat_lt) (by decide)

theorem isWithin_meanSize {known : List Float} (h : ∀ x ∈ known, IsWithin x (64 + unitBits)) :
    IsWithin (meanSize known) (weightBits + unitBits) := by
  unfold meanSize
  split
  · exact isWithin_one
  · rename_i hsome
    have hlength : 0 < known.length := by
      cases known with
      | nil => exact absurd rfl hsome
      | cons x rest => exact Nat.succ_pos _
    have hsum : IsWithin (Scalar.sum known) (64 + unitBits + 54) :=
      (IsWithin.foldl_add (by decide) h (isWithin_of_zero rfl _)).1
    have hmean := hsum.div (by decide) (by decide) (isOneOrMore_natCast hlength)
    exact hmean.mono (by decide)

/-- Weights are positive, and bounded far below where doubles overflow. -/
theorem isWithin_weights (frames : List Frame) (sizing : StripSizing) :
    ∀ w ∈ (weights frames sizing : List Float), IsWithin w (weightBits + unitBits) ∧ IsPositive w := by
  intro w hw
  cases sizing with
  | uniform =>
    obtain ⟨f, -, rfl⟩ := List.mem_map.1 hw
    exact ⟨isWithin_one, isPositive_one⟩
  | bySize =>
    obtain ⟨f, -, rfl⟩ := List.mem_map.1 hw
    have hmean : IsWithin (meanSize (frames.filterMap sizeOf?) : Float) (weightBits + unitBits) := by
      apply isWithin_meanSize
      intro x hx
      obtain ⟨g, -, hg⟩ := List.mem_filterMap.1 hx
      exact isWithin_sizeOf? hg
    have hchosen : IsWithin ((sizeOf? f).getD (meanSize (frames.filterMap sizeOf?)) : Float)
        (weightBits + unitBits) := by
      cases hsize : (sizeOf? f : Option Float) with
      | none => exact hmean
      | some x => exact (isWithin_sizeOf? hsize).mono (by decide)
    exact ⟨hchosen.larger isWithin_one, hchosen.nonneg.isPositive_larger (hchosen.size.imp fun _ hn => hn.1)⟩

/-- The sum of the weights of a list is positive, so it can be divided by. -/
theorem isPositive_sum_weights {frames : List Frame} (h : frames ≠ []) (sizing : StripSizing) :
    IsPositive (Scalar.sum (weights frames sizing : List Float)) := by
  have hweights := isWithin_weights frames sizing
  have hne : (weights frames sizing : List Float) ≠ [] := by
    cases sizing with
    | uniform => simpa [weights] using h
    | bySize => simpa [weights] using h
  obtain ⟨w, hw⟩ := List.exists_mem_of_ne_nil _ hne
  have hsum := IsWithin.foldl_add (by decide) (fun w hw => (hweights w hw).1)
    (isWithin_of_zero (x := ((0 : Nat) : Float)) rfl _)
  exact hsum.2 (.inr ⟨w, hw, (hweights w hw).2⟩)

theorem isNonneg_elementWidth {spare total weight : Float} (hspare : IsNonneg spare) (htotal : IsPositive total)
    (hweight : IsPositive weight) : IsNonneg (elementWidth spare total weight) :=
  (isNonneg_natCast minElementWidth).add ((hspare.mul hweight).div htotal)

theorem isPositive_two : IsPositive ((2 : Nat) : Float) := ⟨2 ^ 52, exponentAt 1023, by decide, rfl⟩

/-- Cells that are laid out to the right of a number in range have defined centers. -/
theorem isBoundedBelow_centerX_tile {y h : Float} {widths : List Float} (hwidths : ∀ w ∈ widths, IsNonneg w)
    {x : Float} (hx : IsBoundedBelow x) : ∀ r ∈ tile y h x widths, IsBoundedBelow r.centerX := by
  induction widths generalizing x with
  | nil =>
    intro r hr
    exact absurd hr List.not_mem_nil
  | cons w rest ih =>
    have hw := hwidths w List.mem_cons_self
    intro r hr
    rcases List.mem_cons.1 hr with rfl | hr
    · exact hx.add (hw.div isPositive_two)
    · exact ih (fun w hw => hwidths w (List.mem_cons_of_mem _ hw)) (hx.add hw) r hr

/-- No cell has a width below zero, in whatever viewport. -/
theorem isNonneg_w_compute (frames : List Frame) (v : Viewport Float) (sizing : StripSizing) :
    ∀ w ∈ (compute frames v sizing).elements.map Rect.w, IsNonneg w := by
  intro w hw
  rw [compute, map_w_tile] at hw
  obtain ⟨weight, hweight, rfl⟩ := List.mem_map.1 hw
  have hsome : frames ≠ [] := by
    rintro rfl
    cases sizing <;> exact absurd hweight List.not_mem_nil
  exact isNonneg_elementWidth (isNonneg_positivePart _) (isPositive_sum_weights hsome sizing)
    (isWithin_weights frames sizing weight hweight).2

/-- No center of a strip in a finite viewport is undefined. -/
theorem isBoundedBelow_centerX_compute (frames : List Frame) {v : Viewport Float} (hx : v.x.isFinite = true)
    (sizing : StripSizing) : ∀ r ∈ (compute frames v sizing).elements, IsBoundedBelow r.centerX := by
  apply isBoundedBelow_centerX_tile
  · intro w hw
    apply isNonneg_w_compute frames v sizing
    rwa [compute, map_w_tile]
  · exact isBoundedBelow_of_isFinite hx

end FrameAtlas.Strip
