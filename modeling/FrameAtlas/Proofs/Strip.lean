import FrameAtlas.Strip

namespace FrameAtlas.Strip

variable {α : Type} [Scalar α]

theorem length_weights (frames : List Frame) (sizing : StripSizing) :
    (weights frames sizing : List α).length = frames.length := by
  cases sizing with
  | uniform => exact List.length_map _
  | bySize => exact List.length_map _

theorem length_tile (y h x : α) (widths : List α) : (tile y h x widths).length = widths.length := by
  induction widths generalizing x with
  | nil => rfl
  | cons w rest ih =>
    rw [tile, List.length_cons, List.length_cons, ih]

/-- The elements have the widths that they are laid out with. -/
theorem map_w_tile (y h x : α) (widths : List α) : (tile y h x widths).map Rect.w = widths := by
  induction widths generalizing x with
  | nil => rfl
  | cons w rest ih => rw [tile, List.map_cons, ih]

theorem length_elements_compute (frames : List Frame) (v : Viewport α) (sizing : StripSizing) :
    (compute frames v sizing).elements.length = frames.length := by
  rw [compute]
  simp only
  rw [length_tile, List.length_map, length_weights]

end FrameAtlas.Strip
