import FrameAtlas.Terminal.Raster

namespace FrameAtlas.Terminal.Screen

def IsWhole (s : Screen) : Prop := s.cells.size = s.width * s.height

/-- Whether a write is for a cell of the screen, in a column and a row that have numbers. -/
def Holds (s : Screen) (w : CellWrite) : Prop :=
  (w.column ≤ Raster.maxCell ∧ w.row ≤ Raster.maxCell) ∧ (w.column < s.width ∧ w.row < s.height) ∧
    w.row * s.width + w.column < s.cells.size

instance (s : Screen) (w : CellWrite) : Decidable (s.Holds w) := inferInstanceAs (Decidable (_ ∧ _))

def put? (s : Screen) (w : CellWrite) : Option Screen := if s.Holds w then some (s.put w) else none

def putAll? (s : Screen) (writes : List CellWrite) : Option Screen := writes.foldlM put? s

@[simp] theorem width_put (s : Screen) (w : CellWrite) : (s.put w).width = s.width := by
  unfold put
  split
  · rfl
  · rfl

@[simp] theorem height_put (s : Screen) (w : CellWrite) : (s.put w).height = s.height := by
  unfold put
  split
  · rfl
  · rfl

@[simp] theorem size_cells_put (s : Screen) (w : CellWrite) : (s.put w).cells.size = s.cells.size := by
  unfold put
  split
  · exact Array.size_modify
  · rfl

theorem putAll_cons (s : Screen) (w : CellWrite) (rest : List CellWrite) :
    s.putAll (w :: rest) = (s.put w).putAll rest := rfl

/-- Writing changes neither the size of a screen nor the number of its cells. -/
theorem size_putAll (s : Screen) (writes : List CellWrite) :
    (s.putAll writes).width = s.width ∧ (s.putAll writes).height = s.height ∧
      (s.putAll writes).cells.size = s.cells.size := by
  induction writes generalizing s with
  | nil => exact ⟨rfl, rfl, rfl⟩
  | cons w rest ih =>
    obtain ⟨hwidth, hheight, hcells⟩ := ih (s.put w)
    rw [width_put] at hwidth
    rw [height_put] at hheight
    rw [size_cells_put] at hcells
    exact ⟨hwidth, hheight, hcells⟩

/-- Cells of different rows or columns stand at different places. -/
theorem eq_of_place_eq {width column other row otherRow : Nat} (hcolumn : column < width) (hother : other < width)
    (h : row * width + column = otherRow * width + other) : column = other ∧ row = otherRow := by
  have hwidth : 0 < width := Nat.zero_lt_of_lt hcolumn
  have hplace : ∀ {a b : Nat}, b < width → (a * width + b) / width = a ∧ (a * width + b) % width = b := by
    intro a b hb
    rw [Nat.mul_comm, Nat.mul_add_div hwidth, Nat.mul_add_mod, Nat.div_eq_of_lt hb, Nat.mod_eq_of_lt hb]
    exact ⟨rfl, rfl⟩
  obtain ⟨hdiv, hmod⟩ := hplace (a := row) hcolumn
  obtain ⟨hdivOther, hmodOther⟩ := hplace (a := otherRow) hother
  rw [h] at hdiv hmod
  exact ⟨hmod.symm.trans hmodOther, hdiv.symm.trans hdivOther⟩

/-- A write changes no cell but its own. -/
theorem get?_put_of_ne {s : Screen} {w : CellWrite} {column row : Nat} (h : ¬ (w.column = column ∧ w.row = row)) :
    (s.put w).get? column row = s.get? column row := by
  unfold put
  split
  · rename_i hwritten
    unfold get?
    simp only
    split
    · rename_i hcolumn
      rw [Array.getElem?_modify, if_neg fun hplace => h (eq_of_place_eq hwritten hcolumn hplace)]
    · rfl
  · rfl

theorem get?_putAll_of_ne {s : Screen} {writes : List CellWrite} {column row : Nat}
    (h : ∀ w ∈ writes, ¬ (w.column = column ∧ w.row = row)) :
    (s.putAll writes).get? column row = s.get? column row := by
  induction writes generalizing s with
  | nil => rfl
  | cons w rest ih =>
    rw [putAll_cons, ih fun v hv => h v (List.mem_cons_of_mem w hv), get?_put_of_ne (h w List.mem_cons_self)]

theorem holds_put {s : Screen} {v w : CellWrite} : (s.put v).Holds w ↔ s.Holds w := by
  rw [Holds, Holds, width_put, height_put, size_cells_put]

/-- Writes that all stay on the screen do not fail. -/
theorem putAll?_eq {s : Screen} {writes : List CellWrite} (h : ∀ w ∈ writes, s.Holds w) :
    s.putAll? writes = some (s.putAll writes) := by
  induction writes generalizing s with
  | nil => rfl
  | cons w rest ih =>
    have hput : s.put? w = some (s.put w) := if_pos (h w List.mem_cons_self)
    have hrest : (s.put w).putAll? rest = some ((s.put w).putAll rest) :=
      ih fun v hv => holds_put.2 (h v (List.mem_cons_of_mem w hv))
    rw [putAll?, List.foldlM_cons, hput]
    exact hrest

/-- On a whole screen every numbered cell in range can be written. -/
theorem IsWhole.holds {s : Screen} (hs : s.IsWhole) {w : CellWrite}
    (hnumbered : w.column ≤ Raster.maxCell ∧ w.row ≤ Raster.maxCell) (hcolumn : w.column < s.width)
    (hrow : w.row < s.height) : s.Holds w := by
  refine ⟨hnumbered, ⟨hcolumn, hrow⟩, ?_⟩
  rw [hs]
  calc w.row * s.width + w.column < w.row * s.width + s.width := Nat.add_lt_add_left hcolumn _
    _ = (w.row + 1) * s.width := (Nat.succ_mul _ _).symm
    _ ≤ s.height * s.width := Nat.mul_le_mul_right _ hrow
    _ = s.width * s.height := Nat.mul_comm _ _

theorem isWhole_empty (width height : Nat) : (empty width height).IsWhole := Array.size_replicate

end FrameAtlas.Terminal.Screen
