import FrameAtlas.Surface.Filmstrip

namespace FrameAtlas

namespace CheckedCount

def product? (a b : Nat) : Option Nat := if a * b < UInt64.size then some (a * b) else none

def difference? (a b : Nat) : Option Nat := if b ≤ a then some (a - b) else none

def quotient? (a b : Nat) : Option Nat := if b = 0 then none else some (a / b)

def clamp? (low high x : Nat) : Option Nat := if low ≤ high then some (min (max x low) high) else none

variable {a b low high : Nat}

/-- A product that fits a word does not overflow. -/
theorem product?_of_lt (h : a * b < UInt64.size) : product? a b = some (a * b) := if_pos h

/-- A difference of counts in order does not wrap around. -/
theorem difference?_of_le (h : b ≤ a) : difference? a b = some (a - b) := if_pos h

theorem quotient?_of_pos (h : 0 < b) (a : Nat) : quotient? a b = some (a / b) := if_neg (Nat.ne_of_gt h)

theorem clamp?_of_le (h : low ≤ high) (x : Nat) : clamp? low high x = some (min (max x low) high) := if_pos h

end CheckedCount

namespace PositionRange

def length (r : PositionRange) : Nat := r.stop - r.start

def Contains (r : PositionRange) (position : Nat) : Prop := r.start ≤ position ∧ position < r.stop

instance (r : PositionRange) (position : Nat) : Decidable (r.Contains position) :=
  inferInstanceAs (Decidable (_ ∧ _))

end PositionRange

open CheckedCount

namespace Minimap

variable {α : Type} [Scalar α]

def slice? (frames : List Frame) (r : PositionRange) : Option (List Frame) :=
  if r.start ≤ r.stop ∧ r.stop ≤ frames.length then some (slice frames r) else none

theorem length_slice {frames : List Frame} {r : PositionRange} (h : r.stop ≤ frames.length) :
    (slice frames r).length = r.length := by
  rw [slice, List.length_take, List.length_drop, PositionRange.length]
  exact Nat.min_eq_left (Nat.sub_le_sub_right h r.start)

theorem getElem?_slice (frames : List Frame) {r : PositionRange} {place : Nat} (h : place < r.length) :
    (slice frames r)[place]? = frames[r.start + place]? := by
  have hplace : place < r.stop - r.start := h
  rw [slice, List.getElem?_take_of_lt hplace, List.getElem?_drop]

def columnCount? (width : α) (count : Nat) : Option Nat :=
  clamp? 1 count (Scalar.toNat (Scalar.floor (width / (columnWidth : α))))

def bucket? (count columns column : Nat) : Option PositionRange := do
  let start ← quotient? (← product? column count) columns
  let stop ← quotient? (← product? (column + 1) count) columns
  return ⟨start, stop⟩

def column? (frames : List Frame) (columns column : Nat) : Option (List Frame) := do
  slice? frames (← bucket? frames.length columns column)

def shown? (count : Nat) (visible : PositionRange) : Option PositionRange := do
  let start := min visible.start count
  let stop ← clamp? start count visible.stop
  return ⟨start, stop⟩

end Minimap

namespace Filmstrip

def window? (count capacity : Nat) (current : Option Nat) : Option PositionRange :=
  if count = 0 ∨ capacity = 0 then some ⟨0, 0⟩
  else do
    let size := min capacity count
    let center := (current.filter fun c => c < count).getD 0
    let start := min (center - size / 2) (← difference? count size)
    return ⟨start, start + size⟩

end Filmstrip

end FrameAtlas
