import FrameAtlas.Cursor

namespace FrameAtlas

theorem SelectionStore.current_commit (store : SelectionStore) (position : Nat) :
    (store.commit position).1.current = some position := by
  rw [commit_eq]

namespace Cursor

variable {α : Type}

theorem highlighted_highlight (c : Cursor α) (position : Nat) :
    (c.highlight position).highlighted = position := by
  unfold highlight
  split
  · rename_i h
    exact h.symm
  · rfl

/-- Outside a drag the cursor stands where the selection is. -/
theorem highlighted_syncFrom {c : Cursor α} {store : SelectionStore} {position : Nat}
    (hc : c.drag = none) (hs : store.current = some position) :
    (c.syncFrom store).highlighted = position := by
  have hdrag : c.isDragging = false := by rw [isDragging, hc]; rfl
  simp only [syncFrom, hs, hdrag]
  exact highlighted_highlight c position

/-- What an input may do to a cursor: where the measurement is not to be taken again, it stands as it
stood and for the same position. -/
structure Keeps (c d : Cursor α) : Prop where
  frameCount : d.frameCount = c.frameCount
  measured : d.dirty = false →
    c.dirty = false ∧ d.highlighted = c.highlighted ∧ d.measuredX = c.measuredX

theorem Keeps.refl (c : Cursor α) : c.Keeps c := ⟨rfl, fun h => ⟨h, rfl, rfl⟩⟩

/-- What two inputs keep one after the other is kept by both together. -/
theorem Keeps.trans {c d e : Cursor α} (hcd : c.Keeps d) (hde : d.Keeps e) : c.Keeps e := by
  refine ⟨hde.frameCount.trans hcd.frameCount, ?_⟩
  intro he
  obtain ⟨hd, hdh, hdx⟩ := hde.measured he
  obtain ⟨hc, hch, hcx⟩ := hcd.measured hd
  exact ⟨hc, hdh.trans hch, hdx.trans hcx⟩

theorem Keeps.of_dirty {c d : Cursor α} (hf : d.frameCount = c.frameCount) (hd : d.dirty = true) :
    c.Keeps d := by
  refine ⟨hf, ?_⟩
  intro h
  rw [hd] at h
  contradiction

theorem keeps_highlight (c : Cursor α) (position : Nat) : c.Keeps (c.highlight position) := by
  unfold highlight
  split
  · exact Keeps.refl c
  · exact Keeps.of_dirty rfl rfl

/-- Whether a drag is open has no part in the measurement. -/
theorem keeps_drag (c : Cursor α) (drag : Option Nat) : c.Keeps { c with drag := drag } :=
  ⟨rfl, fun h => ⟨h, rfl, rfl⟩⟩

theorem keeps_syncFrom (c : Cursor α) (store : SelectionStore) : c.Keeps (c.syncFrom store) := by
  unfold syncFrom
  split
  · split
    · exact Keeps.refl c
    · exact keeps_highlight c _
  · exact Keeps.refl c

theorem keeps_pointerUp (c : Cursor α) (store : SelectionStore) :
    c.Keeps (c.pointerUp store).cursor := by
  unfold pointerUp
  split
  · exact Keeps.refl c
  · exact keeps_drag c none

theorem keeps_select (c : Cursor α) (position : Nat) (store : SelectionStore) :
    c.Keeps (c.select position store).cursor := by
  unfold select
  split
  · exact Keeps.refl c
  · exact keeps_highlight c _

theorem keeps_step (c : Cursor α) (direction : Direction) (store : SelectionStore) :
    c.Keeps (c.step direction store).cursor := by
  unfold step
  split
  · exact Keeps.refl c
  · exact keeps_select c _ store

variable [Scalar α]

theorem keeps_pointerDown (c : Cursor α) (hit : Option Nat) (x width : α) :
    c.Keeps (c.pointerDown hit x width).2 := by
  unfold pointerDown
  split
  · exact Keeps.refl c
  · exact (keeps_drag c _).trans (keeps_highlight _ _)

theorem keeps_pointerMove (c : Cursor α) (hit : Option Nat) (x width : α) :
    c.Keeps (c.pointerMove hit x width).2 := by
  unfold pointerMove
  split
  · exact Keeps.refl c
  · split
    · exact Keeps.refl c
    · split
      · exact Keeps.refl c
      · exact (keeps_drag c _).trans (keeps_highlight _ _)

theorem measure_congr {c d : Cursor α} (hf : d.frameCount = c.frameCount)
    (hh : d.highlighted = c.highlighted) (bounds : StripBounds α) :
    d.measure bounds = c.measure bounds := by
  simp only [measure, hf, hh]

def IsMeasured (c : Cursor α) (bounds : StripBounds α) : Prop :=
  c.dirty = false → c.measuredX = c.measure bounds

theorem IsMeasured.of_dirty {c : Cursor α} (hd : c.dirty = true) (bounds : StripBounds α) :
    c.IsMeasured bounds := by
  intro h
  rw [hd] at h
  contradiction

/-- A measurement stays right as long as inputs keep what was measured. -/
theorem IsMeasured.keeps {c d : Cursor α} {bounds : StripBounds α} (hc : c.IsMeasured bounds)
    (h : c.Keeps d) : d.IsMeasured bounds := by
  intro hd
  obtain ⟨hcd, hh, hx⟩ := h.measured hd
  calc d.measuredX = c.measuredX := hx
    _ = c.measure bounds := hc hcd
    _ = d.measure bounds := (measure_congr h.frameCount hh bounds).symm

/-- The position asked for is the one that the elements show, measured or remembered. -/
theorem IsMeasured.x_eq {c : Cursor α} {bounds : StripBounds α} (hc : c.IsMeasured bounds) :
    (c.x bounds).1 = c.measure bounds := by
  unfold x
  split
  · rfl
  · rename_i hd
    exact hc (by simpa using hd)

theorem highlighted_x (c : Cursor α) (bounds : StripBounds α) :
    (c.x bounds).2.highlighted = c.highlighted := by
  unfold x
  split <;> rfl

theorem frameCount_x (c : Cursor α) (bounds : StripBounds α) :
    (c.x bounds).2.frameCount = c.frameCount := by
  unfold x
  split <;> rfl

theorem measuredX_x (c : Cursor α) (bounds : StripBounds α) :
    (c.x bounds).2.measuredX = (c.x bounds).1 := by
  unfold x
  split <;> rfl

/-- After a question the measurement is right. -/
theorem IsMeasured.x {c : Cursor α} {bounds : StripBounds α} (hc : c.IsMeasured bounds) :
    (c.x bounds).2.IsMeasured bounds := by
  intro _
  rw [measuredX_x, hc.x_eq]
  exact (measure_congr (frameCount_x c bounds) (highlighted_x c bounds) bounds).symm

end Cursor

end FrameAtlas
