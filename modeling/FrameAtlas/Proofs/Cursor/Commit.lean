import FrameAtlas.Proofs.Cursor.Highlight
import FrameAtlas.Proofs.Scalar.Double.WholeParts

/-!
The three places where a position is kept: the drag, the highlight and the selection. The pointer sets the
first two, the keyboard the last two, and the end of a drag brings the first over into the last.
-/

namespace FrameAtlas

/-- Numbers for which every fraction of a strip of so many frames falls on one of them. -/
def HasInnerPositions (α : Type) [Scalar α] (count : Nat) : Prop :=
  ∀ (c : Cursor α) (x width : α), c.frameCount = count → 0 < count → c.positionAt x width < count

/-- Doubles are such numbers as far as they count: a fraction is cut down to the last position, and what is undefined
counts as zero. -/
theorem hasInnerPositions_double {count : Nat} (hcount : count ≤ 2 ^ 53) : HasInnerPositions Float count := by
  intro c x width hframes hpos
  have hlast : c.positionAt x width ≤ c.frameCount - 1 := Double.toNat_clamp_le (by omega) _ _
  omega

namespace Cursor

variable {α : Type}

theorem drag_highlight (c : Cursor α) (position : Nat) : (c.highlight position).drag = c.drag := by
  unfold highlight
  split <;> rfl

theorem drag_syncFrom (c : Cursor α) (store : SelectionStore) : (c.syncFrom store).drag = c.drag := by
  unfold syncFrom
  split
  · split
    · rfl
    · exact drag_highlight c _
  · rfl

/-- In the middle of a drag the cursor does not follow the selection. -/
theorem syncFrom_of_isDragging {c : Cursor α} (hc : c.isDragging = true) (store : SelectionStore) :
    c.syncFrom store = c := by
  unfold syncFrom
  split
  · rw [if_pos hc]
  · rfl

theorem drag_x [Scalar α] (c : Cursor α) (bounds : StripBounds α) : (c.x bounds).2.drag = c.drag := by
  unfold x
  split <;> rfl

structure GrabbedAt (c : Cursor α) (position : Nat) : Prop where
  inside : position < c.frameCount
  drag : c.drag = some position
  highlighted : c.highlighted = position

structure CommittedAt (c : Cursor α) (o : Committed α) (position : Nat) : Prop where
  inside : position < o.cursor.frameCount
  drag : o.cursor.drag = c.drag
  highlighted : o.cursor.highlighted = position
  selected : o.store.current = some position

structure ReleasedAt (c : Cursor α) (o : Committed α) (position : Nat) : Prop where
  opened : c.drag = some position
  drag : o.cursor.drag = none
  highlighted : o.cursor.highlighted = c.highlighted
  selected : o.store.current = some position

def committed (c : Cursor α) (position : Nat) (store : SelectionStore) : Committed α :=
  ⟨some position, c, (store.commit position).1, (store.commit position).2⟩

/-- A jump commits the position of the list that it highlights, if there is a list at all. -/
theorem select_split (c : Cursor α) (position : Nat) (store : SelectionStore) :
    c.frameCount = 0 ∧ c.select position store = c.uncommitted store ∨
      ∃ i < c.frameCount, c.select position store = (c.highlight i).committed i store := by
  unfold select
  split
  · rename_i hframes
    exact .inl ⟨hframes, rfl⟩
  · rename_i hframes
    have hinside : min position (c.frameCount - 1) < c.frameCount := by omega
    exact .inr ⟨_, hinside, rfl⟩

theorem step_split (c : Cursor α) (direction : Direction) (store : SelectionStore) :
    c.frameCount = 0 ∧ c.step direction store = c.uncommitted store ∨
      ∃ i < c.frameCount, c.step direction store = (c.highlight i).committed i store := by
  unfold step
  split
  · rename_i hframes
    exact .inl ⟨hframes, rfl⟩
  · exact select_split c _ store

/-- A release does nothing, or commits what the drag holds and closes it. -/
theorem pointerUp_split (c : Cursor α) (store : SelectionStore) :
    c.drag = none ∧ c.pointerUp store = c.uncommitted store ∨
      ∃ i, c.drag = some i ∧ c.pointerUp store = committed { c with drag := none } i store := by
  unfold pointerUp
  split
  · rename_i hdrag
    exact .inl ⟨hdrag, rfl⟩
  · rename_i last hdrag
    exact .inr ⟨last, hdrag, rfl⟩

theorem committedAt_highlight {c : Cursor α} {position : Nat} (hinside : position < c.frameCount)
    (store : SelectionStore) : c.CommittedAt ((c.highlight position).committed position store) position where
  inside := hinside.trans_eq (keeps_highlight c position).frameCount.symm
  drag := drag_highlight c position
  highlighted := highlighted_highlight c position
  selected := SelectionStore.current_commit store position

/-- A jump either does nothing, in an empty list, or commits a position of the list. -/
theorem select_cases (c : Cursor α) (position : Nat) (store : SelectionStore) :
    c.select position store = c.uncommitted store ∨
      ∃ i, (c.select position store).position = some i ∧
        c.CommittedAt (c.select position store) i := by
  rcases select_split c position store with ⟨-, hidle⟩ | ⟨i, hinside, hselect⟩
  · exact .inl hidle
  · rw [hselect]
    exact .inr ⟨i, rfl, committedAt_highlight hinside store⟩

/-- A step either does nothing, in an empty list, or commits a position of the list. -/
theorem step_cases (c : Cursor α) (direction : Direction) (store : SelectionStore) :
    c.step direction store = c.uncommitted store ∨
      ∃ i, (c.step direction store).position = some i ∧ c.CommittedAt (c.step direction store) i := by
  rcases step_split c direction store with ⟨-, hidle⟩ | ⟨i, hinside, hstep⟩
  · exact .inl hidle
  · rw [hstep]
    exact .inr ⟨i, rfl, committedAt_highlight hinside store⟩

/-- The end of a drag commits what the drag holds, and without a drag nothing happens. -/
theorem pointerUp_cases (c : Cursor α) (store : SelectionStore) :
    c.pointerUp store = c.uncommitted store ∧ c.drag = none ∨
      ∃ i, (c.pointerUp store).position = some i ∧ c.ReleasedAt (c.pointerUp store) i := by
  rcases pointerUp_split c store with ⟨hdrag, hidle⟩ | ⟨i, hdrag, hup⟩
  · exact .inl ⟨hidle, hdrag⟩
  · rw [hup]
    exact .inr ⟨i, rfl, hdrag, rfl, rfl, SelectionStore.current_commit _ _⟩

theorem grabbedAt_highlight {c : Cursor α} {position : Nat} (hinside : position < c.frameCount) :
    ({ c with drag := some position }.highlight position).GrabbedAt position where
  inside := hinside.trans_eq (keeps_highlight { c with drag := some position } position).frameCount.symm
  drag := drag_highlight _ _
  highlighted := highlighted_highlight _ _

section Pointer

variable [Scalar α]

/-- Whatever position a pointer is resolved to lies in the list. -/
theorem resolve_lt {c : Cursor α} (hinner : HasInnerPositions α c.frameCount) {hit : Option Nat}
    {x width : α} {position : Nat} (h : c.resolve hit x width = some position) : position < c.frameCount := by
  unfold resolve at h
  split at h
  · contradiction
  · rename_i hframes
    split at h
    · rename_i direct hhit
      rw [← Option.some.inj h]
      simpa using (Option.filter_eq_some_iff.1 hhit).2
    · split at h
      · contradiction
      · rw [← Option.some.inj h]
        exact hinner c x width rfl (Nat.pos_of_ne_zero hframes)

/-- A press does nothing, or opens a drag where the pointer is. -/
theorem pointerDown_split (c : Cursor α) (hit : Option Nat) (x width : α) :
    c.pointerDown hit x width = (none, c) ∨
      ∃ i, c.resolve hit x width = some i ∧
        c.pointerDown hit x width = (some i, { c with drag := some i }.highlight i) := by
  unfold pointerDown
  split
  · exact .inl rfl
  · rename_i position hresolved
    exact .inr ⟨position, hresolved, rfl⟩

/-- A move does nothing, or takes an open drag away from where it was to where the pointer is. -/
theorem pointerMove_split (c : Cursor α) (hit : Option Nat) (x width : α) :
    c.pointerMove hit x width = (none, c) ∨
      ∃ last i, c.drag = some last ∧ i ≠ last ∧ c.resolve hit x width = some i ∧
        c.pointerMove hit x width = (some i, { c with drag := some i }.highlight i) := by
  unfold pointerMove
  split
  · exact .inl rfl
  · rename_i last hdrag
    split
    · exact .inl rfl
    · rename_i position hresolved
      split
      · exact .inl rfl
      · rename_i hother
        exact .inr ⟨last, position, hdrag, hother, hresolved, rfl⟩

/-- A press either is refused, and nothing changes, or takes the cursor to a position of the list. -/
theorem pointerDown_cases {c : Cursor α} (hinner : HasInnerPositions α c.frameCount) (hit : Option Nat)
    (x width : α) :
    c.pointerDown hit x width = (none, c) ∨
      ∃ i, (c.pointerDown hit x width).1 = some i ∧ (c.pointerDown hit x width).2.GrabbedAt i := by
  rcases pointerDown_split c hit x width with hnone | ⟨i, hresolved, hdown⟩
  · exact .inl hnone
  · rw [hdown]
    exact .inr ⟨i, rfl, grabbedAt_highlight (resolve_lt hinner hresolved)⟩

/-- A move either is of no consequence or takes the cursor to a position of the list. -/
theorem pointerMove_cases {c : Cursor α} (hinner : HasInnerPositions α c.frameCount) (hit : Option Nat)
    (x width : α) :
    c.pointerMove hit x width = (none, c) ∨
      ∃ i, (c.pointerMove hit x width).1 = some i ∧ (c.pointerMove hit x width).2.GrabbedAt i := by
  rcases pointerMove_split c hit x width with hnone | ⟨last, i, -, -, hresolved, hmove⟩
  · exact .inl hnone
  · rw [hmove]
    exact .inr ⟨i, rfl, grabbedAt_highlight (resolve_lt hinner hresolved)⟩

end Pointer

theorem lt_of_grab {c : Cursor α} {r : Option Nat × Cursor α}
    (hr : r = (none, c) ∨ ∃ i, r.1 = some i ∧ r.2.GrabbedAt i) {i : Nat} (h : r.1 = some i) :
    i < r.2.frameCount := by
  rcases hr with rfl | ⟨j, hj, hgrabbed⟩
  · contradiction
  · obtain rfl : j = i := Option.some.inj (hj.symm.trans h)
    exact hgrabbed.inside

/-- What is known during a drag of the last position given to the pointer and of the last one given to
anybody: the drag holds the one and the highlight the other. -/
structure Trails (c : Cursor α) (pointed shown : Option Nat) : Prop where
  pointed : ∀ last, c.drag = some last → pointed = some last
  shown : c.isDragging = true → shown = some c.highlighted
  inside : c.isDragging = true → c.highlighted < c.frameCount

variable {c d : Cursor α} {pointed shown : Option Nat}

/-- Without a drag there is nothing to be known. -/
theorem Trails.of_none (hc : c.drag = none) (pointed shown : Option Nat) : c.Trails pointed shown := by
  have hrest : ¬ c.isDragging = true := by simp [isDragging, hc]
  refine ⟨?_, fun h => absurd h hrest, fun h => absurd h hrest⟩
  intro last hlast
  rw [hc] at hlast
  contradiction

theorem Trails.of_same (h : c.Trails pointed shown) (hdrag : d.drag = c.drag)
    (hhighlighted : d.highlighted = c.highlighted) (hcount : d.frameCount = c.frameCount) :
    d.Trails pointed shown := by
  have hdragging : d.isDragging = c.isDragging := by rw [isDragging, isDragging, hdrag]
  refine ⟨?_, ?_, ?_⟩
  · rw [hdrag]
    exact h.pointed
  · rw [hdragging, hhighlighted]
    exact h.shown
  · rw [hdragging, hhighlighted, hcount]
    exact h.inside

/-- Following the selection takes place outside of drags only, so a drag does not notice. -/
theorem Trails.syncFrom (h : c.Trails pointed shown) (store : SelectionStore) :
    (c.syncFrom store).Trails pointed shown := by
  -- The cursor follows the selection outside a drag only, where there is nothing to be known.
  cases hdrag : c.drag with
  | none => exact .of_none ((drag_syncFrom c store).trans hdrag) pointed shown
  | some last =>
    rw [syncFrom_of_isDragging (by simp [isDragging, hdrag]) store]
    exact h

/-- The pointer is given a position, or nothing happens to the cursor. -/
theorem Trails.grab (h : c.Trails pointed shown) {r : Option Nat × Cursor α}
    (hr : r = (none, c) ∨ ∃ i, r.1 = some i ∧ r.2.GrabbedAt i) :
    r.2.Trails (r.1.or pointed) (r.1.or shown) := by
  rcases hr with rfl | ⟨i, hi, hgrabbed⟩
  · exact h
  · rw [hi]
    refine ⟨?_, ?_, ?_⟩
    · intro last hlast
      exact hgrabbed.drag.symm.trans hlast
    · intro _
      exact congrArg some hgrabbed.highlighted.symm
    · intro _
      exact hgrabbed.highlighted.trans_lt hgrabbed.inside

/-- The keyboard is given a position, or nothing happens to the cursor. -/
theorem Trails.commit (h : c.Trails pointed shown) {o : Committed α} {store : SelectionStore}
    (ho : o = c.uncommitted store ∨ ∃ i, o.position = some i ∧ c.CommittedAt o i) :
    o.cursor.Trails pointed (o.position.or shown) := by
  rcases ho with rfl | ⟨i, hi, hcommitted⟩
  · exact h
  · rw [hi]
    refine ⟨?_, ?_, ?_⟩
    -- The keyboard leaves the drag alone, which still holds the last position of the pointer.
    · intro last hlast
      exact h.pointed last (hcommitted.drag.symm.trans hlast)
    · intro _
      exact congrArg some hcommitted.highlighted.symm
    · intro _
      exact hcommitted.highlighted.trans_lt hcommitted.inside

theorem Trails.release {o : Committed α} {store : SelectionStore}
    (ho : o = c.uncommitted store ∧ c.drag = none ∨ ∃ i, o.position = some i ∧ c.ReleasedAt o i)
    (pointed shown : Option Nat) : o.cursor.Trails pointed shown := by
  rcases ho with ⟨rfl, hdrag⟩ | ⟨i, -, hreleased⟩
  · exact .of_none hdrag pointed shown
  · exact .of_none hreleased.drag pointed shown

end Cursor

end FrameAtlas
