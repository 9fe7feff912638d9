import FrameAtlas.Cursor.Input
import FrameAtlas.Proofs.Cursor.Commit
import FrameAtlas.Scalar.Exact
import FrameAtlas.Selection.Event
import Mathlib.Data.List.Chain

/-!
A drag from the press to the release. In the middle of it the cursor holds what it last emitted, in the drag
and in the highlight alike, and the selection is left to others; the release commits what the cursor holds.
-/

namespace FrameAtlas

variable {α : Type}

namespace CursorInput

def isWithinDrag : CursorInput α → Bool
  | .pointerDown _ _ _ => false
  | .pointerUp => false
  | .step _ => false
  | .select _ => false
  | _ => true

def isPress : CursorInput α → Bool
  | .pointerDown _ _ _ => true
  | _ => false

def storeEvent? : CursorInput α → Option StoreEvent
  | .commit position => some (.commit position)
  | .clear => some .clear
  | .subscribe => some .subscribe
  | .unsubscribe id => some (.unsubscribe id)
  | _ => none

end CursorInput

def CursorReply.position? : CursorReply α → Option Nat
  | .position p => p
  | _ => none

def emitted (turns : List (CursorTurn α)) : List Nat := turns.filterMap fun t => t.reply.position?

theorem emitted_cons (t : CursorTurn α) (turns : List (CursorTurn α)) :
    emitted (t :: turns) = t.reply.position?.toList ++ emitted turns := by
  simp only [emitted, List.filterMap_eq_flatMap_toList, List.flatMap_cons]

namespace Cursor

structure HeldAt (c : Cursor α) (position : Nat) : Prop where
  drag : c.drag = some position
  highlighted : c.highlighted = position

theorem heldAt_highlight (c : Cursor α) (position : Nat) :
    ({ c with drag := some position }.highlight position).HeldAt position where
  drag := drag_highlight _ _
  highlighted := highlighted_highlight _ _

theorem drag_setFrameCount (c : Cursor α) (count : Nat) : (c.setFrameCount count).drag = c.drag := by
  unfold setFrameCount
  split <;> rfl

theorem highlighted_setFrameCount (c : Cursor α) (count : Nat) :
    (c.setFrameCount count).highlighted = c.highlighted := by
  unfold setFrameCount
  split <;> rfl

theorem drag_select (c : Cursor α) (position : Nat) (store : SelectionStore) :
    (c.select position store).cursor.drag = c.drag := by
  rcases select_cases c position store with hidle | ⟨i, -, hcommitted⟩
  · rw [hidle]
    rfl
  · exact hcommitted.drag

theorem drag_step (c : Cursor α) (direction : Direction) (store : SelectionStore) :
    (c.step direction store).cursor.drag = c.drag := by
  rcases step_cases c direction store with hidle | ⟨i, -, hcommitted⟩
  · rw [hidle]
    rfl
  · exact hcommitted.drag

theorem drag_pointerUp (c : Cursor α) (store : SelectionStore) : (c.pointerUp store).cursor.drag = none := by
  rcases pointerUp_split c store with ⟨hdrag, hidle⟩ | ⟨i, -, hup⟩
  · rw [hidle]
    exact hdrag
  · rw [hup]
    rfl

variable [Scalar α]

/-- A press opens a drag where it gives a position back, and otherwise leaves an open drag as it was. -/
theorem drag_pointerDown (c : Cursor α) (hit : Option Nat) (x width : α) :
    (c.pointerDown hit x width).2.drag = (c.pointerDown hit x width).1.or c.drag := by
  rcases pointerDown_split c hit x width with hidle | ⟨i, -, hdown⟩
  · rw [hidle]
    rfl
  · rw [hdown]
    exact drag_highlight _ i

theorem drag_pointerMove (c : Cursor α) (hit : Option Nat) (x width : α) :
    (c.pointerMove hit x width).2.drag = (c.pointerMove hit x width).1.or c.drag := by
  rcases pointerMove_split c hit x width with hidle | ⟨last, i, -, -, -, hmove⟩
  · rw [hidle]
    rfl
  · rw [hmove]
    exact drag_highlight _ i

/-- A press that gives nothing back leaves the cursor as it was. -/
theorem eq_of_pointerDown_eq_none {c : Cursor α} {hit : Option Nat} {x width : α}
    (h : (c.pointerDown hit x width).1 = none) : (c.pointerDown hit x width).2 = c := by
  rcases pointerDown_split c hit x width with hnone | ⟨i, -, hdown⟩
  · rw [hnone]
  · rw [hdown] at h
    contradiction

theorem eq_of_pointerMove_eq_none {c : Cursor α} {hit : Option Nat} {x width : α}
    (h : (c.pointerMove hit x width).1 = none) : (c.pointerMove hit x width).2 = c := by
  rcases pointerMove_split c hit x width with hnone | ⟨last, i, -, -, -, hmove⟩
  · rw [hnone]
  · rw [hmove] at h
    contradiction

end Cursor

namespace CursorDesk

variable [Scalar α]

def IgnoresPointer (d : CursorDesk α) : Prop :=
  (∀ hit x width, d.handle (.pointerMove hit x width) = ⟨d, .position none, []⟩) ∧
    d.handle .pointerUp = ⟨d, .position none, []⟩

/-- What the end of a drag does: it commits a position, with a call on every subscriber if that is a change,
and leaves the cursor as it is but for the drag. -/
structure ReleasesAt (d : CursorDesk α) (position : Nat) : Prop where
  reply : (d.handle .pointerUp).reply = .position (some position)
  store : (d.handle .pointerUp).desk.store = { d.store with current := some position }
  notices : (d.handle .pointerUp).notices =
    if d.store.current = some position then [] else d.store.subscribers.map fun id => ⟨id, position⟩
  cursor : (d.handle .pointerUp).desk.cursor = { d.cursor with drag := none }

/-- The end of a drag commits the position last emitted, and nothing but the drag of the cursor changes. -/
theorem releasesAt_of_heldAt {d : CursorDesk α} {i : Nat} (h : d.cursor.HeldAt i) : d.ReleasesAt i := by
  rcases Cursor.pointerUp_split d.cursor d.store with ⟨hdrag, -⟩ | ⟨j, hdrag, hup⟩
  · rw [h.drag] at hdrag
    contradiction
  · obtain rfl : j = i := Option.some.inj (hdrag.symm.trans h.drag)
    have hturn : d.handle .pointerUp = ofCommitted (Cursor.committed { d.cursor with drag := none } j d.store) :=
      congrArg ofCommitted hup
    rw [Cursor.committed, SelectionStore.commit_eq] at hturn
    constructor <;> rw [hturn] <;> rfl

/-- In the middle of a drag only a move changes the position held, and that to another one; the selection is
changed by nothing but what others do to it. -/
theorem heldAt_handle {d : CursorDesk α} {i : Nat} (h : d.cursor.HeldAt i) {e : CursorInput α}
    (he : e.isWithinDrag = true) :
    (d.handle e).desk.cursor.HeldAt ((d.handle e).reply.position?.getD i) ∧
      (d.handle e).reply.position? ≠ some i ∧
      (d.handle e).desk.store = d.store.after e.storeEvent?.toList := by
  have hnone : (none : Option Nat) ≠ some i := Option.some_ne_none i |>.symm
  cases e with
  | pointerDown hit x width => contradiction
  | pointerUp => contradiction
  | step direction => contradiction
  | select position => contradiction
  | commit position => exact ⟨h, hnone, rfl⟩
  | clear => exact ⟨h, hnone, rfl⟩
  | subscribe => exact ⟨h, hnone, rfl⟩
  | unsubscribe id => exact ⟨h, hnone, rfl⟩
  | elementsChanged => exact ⟨⟨h.drag, h.highlighted⟩, hnone, rfl⟩
  | setFrameCount count =>
    refine ⟨⟨?_, ?_⟩, hnone, rfl⟩
    · exact (Cursor.drag_setFrameCount _ _).trans h.drag
    · exact (Cursor.highlighted_setFrameCount _ _).trans h.highlighted
  | syncFrom =>
    have hdragging : d.cursor.isDragging = true := by rw [Cursor.isDragging, h.drag]; rfl
    refine ⟨?_, hnone, rfl⟩
    show (d.cursor.syncFrom d.store).HeldAt i
    rwa [Cursor.syncFrom_of_isDragging hdragging]
  | askX bounds =>
    refine ⟨⟨?_, ?_⟩, hnone, rfl⟩
    · exact (Cursor.drag_x _ _).trans h.drag
    · exact (Cursor.highlighted_x _ _).trans h.highlighted
  | pointerMove hit x width =>
    show (d.cursor.pointerMove hit x width).2.HeldAt ((d.cursor.pointerMove hit x width).1.getD i) ∧
      (d.cursor.pointerMove hit x width).1 ≠ some i ∧ d.store = d.store
    rcases Cursor.pointerMove_split d.cursor hit x width with hidle | ⟨last, j, hdrag, hother, -, hmove⟩
    · rw [hidle]
      exact ⟨h, hnone, rfl⟩
    · obtain rfl : last = i := Option.some.inj (hdrag.symm.trans h.drag)
      rw [hmove]
      exact ⟨Cursor.heldAt_highlight _ j, fun hj => hother (Option.some.inj hj), rfl⟩

/-- Through all inputs of a drag the cursor holds the position last emitted, no two in a row are the same, and the
selection hears of others only. -/
theorem heldAt_after {d : CursorDesk α} {i : Nat} (h : d.cursor.HeldAt i) {inputs : List (CursorInput α)}
    (hinputs : ∀ e ∈ inputs, e.isWithinDrag = true) :
    (d.after inputs).cursor.HeldAt ((emitted (d.run inputs)).getLastD i) ∧
      (i :: emitted (d.run inputs)).IsChain (· ≠ ·) ∧
      (d.after inputs).store = d.store.after (inputs.filterMap CursorInput.storeEvent?) := by
  induction inputs generalizing d i with
  | nil => exact ⟨h, List.isChain_singleton i, rfl⟩
  | cons e rest ih =>
    obtain ⟨hheld, hother, hstore⟩ := heldAt_handle h (hinputs e List.mem_cons_self)
    obtain ⟨hlast, hchain, hlater⟩ := ih hheld fun e' he' => hinputs e' (List.mem_cons_of_mem e he')
    have hstores : ((d.handle e).desk.after rest).store =
        d.store.after ((e :: rest).filterMap CursorInput.storeEvent?) := by
      rw [hlater, hstore, ← SelectionStore.after_append]
      simp only [List.filterMap_eq_flatMap_toList, List.flatMap_cons]
    rw [after_cons, run_cons, emitted_cons]
    cases hreply : (d.handle e).reply.position? with
    | none =>
      rw [hreply] at hlast hchain
      exact ⟨hlast, hchain, hstores⟩
    | some j =>
      rw [hreply] at hlast hchain hother
      have hij : i ≠ j := fun hsame => hother (congrArg some hsame.symm)
      rw [Option.toList_some, List.singleton_append, List.getLastD_cons]
      exact ⟨hlast, List.isChain_cons_cons.2 ⟨hij, hchain⟩, hstores⟩

/-- Without a drag neither a move nor a release does anything. -/
theorem ignoresPointer_of_drag {d : CursorDesk α} (h : d.cursor.drag = none) : d.IgnoresPointer := by
  constructor
  · intro hit x width
    show (⟨⟨(d.cursor.pointerMove hit x width).2, d.store⟩, _, _⟩ : CursorTurn α) = _
    rw [Cursor.pointerMove, h]
  · show ofCommitted (d.cursor.pointerUp d.store) = _
    rw [Cursor.pointerUp, h]
    rfl

/-- Nothing but a press opens a drag. -/
theorem drag_handle_eq_none {d : CursorDesk α} (h : d.cursor.drag = none) {e : CursorInput α}
    (he : e.isPress = false) : (d.handle e).desk.cursor.drag = none := by
  cases e with
  | pointerDown hit x width => contradiction
  | pointerMove hit x width => rw [(ignoresPointer_of_drag h).1]; exact h
  | pointerUp => rw [(ignoresPointer_of_drag h).2]; exact h
  | step direction => exact (Cursor.drag_step _ _ _).trans h
  | select position => exact (Cursor.drag_select _ _ _).trans h
  | syncFrom => exact (Cursor.drag_syncFrom _ _).trans h
  | setFrameCount count => exact (Cursor.drag_setFrameCount _ _).trans h
  | askX bounds => exact (Cursor.drag_x _ _).trans h
  | elementsChanged => exact h
  | commit position => exact h
  | clear => exact h
  | subscribe => exact h
  | unsubscribe id => exact h

theorem drag_after_eq_none {d : CursorDesk α} (h : d.cursor.drag = none) {later : List (CursorInput α)}
    (hlater : ∀ e ∈ later, e.isPress = false) : (d.after later).cursor.drag = none := by
  induction later generalizing d with
  | nil => exact h
  | cons e rest ih =>
    apply ih
    · exact drag_handle_eq_none h (hlater e List.mem_cons_self)
    · exact fun e' he' => hlater e' (List.mem_cons_of_mem e he')

/-- The protocol of a drag. From a press on, whatever the pointer does and others do, the highlight is the
position last emitted, no position is emitted twice in a row, and the selection is what others make of it. The
release commits the position last emitted; then the pointer is ignored until it is pressed again. Whatever the
pointer is refused leaves a cursor as it was. -/
theorem drag_protocol (d : CursorDesk α) (hit : Option Nat) (x width : α) (first : Nat)
    (hpress : (d.handle (.pointerDown hit x width)).reply = .position (some first))
    (inputs : List (CursorInput α)) (hinputs : ∀ e ∈ inputs, e.isWithinDrag = true) :
    let pressed := (d.handle (.pointerDown hit x width)).desk
    let s := pressed.after inputs
    let trace := first :: emitted (pressed.run inputs)
    let last := trace.getLast (List.cons_ne_nil _ _)
    s.store = d.store.after (inputs.filterMap CursorInput.storeEvent?) ∧
      s.cursor.highlighted = last ∧ trace.IsChain (· ≠ ·) ∧ s.ReleasesAt last ∧
      (∀ later : List (CursorInput α), (∀ e ∈ later, e.isPress = false) →
        ((s.handle .pointerUp).desk.after later).IgnoresPointer) ∧
      ∀ (c : Cursor α) (hit : Option Nat) (x width : α),
        ((c.pointerDown hit x width).1 = none → (c.pointerDown hit x width).2 = c) ∧
          ((c.pointerMove hit x width).1 = none → (c.pointerMove hit x width).2 = c) := by
  intro pressed s trace last
  have hheld : pressed.cursor.HeldAt first := by
    have hposition : (d.cursor.pointerDown hit x width).1 = some first := CursorReply.position.inj hpress
    rcases Cursor.pointerDown_split d.cursor hit x width with hidle | ⟨i, -, hdown⟩
    · rw [hidle] at hposition
      contradiction
    · rw [hdown] at hposition
      obtain rfl : i = first := Option.some.inj hposition
      show (d.cursor.pointerDown hit x width).2.HeldAt i
      rw [hdown]
      exact Cursor.heldAt_highlight _ i
  obtain ⟨hlast, hchain, hstore⟩ := heldAt_after hheld hinputs
  have heq : (emitted (pressed.run inputs)).getLastD first = last := (List.getLast_eq_getLastD ..).symm
  rw [heq] at hlast
  have hreleases := releasesAt_of_heldAt hlast
  refine ⟨hstore, hlast.highlighted, hchain, hreleases, ?_, ?_⟩
  · intro later hlater
    apply ignoresPointer_of_drag
    apply drag_after_eq_none _ hlater
    rw [hreleases.cursor]
  · intro c hit x width
    exact ⟨Cursor.eq_of_pointerDown_eq_none, Cursor.eq_of_pointerMove_eq_none⟩

/-- A drag in the middle of which others commit and clear, and the list is cut down. -/
theorem drag_protocol_amid_commits :
    let d : CursorDesk Rat := ⟨.create 10, ⟨some 5, [0, 2], 3⟩⟩
    let inputs : List (CursorInput Rat) := [.pointerMove none 31 100, .commit 9, .setFrameCount 4, .syncFrom,
      .pointerMove none 33 100, .pointerMove none 26 100, .commit 2]
    let pressed := (d.handle (.pointerDown none 12 100)).desk
    let s := pressed.after inputs
    (d.handle (.pointerDown none 12 100)).reply = .position (some 1) ∧
      (∀ e ∈ inputs, e.isWithinDrag = true) ∧ emitted (pressed.run inputs) = [3, 1] ∧
      s.cursor.highlighted = 1 ∧ s.store.current = some 2 ∧ s.ReleasesAt 1 := by
  intro d inputs pressed s
  have hpress : (d.handle (.pointerDown none 12 100)).reply = .position (some 1) :=
    congrArg CursorReply.position (by decide +kernel)
  have hinputs : ∀ e ∈ inputs, e.isWithinDrag = true := by simp [inputs, CursorInput.isWithinDrag]
  have htrace : emitted (pressed.run inputs) = [3, 1] := by decide +kernel
  obtain ⟨hstore, hhighlighted, -, hreleases, -, -⟩ := drag_protocol d none 12 100 1 hpress inputs hinputs
  have hlast : (1 :: emitted (pressed.run inputs)).getLast (List.cons_ne_nil _ _) = 1 := by
    simp only [htrace]
    rfl
  have hselected : s.store.current = some 2 := by
    rw [hstore]
    decide +kernel
  rw [hlast] at hhighlighted hreleases
  refine ⟨hpress, hinputs, htrace, ?_, hselected, hreleases⟩
  rw [hhighlighted]

end CursorDesk

end FrameAtlas
