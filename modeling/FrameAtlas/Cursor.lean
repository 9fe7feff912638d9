import FrameAtlas.Geometry
import FrameAtlas.Selection

/-!
The cursor that follows the selection. Pointer and keyboard input on the strip become commits to the
selection, and the cursor is placed from the measured elements of the strip, which need not have one
width.
-/

namespace FrameAtlas

variable {α : Type}

inductive Direction where
  | previous
  | next
deriving DecidableEq, Repr

structure StripBounds (α : Type) where
  container : Rect α
  element : Nat → Option (Rect α)

structure Cursor (α : Type) where
  frameCount : Nat
  /-- The highlighted position. During a drag it runs ahead of the selection, and it may be stale. -/
  highlighted : Nat
  /-- The last position emitted by the drag in progress, if there is one. -/
  drag : Option Nat
  measuredX : α
  /-- Whether it has to be measured again. -/
  dirty : Bool

namespace Cursor

def create [Scalar α] (frameCount : Nat) : Cursor α :=
  ⟨frameCount, 0, none, ((0 : Nat) : α), true⟩

def isDragging (c : Cursor α) : Bool := c.drag.isSome

def highlight (c : Cursor α) (position : Nat) : Cursor α :=
  if position = c.highlighted then c else { c with highlighted := position, dirty := true }

def notifyElementsChanged (c : Cursor α) : Cursor α := { c with dirty := true }

def setFrameCount (c : Cursor α) (frameCount : Nat) : Cursor α :=
  if frameCount = c.frameCount then c else { c with frameCount := frameCount, dirty := true }

section Pointer

variable [Scalar α]

def positionAt (c : Cursor α) (x width : α) : Nat :=
  Scalar.toNat <|
    Scalar.clamp ((0 : Nat) : α) ((c.frameCount - 1 : Nat) : α)
      (Scalar.floor (x / width * (c.frameCount : α)))

def resolve (c : Cursor α) (hit : Option Nat) (x width : α) : Option Nat :=
  if c.frameCount = 0 then none
  else match hit.filter fun position => position < c.frameCount with
    | some position => some position
    | none =>
      if Scalar.isUndefined width || decide (width ≤ ((0 : Nat) : α)) || !Scalar.isFinite x then none
      else some (c.positionAt x width)

def pointerDown (c : Cursor α) (hit : Option Nat) (x width : α) : Option Nat × Cursor α :=
  match c.resolve hit x width with
  | none => (none, c)
  | some position => (some position, { c with drag := some position }.highlight position)

def pointerMove (c : Cursor α) (hit : Option Nat) (x width : α) : Option Nat × Cursor α :=
  match c.drag with
  | none => (none, c)
  | some last => match c.resolve hit x width with
    | none => (none, c)
    | some position =>
      if position = last then (none, c)
      else (some position, { c with drag := some position }.highlight position)

end Pointer

structure Committed (α : Type) where
  position : Option Nat
  cursor : Cursor α
  store : SelectionStore
  notices : List Notice

def uncommitted (c : Cursor α) (store : SelectionStore) : Committed α := ⟨none, c, store, []⟩

def pointerUp (c : Cursor α) (store : SelectionStore) : Committed α :=
  match c.drag with
  | none => c.uncommitted store
  | some last =>
    let (store, notices) := store.commit last
    ⟨some last, { c with drag := none }, store, notices⟩

def select (c : Cursor α) (position : Nat) (store : SelectionStore) : Committed α :=
  if c.frameCount = 0 then c.uncommitted store
  else
    let target := min position (c.frameCount - 1)
    let (store, notices) := store.commit target
    ⟨some target, c.highlight target, store, notices⟩

def step (c : Cursor α) (direction : Direction) (store : SelectionStore) : Committed α :=
  if c.frameCount = 0 then c.uncommitted store
  else
    let origin := min c.highlighted (c.frameCount - 1)
    let target := match direction with
      | .previous => origin - 1
      | .next => min (origin + 1) (c.frameCount - 1)
    c.select target store

def syncFrom (c : Cursor α) (store : SelectionStore) : Cursor α :=
  match store.current with
  | some position => if c.isDragging then c else c.highlight position
  | none => c

section Measure

variable [Scalar α]

/-- The center of the highlighted element relative to the container; zero if there is none. -/
def measure (c : Cursor α) (bounds : StripBounds α) : α :=
  if c.frameCount ≤ c.highlighted then ((0 : Nat) : α)
  else match bounds.element c.highlighted with
    | some rect => rect.centerX - bounds.container.x
    | none => ((0 : Nat) : α)

def looksUp (c : Cursor α) : Bool := c.dirty && decide (c.highlighted < c.frameCount)

def x (c : Cursor α) (bounds : StripBounds α) : α × Cursor α :=
  if c.dirty then
    let measured := c.measure bounds
    (measured, { c with measuredX := measured, dirty := false })
  else (c.measuredX, c)

end Measure

end Cursor

end FrameAtlas
