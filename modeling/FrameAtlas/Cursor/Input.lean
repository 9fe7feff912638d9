import FrameAtlas.Cursor

namespace FrameAtlas

variable {α : Type}

structure CursorDesk (α : Type) where
  cursor : Cursor α
  store : SelectionStore

inductive CursorInput (α : Type) where
  | commit (position : Nat)
  | clear
  | subscribe
  | unsubscribe (id : Nat)
  | pointerDown (hit : Option Nat) (x width : α)
  | pointerMove (hit : Option Nat) (x width : α)
  | pointerUp
  | step (direction : Direction)
  | select (position : Nat)
  | syncFrom
  | setFrameCount (count : Nat)
  | elementsChanged
  | askX (bounds : StripBounds α)

inductive CursorReply (α : Type) where
  | nothing
  | changed (b : Bool)
  | subscription (id : Nat)
  | position (p : Option Nat)
  | x (value : α)

structure CursorTurn (α : Type) where
  desk : CursorDesk α
  reply : CursorReply α
  notices : List Notice

namespace CursorDesk

variable [Scalar α]

def create (frameCount : Nat) : CursorDesk α := ⟨.create frameCount, .empty⟩

def ofCommitted (c : Cursor.Committed α) : CursorTurn α :=
  ⟨⟨c.cursor, c.store⟩, .position c.position, c.notices⟩

def handle (d : CursorDesk α) : CursorInput α → CursorTurn α
  | .commit position =>
    let (store, notices) := d.store.commit position
    ⟨{ d with store := store }, .changed (d.store.changes position), notices⟩
  | .clear => ⟨{ d with store := d.store.clear }, .nothing, []⟩
  | .subscribe =>
    let (id, store) := d.store.subscribe
    ⟨{ d with store := store }, .subscription id, []⟩
  | .unsubscribe id =>
    let (found, store) := d.store.unsubscribe id
    ⟨{ d with store := store }, .changed found, []⟩
  | .pointerDown hit x width =>
    let (position, cursor) := d.cursor.pointerDown hit x width
    ⟨{ d with cursor := cursor }, .position position, []⟩
  | .pointerMove hit x width =>
    let (position, cursor) := d.cursor.pointerMove hit x width
    ⟨{ d with cursor := cursor }, .position position, []⟩
  | .pointerUp => ofCommitted (d.cursor.pointerUp d.store)
  | .step direction => ofCommitted (d.cursor.step direction d.store)
  | .select position => ofCommitted (d.cursor.select position d.store)
  | .syncFrom => ⟨{ d with cursor := d.cursor.syncFrom d.store }, .nothing, []⟩
  | .setFrameCount count => ⟨{ d with cursor := d.cursor.setFrameCount count }, .nothing, []⟩
  | .elementsChanged => ⟨{ d with cursor := d.cursor.notifyElementsChanged }, .nothing, []⟩
  | .askX bounds =>
    let (x, cursor) := d.cursor.x bounds
    ⟨{ d with cursor := cursor }, .x x, []⟩

def run (d : CursorDesk α) : List (CursorInput α) → List (CursorTurn α)
  | [] => []
  | input :: rest =>
    let turn := d.handle input
    turn :: run turn.desk rest

def after (d : CursorDesk α) (inputs : List (CursorInput α)) : CursorDesk α :=
  inputs.foldl (fun d input => (d.handle input).desk) d

@[simp] theorem after_nil (d : CursorDesk α) : d.after [] = d := rfl

@[simp] theorem after_cons (d : CursorDesk α) (input : CursorInput α) (rest : List (CursorInput α)) :
    d.after (input :: rest) = (d.handle input).desk.after rest := rfl

@[simp] theorem run_nil (d : CursorDesk α) : d.run [] = [] := rfl

@[simp] theorem run_cons (d : CursorDesk α) (input : CursorInput α) (rest : List (CursorInput α)) :
    d.run (input :: rest) = d.handle input :: (d.handle input).desk.run rest := rfl

end CursorDesk

end FrameAtlas
