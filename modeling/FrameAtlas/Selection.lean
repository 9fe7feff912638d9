/-!
The one authoritative selection that every surface reads, and who is told of its changes.
Subscribers are kept by number; a call on a subscriber is returned as a notice.
-/

namespace FrameAtlas

structure Notice where
  subscriber : Nat
  position : Nat
deriving DecidableEq, Repr

structure SelectionStore where
  current : Option Nat
  /-- The subscribers in the order in which they subscribed. -/
  subscribers : List Nat
  /-- The number of the next subscriber. -/
  nextId : Nat
deriving DecidableEq, Repr

namespace SelectionStore

def empty : SelectionStore := ⟨none, [], 0⟩

def changes (s : SelectionStore) (position : Nat) : Bool := s.current != some position

def commit (s : SelectionStore) (position : Nat) : SelectionStore × List Notice :=
  if s.changes position then
    ({ s with current := some position }, s.subscribers.map fun id => ⟨id, position⟩)
  else (s, [])

/-- After a commit the position is selected, whether it was before or not; what differs is who is told. -/
theorem commit_eq (s : SelectionStore) (position : Nat) :
    s.commit position =
      ({ s with current := some position },
        if s.current = some position then [] else s.subscribers.map fun id => ⟨id, position⟩) := by
  unfold commit changes
  by_cases hsame : s.current = some position
  · rw [if_pos hsame, ← hsame]
    simp
  · simp [hsame]

def clear (s : SelectionStore) : SelectionStore := { s with current := none }

def subscribe (s : SelectionStore) : Nat × SelectionStore :=
  (s.nextId, { s with subscribers := s.subscribers ++ [s.nextId], nextId := s.nextId + 1 })

def unsubscribe (s : SelectionStore) (id : Nat) : Bool × SelectionStore :=
  (s.subscribers.contains id, { s with subscribers := s.subscribers.filter fun other => other != id })

def summary (s : SelectionStore) : String :=
  let current := match s.current with
    | some position => "Some(" ++ toString position ++ ")"
    | none => "None"
  "SelectionStore \x7b current: " ++ current ++ ", subscribers: " ++ toString s.subscribers.length ++ " \x7d"

end SelectionStore

end FrameAtlas
