/-!
Slots for spans of frame indices: spans that share an index get different slots, and the slots are as
few as possible. Spans are visited by start, then end, and each takes the lowest slot whose last span
ended strictly before it starts.
-/

namespace FrameAtlas

structure IndexSpan where
  start : UInt32
  stop : UInt32
deriving DecidableEq, Repr

namespace IndexSpan

def between (a b : UInt32) : IndexSpan := if a ≤ b then ⟨a, b⟩ else ⟨b, a⟩

def visitedBefore (a b : IndexSpan) : Bool :=
  decide (a.start < b.start) || (a.start == b.start && decide (a.stop ≤ b.stop))

end IndexSpan

/-- The slots of spans in visiting order, where `ends` holds the end of the last span of each slot. -/
def packSlots : List UInt32 → List IndexSpan → List Nat
  | _, [] => []
  -- A span that starts where another ends shares that index, so the comparison is strict.
  | ends, s :: rest => match ends.findIdx? fun last => last < s.start with
    | some slot => slot :: packSlots (ends.set slot s.stop) rest
    | none => ends.length :: packSlots (ends ++ [s.stop]) rest

def visitOrder (spans : List IndexSpan) : List (IndexSpan × Nat) :=
  spans.zipIdx.mergeSort fun a b => a.1.visitedBefore b.1

def assignSlots (spans : List IndexSpan) : List Nat :=
  let visited := visitOrder spans
  let slots := packSlots [] (visited.map (·.1))
  let placed := (visited.map (·.2)).zip slots
  (List.range spans.length).map fun position =>
    ((placed.find? fun p => p.1 == position).map (·.2)).getD 0

end FrameAtlas
