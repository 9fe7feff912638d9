import FrameAtlas.Scalar
import FrameAtlas.Text.Blank

namespace FrameAtlas.Terminal

structure ArcBracket (α : Type) where
  sourceX : α
  targetX : α
  anchorY : α
  peakY : α
deriving DecidableEq, Repr

namespace ArcBracket

variable {α : Type} [Scalar α]

def literals (path : String) : List NumberLiteral :=
  (Text.pieces (fun c => Text.isBlank c || c == ',') path.toList).filterMap NumberLiteral.ofText?

/-- The arc of a path with at least five numbers: it peaks at three quarters of its depth. The third number counts as
a number and for nothing else. -/
def ofPath? (path : String) : Option (ArcBracket α) :=
  match literals path with
  | sourceX :: anchorY :: _ :: controlY :: targetX :: _ => do
    let sourceX ← Scalar.ofLiteral? sourceX
    let anchorY ← Scalar.ofLiteral? anchorY
    let controlY ← Scalar.ofLiteral? controlY
    let targetX ← Scalar.ofLiteral? targetX
    return ⟨sourceX, targetX, anchorY,
      anchorY + (controlY - anchorY) * (((3 : Nat) : α) / ((4 : Nat) : α))⟩
  | _ => none

end ArcBracket

end FrameAtlas.Terminal
