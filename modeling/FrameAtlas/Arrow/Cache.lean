import FrameAtlas.Arrow.Layout

namespace FrameAtlas

variable {α : Type}

/-- A frame list with an identity of its own. Two snapshots of one identity hold one list; equal lists
may have two identities. -/
structure Snapshot where
  identity : Nat
  frames : List Frame
deriving DecidableEq, Repr

structure LayoutKey (α : Type) where
  identity : Nat
  geometry : ArrowGeometry α
  anchors : FrameAnchors α

/-- Keys match if their numbers compare equal; an undefined number matches nothing. -/
def LayoutKey.isMatch [BEq α] (a b : LayoutKey α) : Bool :=
  a.identity == b.identity && a.geometry == b.geometry && a.anchors == b.anchors

structure ArrowCache (α : Type) where
  entry : Option (LayoutKey α × ArrowLayout α)
  computations : Nat

namespace ArrowCache

def empty : ArrowCache α := ⟨none, 0⟩

variable [Scalar α]

def lookup? (c : ArrowCache α) (key : LayoutKey α) : Option (ArrowLayout α) :=
  match c.entry with
  | some (held, layout) => if held.isMatch key then some layout else none
  | none => none

def layout (c : ArrowCache α) (s : Snapshot) (focus : Option UInt32) (g : ArrowGeometry α)
    (anchors : FrameAnchors α) : FocusedArrows α × ArrowCache α :=
  let key : LayoutKey α := ⟨s.identity, g, anchors⟩
  match c.lookup? key with
  | some held => (⟨held, focus⟩, c)
  | none =>
    let computed := ArrowLayout.compute s.frames g anchors
    (⟨computed, focus⟩, ⟨some (key, computed), c.computations + 1⟩)

def invalidate (c : ArrowCache α) : ArrowCache α := { c with entry := none }

end ArrowCache

end FrameAtlas
