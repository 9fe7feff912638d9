import FrameAtlas.Geometry
import FrameAtlas.Scalar.Double

namespace FrameAtlas

variable {α : Type}

/-- Measures of the arrow band, in logical pixels. Arrows hang below an anchor line. Without anchors
of its own, the frame of index `i` hangs at the middle of the `i`-th pitch. -/
structure ArrowGeometry (α : Type) where
  framePitch : α
  anchorY : α
  baseArc : α
  slotSpacing : α
  labelGap : α
  labelCharWidth : α
  margin : α
deriving BEq, DecidableEq, Repr

namespace ArrowGeometry

def minPitch : Nat := 12

variable [Scalar α]

protected def default : ArrowGeometry α where
  framePitch := ((24 : Nat) : α)
  anchorY := ((4 : Nat) : α)
  baseArc := ((16 : Nat) : α)
  slotSpacing := ((10 : Nat) : α)
  labelGap := ((10 : Nat) : α)
  labelCharWidth := ((6 : Nat) : α)
  margin := ((8 : Nat) : α)

def forViewport (width : α) (count : Nat) : ArrowGeometry α :=
  if 0 < count ∧ ((0 : Nat) : α) < width then
    { ArrowGeometry.default with
      framePitch := Scalar.larger (width / (count : α)) (minPitch : α) }
  else ArrowGeometry.default

def anchorX (g : ArrowGeometry α) (index : UInt32) : α :=
  (index.toNat : α) * g.framePitch + g.framePitch / ((2 : Nat) : α)

def arcDepth (g : ArrowGeometry α) (slot : Nat) : α :=
  g.baseArc + (slot : α) * Scalar.larger g.slotSpacing ((1 : Nat) : α)

end ArrowGeometry

structure FrameAnchors (α : Type) where
  centers : IndexMap α

instance [BEq α] : BEq (FrameAnchors α) := ⟨fun a b => a.centers == b.centers⟩

namespace FrameAnchors

def empty : FrameAnchors α := ⟨.empty⟩

def ofCenters (centers : List (UInt32 × α)) : FrameAnchors α := ⟨.ofFirst centers⟩

def isEmpty (a : FrameAnchors α) : Bool := a.centers.isEmpty

variable [Scalar α]

/-- The anchor of an index. An index without a center is placed by its distance in pitches from the
nearest index below that has one, or else from the nearest above. Without any centers the nominal
anchor counts. -/
def x (a : FrameAnchors α) (index : UInt32) (g : ArrowGeometry α) : α :=
  match a.centers.get? index with
  | some x => x
  | none => match a.centers.below? index, a.centers.above? index with
    | some (known, x), _ => x + ((index - known).toNat : α) * g.framePitch
    | none, some (known, x) => x - ((known - index).toNat : α) * g.framePitch
    | none, none => g.anchorX index

end FrameAnchors

def ArrowGeometry.record : Record (ArrowGeometry Float) :=
  let d : ArrowGeometry Float := ArrowGeometry.default
  Record.start ArrowGeometry.mk
    |>.field "framePitch" (.default d.framePitch)
    |>.field "anchorY" (.default d.anchorY)
    |>.field "baseArc" (.default d.baseArc)
    |>.field "slotSpacing" (.default d.slotSpacing)
    |>.field "labelGap" (.default d.labelGap)
    |>.field "labelCharWidth" (.default d.labelCharWidth)
    |>.field "margin" (.default d.margin)

instance : Wire (ArrowGeometry Float) where
  encode g := .object [("framePitch", encode g.framePitch), ("anchorY", encode g.anchorY),
    ("baseArc", encode g.baseArc), ("slotSpacing", encode g.slotSpacing),
    ("labelGap", encode g.labelGap), ("labelCharWidth", encode g.labelCharWidth),
    ("margin", encode g.margin)]
  decode := ArrowGeometry.record.decode "ArrowGeometry" 7

end FrameAtlas
