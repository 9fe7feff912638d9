import FrameAtlas.Arrow.Geometry
import FrameAtlas.Arrow.Slots
import FrameAtlas.Color

namespace FrameAtlas

variable {α : Type}

/-- A reference with the label of its arrow: `L0` for targets not above the source and `L1` for the
others, with the rank among the references of that side. -/
structure Edge where
  source : UInt32
  target : UInt32
  label : String
deriving DecidableEq, Repr

def edgeLabel (side rank : Nat) : String := "L" ++ toString side ++ "[" ++ toString rank ++ "]"

def edgesFrom (source : UInt32) : Nat → Nat → List UInt32 → List Edge
  | _, _, [] => []
  | past, future, target :: rest =>
    if target ≤ source then
      ⟨source, target, edgeLabel 0 past⟩ :: edgesFrom source (past + 1) future rest
    else ⟨source, target, edgeLabel 1 future⟩ :: edgesFrom source past (future + 1) rest

def Frame.edges (f : Frame) : List Edge := edgesFrom f.index 0 0 f.refs

def edges (frames : List Frame) : List Edge := frames.flatMap Frame.edges

def Edge.span (e : Edge) : IndexSpan := .between e.source e.target

structure Arrow (α : Type) where
  source : UInt32
  target : UInt32
  slot : Nat
  label : String
  color : Color
  path : String
  sourceX : α
  sourceY : α
  labelX : α
  labelY : α
  resolved : Bool
deriving DecidableEq, Repr

structure ArrowLayout (α : Type) where
  arrows : List (Arrow α)
  width : α
  height : α
  slotCount : Nat
deriving DecidableEq, Repr

namespace Arrow

variable [Scalar α]

def arcPath (sourceX targetX anchorY controlY : α) : String :=
  let point (x y : α) := Scalar.oneDecimal x ++ "," ++ Scalar.oneDecimal y
  "M " ++ point sourceX anchorY ++ " C " ++ point sourceX controlY ++ " " ++ point targetX controlY
    ++ " " ++ point targetX anchorY

def labelHalfWidth (g : ArrowGeometry α) (label : String) : α :=
  (label.length : α) * g.labelCharWidth / ((2 : Nat) : α)

/-- The arrow of an edge in a slot. The arc peaks at three quarters of its depth, and the label, placed
under the peak, never starts left of zero. -/
def ofEdge (g : ArrowGeometry α) (anchors : FrameAnchors α) (levels : IndexMap UInt32) (e : Edge)
    (slot : Nat) : Arrow α :=
  let sourceX := anchors.x e.source g
  let targetX := anchors.x e.target g
  let depth := g.arcDepth slot
  let level? := levels.get? e.target
  { source := e.source
    target := e.target
    slot := slot
    label := e.label
    color := match level? with
      | some level => Color.ofLevel level
      | none => .arrowDangling
    path := arcPath sourceX targetX g.anchorY (g.anchorY + depth)
    sourceX := sourceX
    sourceY := g.anchorY
    labelX := Scalar.larger ((sourceX + targetX) / ((2 : Nat) : α)) (labelHalfWidth g e.label)
    labelY := g.anchorY + depth * (((3 : Nat) : α) / ((4 : Nat) : α)) + g.labelGap
    resolved := level?.isSome }

def extendRight (g : ArrowGeometry α) (anchors : FrameAnchors α) (reach : α) (a : Arrow α) : α :=
  Scalar.larger
    (Scalar.larger (Scalar.larger reach a.sourceX) (anchors.x a.target g))
    (a.labelX + labelHalfWidth g a.label)

end Arrow

namespace ArrowLayout

variable [Scalar α]

def empty : ArrowLayout α := ⟨[], ((0 : Nat) : α), ((0 : Nat) : α), 0⟩

def levelsByIndex (frames : List Frame) : IndexMap UInt32 :=
  .ofList (frames.map fun f => (f.index, f.level))

def compute (frames : List Frame) (g : ArrowGeometry α) (anchors : FrameAnchors α) : ArrowLayout α :=
  let es := edges frames
  if es.isEmpty then empty
  else
    let slots := assignSlots (es.map Edge.span)
    let levels := levelsByIndex frames
    let arrows := es.zipWith (Arrow.ofEdge g anchors levels) slots
    let right := arrows.foldl (Arrow.extendRight g anchors) ((0 : Nat) : α)
    let bottom := arrows.foldl (fun reach a => Scalar.larger reach a.labelY) ((0 : Nat) : α)
    { arrows := arrows
      width := right + g.margin
      height := bottom + g.margin
      slotCount := slots.foldl (fun n slot => max n (slot + 1)) 0 }

def computeNominal (frames : List Frame) (g : ArrowGeometry α) : ArrowLayout α :=
  compute frames g .empty

def isRenderable (l : ArrowLayout α) : Bool :=
  !l.arrows.isEmpty && decide (((0 : Nat) : α) < l.width)

end ArrowLayout

structure FocusedArrows (α : Type) where
  layout : ArrowLayout α
  focus : Option UInt32

namespace FocusedArrows

def isVisible (f : FocusedArrows α) (a : Arrow α) : Bool := f.focus == some a.source

def visible (f : FocusedArrows α) : List (Arrow α) := f.layout.arrows.filter f.isVisible

def visibility (f : FocusedArrows α) : List Bool := f.layout.arrows.map f.isVisible

end FocusedArrows

def Arrow.record : Record (Arrow Float) :=
  Record.start Arrow.mk
    |>.field "sourceFrameIndex" .required |>.field "targetFrameIndex" .required
    |>.field "slotIndex" .required |>.field "label" .required |>.field "color" .required
    |>.field "pathData" .required |>.field "sourceX" .required |>.field "sourceY" .required
    |>.field "labelX" .required |>.field "labelY" .required |>.field "targetResolved" .required

instance : Wire (Arrow Float) where
  encode a := .object [("sourceFrameIndex", encode a.source), ("targetFrameIndex", encode a.target),
    ("slotIndex", encode a.slot), ("label", encode a.label), ("color", encode a.color),
    ("pathData", encode a.path), ("sourceX", encode a.sourceX), ("sourceY", encode a.sourceY),
    ("labelX", encode a.labelX), ("labelY", encode a.labelY), ("targetResolved", encode a.resolved)]
  decode := Arrow.record.decode "ArrowDescriptor" 11

def ArrowLayout.record : Record (ArrowLayout Float) :=
  Record.start ArrowLayout.mk
    |>.field "allArrowData" .required |>.field "svgWidth" .required |>.field "svgHeight" .required
    |>.field "slotCount" .required

def ArrowLayout.members (l : ArrowLayout Float) : List (String × Json) :=
  [("allArrowData", encode l.arrows), ("svgWidth", encode l.width), ("svgHeight", encode l.height),
    ("slotCount", encode l.slotCount)]

instance : Wire (ArrowLayout Float) where
  encode l := .object l.members
  decode := ArrowLayout.record.decode "ArrowLayoutResult" 4

end FrameAtlas
