import FrameAtlas.Json.Decode
import FrameAtlas.Scalar

namespace FrameAtlas

variable {α : Type}

structure Point (α : Type) where
  x : α
  y : α
deriving BEq, DecidableEq, Repr

structure Rect (α : Type) where
  x : α
  y : α
  w : α
  h : α
deriving BEq, DecidableEq, Repr

structure Viewport (α : Type) where
  x : α
  y : α
  width : α
  height : α
  pixelRatio : α
deriving BEq, DecidableEq, Repr

namespace Rect

variable [Scalar α]

def right (r : Rect α) : α := r.x + r.w

def centerX (r : Rect α) : α := r.x + r.w / ((2 : Nat) : α)

def containsX (r : Rect α) (x : α) : Bool := decide (r.x ≤ x) && decide (x < r.right)

end Rect

def Viewport.sized [Scalar α] (width height : α) : Viewport α :=
  ⟨((0 : Nat) : α), ((0 : Nat) : α), width, height, ((1 : Nat) : α)⟩

def Point.record : Record (Point Float) :=
  Record.start Point.mk |>.field "x" .required |>.field "y" .required

instance : Wire (Point Float) where
  encode p := .object [("x", encode p.x), ("y", encode p.y)]
  decode := Point.record.decode "Point" 2

def Rect.record : Record (Rect Float) :=
  Record.start Rect.mk |>.field "x" .required |>.field "y" .required
    |>.field "w" .required |>.field "h" .required

instance : Wire (Rect Float) where
  encode r := .object [("x", encode r.x), ("y", encode r.y), ("w", encode r.w), ("h", encode r.h)]
  decode := Rect.record.decode "Rect" 4

def Viewport.record : Record (Viewport Float) :=
  Record.start Viewport.mk |>.field "x" .required |>.field "y" .required
    |>.field "width" .required |>.field "height" .required |>.field "dpr" .required

instance : Wire (Viewport Float) where
  encode v := .object [("x", encode v.x), ("y", encode v.y), ("width", encode v.width),
    ("height", encode v.height), ("dpr", encode v.pixelRatio)]
  decode := Viewport.record.decode "Viewport" 5

end FrameAtlas
