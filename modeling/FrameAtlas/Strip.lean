import FrameAtlas.Cursor
import FrameAtlas.Frame
import FrameAtlas.Search

namespace FrameAtlas

variable {α : Type}

inductive StripSizing where
  | uniform
  /-- Widths follow coded bytes; frames of unknown size get the mean of the known ones. -/
  | bySize
deriving DecidableEq, Repr

def StripSizing.all : List StripSizing := [.uniform, .bySize]

def StripSizing.name : StripSizing → String
  | .uniform => "Uniform"
  | .bySize => "BySize"

instance : Wire StripSizing where
  encode s := .text s.name
  decode := decodeNamed StripSizing.all StripSizing.name

structure Strip (α : Type) where
  container : Rect α
  elements : List (Rect α)

namespace Strip

def height : Nat := 28

def minElementWidth : Nat := 2

variable [Scalar α]

def meanSize (known : List α) : α :=
  if known.isEmpty then ((1 : Nat) : α) else Scalar.sum known / (known.length : α)

def sizeOf? (f : Frame) : Option α := f.size.map fun s => (s.toNat : α)

def weights (frames : List Frame) : StripSizing → List α
  | .uniform => frames.map fun _ => ((1 : Nat) : α)
  | .bySize =>
    let fallback := meanSize (frames.filterMap sizeOf?)
    frames.map fun f => Scalar.larger ((sizeOf? f).getD fallback) ((1 : Nat) : α)

def tile (y h : α) : α → List α → List (Rect α)
  | _, [] => []
  | x, w :: rest => ⟨x, y, w, h⟩ :: tile y h (x + w) rest

def elementWidth (spare total weight : α) : α := (minElementWidth : α) + spare * weight / total

def compute (frames : List Frame) (v : Viewport α) (sizing : StripSizing) : Strip α :=
  let h := Scalar.smaller (height : α) v.height
  let container : Rect α := ⟨v.x, v.y, Scalar.positivePart v.width, h⟩
  let ws : List α := weights frames sizing
  let spare := Scalar.positivePart (container.w - (minElementWidth : α) * (frames.length : α))
  ⟨container, tile v.y h v.x (ws.map (elementWidth spare (Scalar.sum ws)))⟩

def hitTest (s : Strip α) (x : α) : Option Nat :=
  -- The only element that can hold `x` is the first one that does not end at or before it.
  let position := partitionPoint (fun r => decide (r.right ≤ x)) s.elements
  match s.elements[position]? with
  | some r => if r.containsX x then some position else none
  | none => none

def bounds (s : Strip α) : StripBounds α := ⟨s.container, fun position => s.elements[position]?⟩

end Strip

end FrameAtlas
