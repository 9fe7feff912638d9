import FrameAtlas.Command
import FrameAtlas.Strip
import FrameAtlas.Temporal

namespace FrameAtlas.Timeline

variable {α : Type} [Scalar α]

def minLabelWidth : Nat := 14

def fontSize : Nat := 9

def markerWidth : Nat := 2

def cell (f : Frame) (r : Rect α) (isCurrent : Bool) : Command α :=
  .rect {
    rect := r
    color := Color.ofKind f.kind
    borderColor := some (if isCurrent then .currentFrame else .border)
    label := some (f.kind.letter ++ " #" ++ toString f.index.toNat)
    frameIndex := some f.index
    current := isCurrent }

def boundaryLine (r : Rect α) : Command α :=
  .line ⟨⟨r.x, r.y⟩, ⟨r.x, r.y + r.h⟩, .gopBoundary, (markerWidth : α)⟩

def cellText (f : Frame) (r : Rect α) : Command α :=
  .text {
    position := ⟨r.centerX, r.y + r.h / ((2 : Nat) : α) + (fontSize : α) / ((3 : Nat) : α)⟩
    text := f.kind.letter
    color := .textPrimary
    fontSize := (fontSize : α)
    align := .center }

def frameCommands (analysis : TemporalAnalysis α) (current : Option Nat) (position : Nat) (f : Frame)
    (r : Rect α) : List (Command α) :=
  cell f r (current == some position)
    :: ((if analysis.isBoundary f.index then [boundaryLine r] else [])
      ++ (if (minLabelWidth : α) ≤ r.w then [cellText f r] else []))

def lane (container : Rect α) : Command α :=
  .rect ⟨container, .laneBackground, some .laneBorder, none, none, false⟩

def cursorLine (container : Rect α) (cursorX : α) : Command α :=
  let x := container.x + cursorX
  .line ⟨⟨x, container.y⟩, ⟨x, container.y + container.h⟩, .cursor, (markerWidth : α)⟩

def render (frames : List Frame) (analysis : TemporalAnalysis α) (strip : Strip α)
    (current : Option Nat) (cursorX : α) : List (Command α) :=
  if frames.isEmpty || strip.elements.isEmpty then []
  else
    .beginGroup "timeline" (some "Timeline") :: lane strip.container
      :: ((frames.zip strip.elements).mapIdx fun position p =>
            frameCommands analysis current position p.1 p.2).flatten
      ++ [cursorLine strip.container cursorX, .endGroup]

end FrameAtlas.Timeline
