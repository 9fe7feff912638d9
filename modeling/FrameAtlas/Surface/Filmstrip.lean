import FrameAtlas.Command
import FrameAtlas.Surface.Minimap
import FrameAtlas.Temporal

namespace FrameAtlas.Filmstrip

variable {α : Type}

def thumbWidth : Nat := 64

def thumbHeight : Nat := 36

def thumbGap : Nat := 4

def captionHeight : Nat := 12

def fontSize : Nat := 9

def window (count capacity : Nat) (current : Option Nat) : PositionRange :=
  if count = 0 ∨ capacity = 0 then ⟨0, 0⟩
  else
    let size := min capacity count
    let center := (current.filter fun c => c < count).getD 0
    let start := min (center - size / 2) (count - size)
    ⟨start, start + size⟩

variable [Scalar α]

def capacity (width : α) : Nat :=
  Scalar.toNat (Scalar.floor ((width + (thumbGap : α)) / ((thumbWidth + thumbGap : Nat) : α)))

def card (analysis : TemporalAnalysis α) (v : Viewport α) (current : Option Nat) (place position : Nat)
    (f : Frame) : List (Command α) :=
  let x := v.x + (place : α) * ((thumbWidth + thumbGap : Nat) : α)
  let isCurrent := current == some position
  let bottom := v.y + (thumbHeight : α) + (captionHeight : α)
  let boundaryX := x - (thumbGap : α) / ((2 : Nat) : α)
  .rect {
      rect := ⟨x, v.y, (thumbWidth : α), (thumbHeight : α)⟩
      color := .thumbnailBackground
      borderColor := some (if isCurrent then .currentFrame else Color.ofKind f.kind)
      label := some ("Frame " ++ toString f.index.toNat)
      frameIndex := some f.index
      current := isCurrent }
    :: ((if analysis.isBoundary f.index then
          [.line ⟨⟨boundaryX, v.y⟩, ⟨boundaryX, bottom⟩, .gopBoundary, ((2 : Nat) : α)⟩]
        else [])
      ++ [.text {
            position := ⟨x + (thumbWidth : α) / ((2 : Nat) : α), bottom - ((2 : Nat) : α)⟩
            text := f.kind.letter ++ " #" ++ toString f.index.toNat ++ " T" ++ toString f.level.toNat
            color := if isCurrent then .textPrimary else .textMuted
            fontSize := (fontSize : α)
            align := .center }])

def render (frames : List Frame) (analysis : TemporalAnalysis α) (v : Viewport α)
    (current : Option Nat) : List (Command α) :=
  let shown := window frames.length (max (capacity v.width) 1) current
  let cards := Minimap.slice frames shown
  if cards.isEmpty then []
  else
    .beginGroup "filmstrip" (some "Filmstrip")
      :: (cards.mapIdx fun place f => card analysis v current place (shown.start + place) f).flatten
      ++ [.endGroup]

end FrameAtlas.Filmstrip
