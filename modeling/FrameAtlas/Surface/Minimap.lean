import FrameAtlas.Command
import FrameAtlas.Temporal

namespace FrameAtlas

structure PositionRange where
  start : Nat
  stop : Nat
deriving DecidableEq, Repr

namespace Minimap

variable {α : Type} [Scalar α]

def columnWidth : Nat := 3

def tickHeight : Nat := 4

def markerWidth : Nat := 2

def bucket (count columns column : Nat) : PositionRange :=
  ⟨column * count / columns, (column + 1) * count / columns⟩

def slice (frames : List Frame) (r : PositionRange) : List Frame :=
  (frames.drop r.start).take (r.stop - r.start)

def columnCount (width : α) (count : Nat) : Nat :=
  min (max (Scalar.toNat (Scalar.floor (width / (columnWidth : α)))) 1) count

def bytes (frames : List Frame) : α :=
  Scalar.sum (frames.filterMap fun f => f.size.map fun s => (s.toNat : α))

def maxLevel (frames : List Frame) : UInt32 :=
  frames.foldl (fun level f => if level < f.level then f.level else level) 0

def barColor (frames : List Frame) : Color :=
  if frames.any Frame.isKeyframe then .frameIntra else Color.ofLevel (maxLevel frames)

/-- The part of the bar area that a column's bytes fill: at least 15 percent, and all of it where no
sizes are known. -/
def barFraction (maxBytes columnBytes : α) : α :=
  if ((0 : Nat) : α) < maxBytes then
    Scalar.larger (columnBytes / maxBytes) (((15 : Nat) : α) / ((100 : Nat) : α))
  else ((1 : Nat) : α)

def plainRect (r : Rect α) (color : Color) (border : Option Color) : Command α :=
  .rect ⟨r, color, border, none, none, false⟩

def bar (v : Viewport α) (colWidth maxBytes : α) (column : Nat) (frames : List Frame) : Command α :=
  let h := (v.height - (tickHeight : α)) * barFraction maxBytes (bytes frames)
  plainRect ⟨v.x + (column : α) * colWidth, v.y + v.height - h, colWidth, h⟩ (barColor frames) none

def positionX (v : Viewport α) (frameWidth : α) (position : Nat) : α :=
  v.x + (position : α) * frameWidth

def tick (v : Viewport α) (frameWidth : α) (position : Nat) : Command α :=
  let x := positionX v frameWidth position
  .line ⟨⟨x, v.y⟩, ⟨x, v.y + (tickHeight : α)⟩, .gopBoundary, ((1 : Nat) : α)⟩

def window (v : Viewport α) (frameWidth : α) (count : Nat) (visible : PositionRange) :
    List (Command α) :=
  let start := min visible.start count
  let stop := min (max visible.stop start) count
  if start < stop then
    let left := positionX v frameWidth start
    let width := positionX v frameWidth stop - left
    [plainRect ⟨left, v.y, width, v.height⟩ .minimapViewport (some .border)]
  else []

def marker (v : Viewport α) (frameWidth : α) (position : Nat) (f : Frame) : Command α :=
  let center := positionX v frameWidth position + frameWidth / ((2 : Nat) : α)
  .rect {
    rect := ⟨center - (markerWidth : α) / ((2 : Nat) : α), v.y, (markerWidth : α), v.height⟩
    color := .currentFrame
    borderColor := none
    label := none
    frameIndex := some f.index
    current := true }

/-- The minimap of a frame list; nothing is drawn into a viewport without area. `visible` and
`current` are positions in the list. -/
def render (frames : List Frame) (analysis : TemporalAnalysis α) (v : Viewport α)
    (visible : PositionRange) (current : Option Nat) : List (Command α) :=
  let count := frames.length
  if frames.isEmpty || decide (v.width ≤ ((0 : Nat) : α)) || decide (v.height ≤ ((0 : Nat) : α)) then []
  else
    let columns := columnCount v.width count
    let colWidth := v.width / (columns : α)
    let frameWidth := v.width / (count : α)
    let buckets := (List.range columns).map fun column => slice frames (bucket count columns column)
    let maxBytes := (buckets.map bytes).foldl Scalar.larger ((0 : Nat) : α)
    .beginGroup "minimap" (some "Minimap")
      :: plainRect ⟨v.x, v.y, v.width, v.height⟩ .minimapBackground none
      :: ((buckets.mapIdx fun column b => if b.isEmpty then [] else [bar v colWidth maxBytes column b]).flatten
        ++ (frames.mapIdx fun position f =>
            if analysis.isBoundary f.index then [tick v frameWidth position] else []).flatten
        ++ window v frameWidth count visible
        ++ (match current with
            | none => []
            | some position => match frames[position]? with
              | some f => [marker v frameWidth position f]
              | none => [])
        ++ [.endGroup])

end Minimap

end FrameAtlas
