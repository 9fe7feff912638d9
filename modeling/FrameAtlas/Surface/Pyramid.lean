import FrameAtlas.Command
import FrameAtlas.Temporal

namespace FrameAtlas

structure PyramidGrid (α : Type) where
  origin : Point α
  rowHeight : α
  columnWidth : α
  columns : IndexMap Nat

namespace PyramidGrid

variable {α : Type}

def labelWidth : Nat := 28

def minRowHeight : Nat := 8

def maxRowHeight : Nat := 24

def minColumnWidth : Nat := 4

def cellGap : Nat := 1

variable [Scalar α]

def compute (analysis : TemporalAnalysis α) (v : Viewport α) : PyramidGrid α :=
  let rows := max analysis.levels.length 1
  let columns := analysis.frameMap.mapRanked fun rank _ => rank
  let gridWidth := Scalar.positivePart (v.width - (labelWidth : α))
  { origin := ⟨v.x + (labelWidth : α), v.y⟩
    rowHeight := Scalar.clamp (minRowHeight : α) (maxRowHeight : α) (v.height / (rows : α))
    columnWidth := Scalar.larger (gridWidth / (max columns.size 1 : Nat)) (minColumnWidth : α)
    columns := columns }

def cell? (g : PyramidGrid α) (row : Nat) (index : UInt32) : Option (Rect α) :=
  (g.columns.get? index).map fun column =>
    ⟨g.origin.x + (column : α) * g.columnWidth, g.origin.y + (row : α) * g.rowHeight,
      g.columnWidth - (cellGap : α), g.rowHeight - (cellGap : α)⟩

def framePositions (g : PyramidGrid α) : IndexMap α :=
  g.columns.mapRanked fun _ (column : Nat) =>
    g.origin.x + ((column : α) + ((1 : Nat) : α) / ((2 : Nat) : α)) * g.columnWidth

end PyramidGrid

namespace Pyramid

variable {α : Type} [Scalar α]

def fontSize : Nat := 9

def levelName (level : UInt32) : String := "T" ++ toString level.toNat

def rowLabel (v : Viewport α) (rowHeight : α) (row : Nat) (level : UInt32) : Command α :=
  let y := v.y + (row : α) * rowHeight
  .text {
    position := ⟨v.x + ((4 : Nat) : α),
      y + rowHeight / ((2 : Nat) : α) + (fontSize : α) / ((3 : Nat) : α)⟩
    text := levelName level
    color := .textSecondary
    fontSize := (fontSize : α)
    align := .left }

def frameCell (r : Rect α) (level : UInt32) (f : LevelFrame) (isCurrent : Bool) : Command α :=
  .rect {
    rect := r
    color := if f.isKeyframe then .frameIntra else Color.ofLevel level
    borderColor := if isCurrent then some .currentFrame else none
    label := some ("#" ++ toString f.index.toNat ++ " " ++ levelName level ++ " refs:"
      ++ toString f.refs.length)
    frameIndex := some f.index
    current := isCurrent }

def rowCommands (g : PyramidGrid α) (v : Viewport α) (current : Option UInt32) (row : Nat)
    (l : TemporalLevel) : List (Command α) :=
  rowLabel v g.rowHeight row l.level
    :: l.frames.filterMap fun f =>
      (g.cell? row f.index).map fun r => frameCell r l.level f (current == some f.index)

def boundaryLine (v : Viewport α) (gridHeight : α) (r : Rect α) : Command α :=
  .line ⟨⟨r.x, v.y⟩, ⟨r.x, v.y + gridHeight⟩, .gopBoundary, ((1 : Nat) : α)⟩

def render (analysis : TemporalAnalysis α) (v : Viewport α) (current : Option UInt32) :
    List (Command α) :=
  if analysis.isEmpty then []
  else
    let g := PyramidGrid.compute analysis v
    let gridHeight := (analysis.levels.length : α) * g.rowHeight
    .beginGroup "pyramid" (some "Temporal Layers")
      :: .rect ⟨⟨v.x, v.y, v.width, gridHeight⟩, .laneBackground, some .laneBorder, none, none, false⟩
      :: ((analysis.levels.mapIdx fun row l => rowCommands g v current row l).flatten
        ++ analysis.gopBoundaries.filterMap (fun b => (g.cell? 0 b).map (boundaryLine v gridHeight))
        ++ [.endGroup])

end Pyramid

end FrameAtlas
