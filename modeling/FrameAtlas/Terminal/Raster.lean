import FrameAtlas.Command
import FrameAtlas.Terminal.Arc
import FrameAtlas.Terminal.Screen

/-!
Commands drawn onto the cells of one area of a terminal. Drawing is a list of cell writes; what falls
outside the area writes nothing. A drawing has no outcome if a loop never ends or a row cannot be formed.
-/

namespace FrameAtlas.Terminal

structure Raster where
  x : Nat
  y : Nat
  width : Nat
  height : Nat
deriving DecidableEq, Repr

def cellWidth : Nat := 8

def cellHeight : Nat := 16

variable {α : Type} [Scalar α]

inductive DrawFailure where
  | tooWide
  | endless
deriving DecidableEq, Repr

/-- The visible positions from `start` on, `step` apart, as long as they are below `stop`, put before
those in `reached`; none if `stop` is not reached in that many steps. -/
@[specialize]
def stepsOnto? (visible : α → Bool) (step : α) : Nat → List α → α → α → Option (List α)
  | 0, reached, start, stop => if start < stop then none else some reached
  | n + 1, reached, start, stop =>
    if start < stop then
      stepsOnto? visible step n (if visible start then start :: reached else reached) (start + step) stop
    else some reached

@[specialize]
def steps? (visible : α → Bool) (step : Nat) (start stop : α) : Option (List α) :=
  if start < stop then
    if Scalar.isFinite start && Scalar.isFinite stop then
      -- Two more than the quotient, so that rounding cannot cut the last position off.
      let bound := Scalar.toNat (Scalar.floor ((stop - start) / (step : α))) + 2
      (stepsOnto? visible (step : α) bound [] start stop).map List.reverse
    else none
  else some []

@[specialize]
def sweepWrites (visible : α → Bool) (step : Nat) (start stop : α) (body : α → List CellWrite) :
    Except DrawFailure (List CellWrite) :=
  match steps? visible step start stop with
  | some positions => .ok (positions.flatMap body)
  | none => .error .endless

def maxCells : Nat := UInt64.size - 1

def cellsOf (length : α) (cell : Nat) : Nat :=
  let cells := Scalar.round (length / (cell : α))
  if (maxCells : α) ≤ cells then maxCells else max (Scalar.toNat cells) 1

namespace Raster

def maxCell : Nat := 65535

def clipped (x y width height : Nat) : Raster :=
  ⟨x, y, min width (maxCell - x), min height (maxCell - y)⟩

def viewport (r : Raster) : Viewport α :=
  .sized ((r.width : α) * (cellWidth : α)) ((r.height : α) * (cellHeight : α))

@[specialize]
def cellAt? (position : α) (cell count : Nat) : Option Nat :=
  let n := Scalar.floor (position / (cell : α))
  if ((0 : Nat) : α) ≤ n ∧ n < (count : α) then some (Scalar.toNat n) else none

@[specialize]
def column? (r : Raster) (x : α) : Option Nat := (cellAt? x cellWidth r.width).map fun n => r.x + n

@[specialize]
def row? (r : Raster) (y : α) : Option Nat := (cellAt? y cellHeight r.height).map fun n => r.y + n

@[specialize]
def showsColumn (r : Raster) (x : α) : Bool := (r.column? x).isSome

@[specialize]
def showsRow (r : Raster) (y : α) : Bool := (r.row? y).isSome

def unitX (r : Raster) (column : Nat) : α :=
  (((column - r.x : Nat) : α) + ((1 : Nat) : α) / ((2 : Nat) : α)) * (cellWidth : α)

@[specialize]
def write (r : Raster) (x y : α) (symbol : Char) (style : Style) : List CellWrite :=
  match r.column? x, r.row? y with
  | some column, some row => [⟨column, row, symbol, style⟩]
  | _, _ => []

@[specialize]
def writeRow (r : Raster) (x : α) (row : Nat) (text : List Char) (style : Style) : List CellWrite :=
  (text.mapIdx fun i symbol =>
    (r.column? (x + (i : α) * (cellWidth : α))).map fun column => ⟨column, row, symbol, style⟩).reduceOption

@[specialize]
def writeText (r : Raster) (x y : α) (text : List Char) (style : Style) : List CellWrite :=
  match r.row? y with
  | none => []
  | some row => r.writeRow x row text style

def plain (color : Color) : Style := ⟨.ofColor color, none, false⟩

def maxPadding : Nat := 65535

/-- The most columns that a row of full cells can have: it takes four bytes for each, and no more than half of what
machine words count. -/
def maxColumns : Nat := (Nat.pow 2 63 - 1) / 4

/-- A row of a rectangle, if it can be formed: the label on the first row if that has room for it, and full cells on
the others. -/
def rectRow (columns row : Nat) (label : String) : Option (List Char) :=
  if row = 0 ∧ label.utf8ByteSize + 2 ≤ columns then
    if columns - 1 ≤ maxPadding then
      some ((' ' :: label.toList ++ List.replicate (columns - 1 - label.length) ' ').take columns)
    else none
  else if columns ≤ maxColumns then some (List.replicate columns '█')
  else none

def rectStyle (c : RectCommand α) : Style :=
  if c.current then ⟨.ofColor c.color, some .white, true⟩ else plain c.color

@[specialize]
def rowWrites (r : Raster) (c : RectCommand α) (row : Nat) : Except DrawFailure (List CellWrite) :=
  match rectRow (cellsOf c.rect.w cellWidth) row (c.label.getD "") with
  | some text => .ok (r.writeText c.rect.x (c.rect.y + (row : α) * (cellHeight : α)) text (rectStyle c))
  | none => .error .tooWide

@[specialize]
def rectWrites (r : Raster) (c : RectCommand α) : Except DrawFailure (List CellWrite) :=
  ((List.range (cellsOf c.rect.h cellHeight)).mapM (r.rowWrites c)).map List.flatten

@[specialize]
def lineWrites (r : Raster) (c : LineCommand α) : Except DrawFailure (List CellWrite) :=
  let style := plain c.color
  if Scalar.distance c.start.x c.stop.x < (cellWidth : α) / ((2 : Nat) : α) then
    sweepWrites r.showsRow cellHeight (Scalar.smaller c.start.y c.stop.y) (Scalar.larger c.start.y c.stop.y)
      fun y => r.write c.start.x y '│' style
  else
    sweepWrites r.showsColumn cellWidth (Scalar.smaller c.start.x c.stop.x) (Scalar.larger c.start.x c.stop.x)
      fun x => r.write x c.start.y '─' style

@[specialize]
def textWrites (r : Raster) (c : TextCommand α) : List CellWrite :=
  let width : α := (c.text.length : α) * (cellWidth : α)
  let start := match c.align with
    | .left => c.position.x
    | .center => c.position.x - width / ((2 : Nat) : α)
    | .right => c.position.x - width
  r.writeText start (c.position.y - (cellHeight : α) / ((4 : Nat) : α)) c.text.toList (plain c.color)

@[specialize]
def arcWrites (r : Raster) (arc : ArcBracket α) (dashed : Bool) (style : Style) :
    Except DrawFailure (List CellWrite) := do
  let left := Scalar.smaller arc.sourceX arc.targetX
  let right := Scalar.larger arc.sourceX arc.targetX
  let posts ← sweepWrites r.showsRow cellHeight arc.anchorY arc.peakY fun y =>
    r.write left y '│' style ++ r.write right y '│' style
  let bar ← sweepWrites r.showsColumn cellWidth (left + (cellWidth : α)) right fun x =>
    r.write x arc.peakY (if dashed then '╌' else '─') style
  return posts ++ bar ++ r.write left arc.peakY '╰' style ++ r.write right arc.peakY '╯' style

@[specialize]
def labelWrites (r : Raster) (c : PathCommand α) : List CellWrite :=
  match c.label with
  | none => []
  | some label =>
    r.writeText (c.labelPosition.x - (label.utf8ByteSize : α) * (cellWidth : α) / ((2 : Nat) : α))
      c.labelPosition.y label.toList (plain c.color)

@[specialize]
def pathWrites (r : Raster) (c : PathCommand α) : Except DrawFailure (List CellWrite) :=
  if c.visible then
    match (ArcBracket.ofPath? c.path : Option (ArcBracket α)) with
    | none => .ok []
    | some arc => (r.arcWrites arc c.dashed (plain c.color)).map (· ++ r.labelWrites c)
  else .ok []

@[specialize]
def commandWrites (r : Raster) : Command α → Except DrawFailure (List CellWrite)
  | .rect c => r.rectWrites c
  | .line c => r.lineWrites c
  | .text c => .ok (r.textWrites c)
  | .path c => r.pathWrites c
  | .beginGroup _ _ => .ok []
  | .endGroup => .ok []

@[specialize]
def writes (r : Raster) (commands : List (Command α)) : Except DrawFailure (List CellWrite) :=
  (commands.mapM r.commandWrites).map List.flatten

@[specialize]
def draw (r : Raster) (commands : List (Command α)) (s : Screen) : Except DrawFailure Screen :=
  (r.writes commands).map s.putAll

def blankScreen (r : Raster) : Screen := .empty (r.x + r.width) (r.y + r.height)

end Raster

end FrameAtlas.Terminal
