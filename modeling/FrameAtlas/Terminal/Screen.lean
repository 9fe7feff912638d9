import FrameAtlas.Color

namespace FrameAtlas.Terminal

inductive CellColor where
  | reset | black | red | green | yellow | blue | magenta | cyan | gray | darkGray
  | lightGreen | lightBlue | white
  | rgb (red green blue : Nat)
deriving DecidableEq, Repr

def CellColor.name : CellColor → String
  | reset => "Reset"
  | black => "Black"
  | red => "Red"
  | green => "Green"
  | yellow => "Yellow"
  | blue => "Blue"
  | magenta => "Magenta"
  | cyan => "Cyan"
  | gray => "Gray"
  | darkGray => "DarkGray"
  | lightGreen => "LightGreen"
  | lightBlue => "LightBlue"
  | white => "White"
  | rgb r g b => "Rgb(" ++ toString r ++ ", " ++ toString g ++ ", " ++ toString b ++ ")"

def CellColor.ofColor : Color → CellColor
  | .frameIntra => red
  | .frameInter => blue
  | .frameBidir => green
  | .frameUnknown => gray
  | .levelBase => rgb 255 167 38
  | .level1 => magenta
  | .level2 => cyan
  | .level3 => lightGreen
  | .levelHigh => rgb 141 110 99
  | .gopBoundary => yellow
  | .currentFrame => white
  | .cursor => white
  | .arrowDangling => darkGray
  | .laneBackground => black
  | .laneBorder => darkGray
  | .textPrimary => white
  | .textSecondary => gray
  | .textMuted => darkGray
  | .background => black
  | .border => darkGray
  | .minimapBackground => rgb 34 34 34
  | .minimapViewport => lightBlue
  | .thumbnailBackground => rgb 34 34 34

structure Style where
  foreground : CellColor
  background : Option CellColor
  bold : Bool
deriving DecidableEq, Repr

structure Cell where
  symbol : Char
  foreground : CellColor
  background : CellColor
  bold : Bool
deriving DecidableEq, Repr

namespace Cell

def blank : Cell := ⟨' ', .reset, .reset, false⟩

def write (c : Cell) (symbol : Char) (style : Style) : Cell :=
  ⟨symbol, style.foreground, style.background.getD c.background, c.bold || style.bold⟩

def sameStyle (a b : Cell) : Bool :=
  a.foreground == b.foreground && a.background == b.background && a.bold == b.bold

end Cell

structure Screen where
  width : Nat
  height : Nat
  cells : Array Cell
deriving DecidableEq, Repr

structure CellWrite where
  column : Nat
  row : Nat
  symbol : Char
  style : Style
deriving DecidableEq, Repr

namespace Screen

def empty (width height : Nat) : Screen := ⟨width, height, Array.replicate (width * height) .blank⟩

def get? (s : Screen) (column row : Nat) : Option Cell :=
  if column < s.width then s.cells[row * s.width + column]? else none

def put (s : Screen) (w : CellWrite) : Screen :=
  if w.column < s.width then
    { s with cells := s.cells.modify (w.row * s.width + w.column) fun c => c.write w.symbol w.style }
  else s

def putAll (s : Screen) (writes : List CellWrite) : Screen := writes.foldl put s

def row (s : Screen) (row : Nat) : List Cell :=
  (List.range s.width).filterMap fun column => s.get? column row

def rows (s : Screen) : List String :=
  (List.range s.height).map fun r => String.ofList ((s.row r).map Cell.symbol)

structure Run where
  row : Nat
  start : Nat
  stop : Nat
  cell : Cell

def runsOf (row : Nat) : Nat → List Cell → List Run
  | _, [] => []
  | column, c :: rest => match runsOf row (column + 1) rest with
    | [] => [⟨row, column, column + 1, c⟩]
    | r :: runs =>
      if c.sameStyle r.cell then { r with start := column } :: runs
      else ⟨row, column, column + 1, c⟩ :: r :: runs

def styledRuns (s : Screen) : List Run :=
  (List.range s.height).flatMap fun r =>
    (runsOf r 0 (s.row r)).filter fun run => !run.cell.sameStyle .blank

end Screen

end FrameAtlas.Terminal
