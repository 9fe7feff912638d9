import FrameAtlas.Arrow.Layout
import FrameAtlas.Command

namespace FrameAtlas.Overlay

variable {α : Type}

def arrowPath [Scalar α] (arrows : FocusedArrows α) (a : Arrow α) : Command α :=
  .path {
    path := a.path
    color := a.color
    width := ((3 : Nat) : α) / ((2 : Nat) : α)
    dashed := !a.resolved
    label := some a.label
    labelPosition := ⟨a.labelX, a.labelY⟩
    sourceFrame := some a.source
    visible := arrows.isVisible a }

def render [Scalar α] (arrows : FocusedArrows α) : List (Command α) :=
  if arrows.layout.isRenderable then
    .beginGroup "arrows" (some "References")
      :: arrows.layout.arrows.map (arrowPath arrows) ++ [.endGroup]
  else []

def isShown (focus : Option UInt32) (c : PathCommand α) : Bool :=
  c.sourceFrame.isSome && c.sourceFrame == focus

def refocusCommand (focus : Option UInt32) : Command α → Command α
  | .path c => .path { c with visible := isShown focus c }
  | c => c

def isFlipped (focus : Option UInt32) : Command α → Bool
  | .path c => c.visible != isShown focus c
  | _ => false

def refocus (focus : Option UInt32) (commands : List (Command α)) : Nat × List (Command α) :=
  (commands.countP (isFlipped focus), commands.map (refocusCommand focus))

def refocusAll : List (Option UInt32) → List (Command α) → List Nat × List (Command α)
  | [], commands => ([], commands)
  | focus :: later, commands =>
    let (count, commands) := refocus focus commands
    let (counts, commands) := refocusAll later commands
    (count :: counts, commands)

end FrameAtlas.Overlay
