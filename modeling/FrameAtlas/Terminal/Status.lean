import FrameAtlas.Session

namespace FrameAtlas.Terminal

variable {α : Type}

def indexList (indices : List UInt32) : String :=
  "[" ++ ", ".intercalate (indices.map fun i => toString i.toNat) ++ "]"

def frameStatus (references : ReferenceSummary) (f : Frame) : String :=
  let missing := f.refs.countP fun target => references.isDangling f.index target
  "#" ++ toString f.index.toNat ++ " " ++ f.kind.letter ++ " T" ++ toString f.level.toNat
    ++ " refs " ++ indexList f.refs
    ++ " | used by " ++ indexList (references.referencedBy f.index) ++ " "
    ++ (if missing = 0 then "" else "| " ++ toString missing ++ " missing ref(s) ")

def statusLine (s : Session α) (surface : SurfaceKind) : String :=
  " gopview: " ++ toString s.length ++ " frames | " ++ surface.name ++ " | "
    ++ match s.currentFrame with
      | some f => frameStatus s.references f
      | none => "no frame selected "

end FrameAtlas.Terminal
