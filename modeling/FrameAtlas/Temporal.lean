import FrameAtlas.Frame
import FrameAtlas.Search

namespace FrameAtlas

variable {α : Type}

structure LevelFrame where
  index : UInt32
  isKeyframe : Bool
  refs : List UInt32
deriving DecidableEq, Repr

structure TemporalLevel where
  level : UInt32
  frames : List LevelFrame
deriving DecidableEq, Repr

structure LevelEntry where
  level : UInt32
  isKeyframe : Bool
  refs : List UInt32
deriving DecidableEq, Repr

structure GopSpan where
  start : UInt32
  stop : Option UInt32
deriving DecidableEq, Repr

def GopSpan.contains (g : GopSpan) (index : UInt32) : Bool :=
  decide (g.start ≤ index) && match g.stop with
    | none => true
    | some stop => decide (index < stop)

structure TemporalAnalysis (α : Type) where
  /-- The highest layer first, the base layer last. -/
  levels : List TemporalLevel
  frameMap : IndexMap LevelEntry
  gopBoundaries : List UInt32
  /-- Left to those who lay frames out; empty after analysis. -/
  framePositions : IndexMap α

namespace Frame

def levelFrame (f : Frame) : LevelFrame := ⟨f.index, f.isKeyframe, f.refs⟩

def levelEntry (f : Frame) : LevelEntry := ⟨f.level, f.isKeyframe, f.refs⟩

end Frame

def sortedDistinct (xs : List UInt32) : List UInt32 :=
  (IndexMap.ofList (xs.map fun x => (x, ()))).keys

/-- The frames of one layer, ascending by index; frames with one index keep their order. -/
def levelOf (level : UInt32) (frames : List Frame) : TemporalLevel where
  level := level
  frames := ((frames.filter fun f => f.level == level).map Frame.levelFrame).mergeSort
    fun a b => decide (a.index ≤ b.index)

def gopStarts (frames : List Frame) : List UInt32 :=
  sortedDistinct <|
    -- The lowest index starts a group even where it is no keyframe.
    (sortedDistinct (frames.map Frame.index)).take 1
      ++ (frames.filter Frame.isKeyframe).map Frame.index

def analyze (frames : List Frame) : TemporalAnalysis α where
  levels := (sortedDistinct (frames.map Frame.level)).reverse.map fun level => levelOf level frames
  frameMap := IndexMap.ofList (frames.map fun f => (f.index, f.levelEntry))
  gopBoundaries := gopStarts frames
  framePositions := IndexMap.empty

namespace TemporalAnalysis

def isEmpty (a : TemporalAnalysis α) : Bool := a.frameMap.isEmpty

def levelOf? (a : TemporalAnalysis α) (index : UInt32) : Option UInt32 :=
  (a.frameMap.get? index).map LevelEntry.level

def maxLevel? (a : TemporalAnalysis α) : Option UInt32 := a.levels.head?.map TemporalLevel.level

def boundaryPlace (a : TemporalAnalysis α) (index : UInt32) : SearchEnd :=
  search (fun b => compare b index) a.gopBoundaries

def isBoundary (a : TemporalAnalysis α) (index : UInt32) : Bool :=
  match a.boundaryPlace index with
  | .found _ => true
  | .missing _ => false

def gopAt? (a : TemporalAnalysis α) (place : Nat) : Option GopSpan :=
  a.gopBoundaries[place]?.map fun start => ⟨start, a.gopBoundaries[place + 1]?⟩

/-- The group that encloses an index: the one that starts at it, or else at the boundary before its place. -/
def gopOf? (a : TemporalAnalysis α) (index : UInt32) : Option GopSpan :=
  match a.boundaryPlace index with
  | .found place => a.gopAt? place
  | .missing 0 => none
  | .missing (place + 1) => a.gopAt? place

def spansFrom : List UInt32 → List GopSpan
  | [] => []
  | start :: rest => ⟨start, rest.head?⟩ :: spansFrom rest

def gops (a : TemporalAnalysis α) : List GopSpan := spansFrom a.gopBoundaries

end TemporalAnalysis

def LevelFrame.record : Record LevelFrame :=
  Record.start LevelFrame.mk |>.field "frameIndex" .required |>.field "isKeyframe" .required
    |>.field "refFrames" .required

instance : Wire LevelFrame where
  encode f := .object [("frameIndex", encode f.index), ("isKeyframe", encode f.isKeyframe),
    ("refFrames", encode f.refs)]
  decode := LevelFrame.record.decode "LevelFrame" 3

def TemporalLevel.record : Record TemporalLevel :=
  Record.start TemporalLevel.mk |>.field "level" .required |>.field "frames" .required

instance : Wire TemporalLevel where
  encode l := .object [("level", encode l.level), ("frames", encode l.frames)]
  decode := TemporalLevel.record.decode "TemporalLevel" 2

def LevelEntry.record : Record LevelEntry :=
  Record.start LevelEntry.mk |>.field "level" .required |>.field "isKeyframe" .required
    |>.field "refFrames" .required

instance : Wire LevelEntry where
  encode e := .object [("level", encode e.level), ("isKeyframe", encode e.isKeyframe),
    ("refFrames", encode e.refs)]
  decode := LevelEntry.record.decode "LevelEntry" 3

def GopSpan.record : Record GopSpan :=
  Record.start GopSpan.mk |>.field "start" .required |>.field "end" .optional

instance : Wire GopSpan where
  encode g := .object [("start", encode g.start), ("end", encode g.stop)]
  decode := GopSpan.record.decode "GopSpan" 2

def TemporalAnalysis.record : Record (TemporalAnalysis Float) :=
  Record.start TemporalAnalysis.mk |>.field "levels" .required |>.field "frameMap" .required
    |>.field "gopBoundaries" .required |>.field "framePositions" .required

instance : Wire (TemporalAnalysis Float) where
  encode a := .object [("levels", encode a.levels), ("frameMap", encode a.frameMap),
    ("gopBoundaries", encode a.gopBoundaries), ("framePositions", encode a.framePositions)]
  decode := TemporalAnalysis.record.decode "TemporalLevelAnalysis" 4

end FrameAtlas
