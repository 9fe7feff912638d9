import FrameAtlas.Arrow.Cache
import FrameAtlas.Reference
import FrameAtlas.Surface.Filmstrip
import FrameAtlas.Surface.Kind
import FrameAtlas.Surface.Minimap
import FrameAtlas.Surface.Overlay
import FrameAtlas.Surface.Pyramid
import FrameAtlas.Surface.Timeline

/-!
A session: one frame list and all that is derived from it. The analysis is computed once for each
list and the arrow layout once for each key of its memo; moving the current frame touches the
selection and the cursor alone.
-/

namespace FrameAtlas

variable {α : Type}

structure Session (α : Type) where
  snapshot : Snapshot
  analysis : TemporalAnalysis α
  references : ReferenceSummary
  arrowCache : ArrowCache α
  selection : SelectionStore
  cursor : Cursor α
  sizing : StripSizing
  /-- The viewport of the last strip; in another one the cursor has to be measured again. -/
  stripViewport : Option (Viewport α)
  /-- The positions that the main strip shows; `none` is the whole list. -/
  visibleRange : Option PositionRange
  analysisComputations : Nat

def Snapshot.initial : Snapshot := ⟨0, []⟩

namespace Session

variable [Scalar α]

def new : Session α where
  snapshot := Snapshot.initial
  analysis := ⟨[], .empty, [], .empty⟩
  references := .empty
  arrowCache := .empty
  selection := .empty
  cursor := .create 0
  sizing := .uniform
  stripViewport := none
  visibleRange := none
  analysisComputations := 0

/-- Takes a new list. A list of the same identity changes nothing; a selection is kept as it is, even
where it points outside the new list. -/
def replaceFrames (s : Session α) (snapshot : Snapshot) : Session α :=
  if s.snapshot.identity = snapshot.identity then s
  else
    { s with
      snapshot := snapshot
      analysis := analyze snapshot.frames
      references := summarize snapshot.frames
      analysisComputations := s.analysisComputations + 1
      cursor := (s.cursor.setFrameCount snapshot.frames.length).notifyElementsChanged }

def ofSnapshot (snapshot : Snapshot) : Session α := new.replaceFrames snapshot

def frames (s : Session α) : List Frame := s.snapshot.frames

def length (s : Session α) : Nat := s.frames.length

def setStripSizing (s : Session α) (sizing : StripSizing) : Session α :=
  if sizing = s.sizing then s
  else { s with sizing := sizing, cursor := s.cursor.notifyElementsChanged }

def setVisibleRange (s : Session α) (range : Option PositionRange) : Session α :=
  { s with visibleRange := range }

def currentPosition (s : Session α) : Option Nat :=
  if s.cursor.highlighted < s.length then some s.cursor.highlighted else none

def currentFrame (s : Session α) : Option Frame := s.currentPosition.bind fun p => s.frames[p]?

def stripLayout (s : Session α) (v : Viewport α) : Strip α := Strip.compute s.frames v s.sizing

def arrowBandGap : Nat := 4

def arrowGeometry (s : Session α) (v : Viewport α) : ArrowGeometry α :=
  { ArrowGeometry.forViewport v.width s.length with
    anchorY := v.y + Scalar.smaller (Strip.height : α) v.height + (arrowBandGap : α) }

def arrowAnchors (s : Session α) (v : Viewport α) : FrameAnchors α :=
  .ofCenters (s.frames.zipWith (fun f r => (f.index, r.centerX)) (s.stripLayout v).elements)

def arrowsFocused (s : Session α) (v : Viewport α) (focus : Option UInt32) :
    FocusedArrows α × Session α :=
  let (arrows, cache) := s.arrowCache.layout s.snapshot focus (s.arrowGeometry v) (s.arrowAnchors v)
  (arrows, { s with arrowCache := cache })

def arrows (s : Session α) (v : Viewport α) : FocusedArrows α × Session α :=
  s.arrowsFocused v (s.currentFrame.map Frame.index)

/-- Lays out the strip, and has the cursor measured again if the viewport is another than before. -/
def trackStrip (s : Session α) (v : Viewport α) : Strip α × Session α :=
  let tracked := if s.stripViewport == some v then s
    else { s with stripViewport := some v, cursor := s.cursor.notifyElementsChanged }
  (s.stripLayout v, tracked)

def pointerDown (s : Session α) (x : α) (v : Viewport α) : Option Nat × Session α :=
  let (strip, s) := s.trackStrip v
  let (position, cursor) := s.cursor.pointerDown (strip.hitTest x) (x - strip.container.x) strip.container.w
  (position, { s with cursor := cursor })

def pointerMove (s : Session α) (x : α) (v : Viewport α) : Option Nat × Session α :=
  if s.cursor.isDragging then
    let (strip, s) := s.trackStrip v
    let (position, cursor) :=
      s.cursor.pointerMove (strip.hitTest x) (x - strip.container.x) strip.container.w
    (position, { s with cursor := cursor })
  else (none, s)

structure Outcome (α : Type) where
  position : Option Nat
  session : Session α
  notices : List Notice

def adopt (s : Session α) (c : Cursor.Committed α) : Outcome α :=
  ⟨c.position, { s with cursor := c.cursor, selection := c.store }, c.notices⟩

def pointerUp (s : Session α) : Outcome α := s.adopt (s.cursor.pointerUp s.selection)

def step (s : Session α) (direction : Direction) : Outcome α :=
  s.adopt ((s.cursor.syncFrom s.selection).step direction s.selection)

def select (s : Session α) (position : Nat) : Outcome α :=
  s.adopt (s.cursor.select position s.selection)

def renderTimeline (s : Session α) (v : Viewport α) : List (Command α) × Session α :=
  let current := s.currentPosition
  -- The strip is laid out first: a new viewport has the cursor measured again.
  let (strip, s) := s.trackStrip v
  let (cursorX, cursor) := s.cursor.x strip.bounds
  let s := { s with cursor := cursor }
  let cells := Timeline.render s.frames s.analysis strip current cursorX
  let (arrows, s) := s.arrows v
  (cells ++ Overlay.render arrows, s)

def render (s : Session α) (surface : SurfaceKind) (v : Viewport α) : List (Command α) × Session α :=
  let s := { s with cursor := s.cursor.syncFrom s.selection }
  match surface with
  | .timeline => s.renderTimeline v
  | .minimap =>
    (Minimap.render s.frames s.analysis v (s.visibleRange.getD ⟨0, s.length⟩) s.currentPosition, s)
  -- The pyramid alone goes by frame index; the others go by position in the list.
  | .pyramid => (Pyramid.render s.analysis v (s.currentFrame.map Frame.index), s)
  | .filmstrip => (Filmstrip.render s.frames s.analysis v s.currentPosition, s)

end Session

end FrameAtlas
