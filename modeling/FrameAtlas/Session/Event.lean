import FrameAtlas.Session

namespace FrameAtlas

variable {α : Type}

inductive SessionEvent (α : Type) where
  | replace (snapshot : Snapshot)
  | sizing (sizing : StripSizing)
  | visible (range : Option PositionRange)
  | select (position : Nat)
  | step (direction : Direction)
  | pointerDown (x : α) (v : Viewport α)
  | pointerMove (x : α) (v : Viewport α)
  | pointerUp
  | commit (position : Nat)
  | clear
  | subscribe
  | unsubscribe (id : Nat)
  | render (surface : SurfaceKind) (v : Viewport α)
  | arrows (v : Viewport α)
  | arrowsFocused (v : Viewport α) (focus : Option UInt32)

inductive SessionReply (α : Type) where
  | nothing
  | position (p : Option Nat)
  | changed (b : Bool)
  | subscription (id : Nat)
  | commands (commands : List (Command α))
  | arrows (arrows : FocusedArrows α)

structure SessionTurn (α : Type) where
  session : Session α
  reply : SessionReply α
  notices : List Notice

namespace Session

variable [Scalar α]

def turnOf (o : Outcome α) : SessionTurn α := ⟨o.session, .position o.position, o.notices⟩

def handle (s : Session α) : SessionEvent α → SessionTurn α
  | .replace snapshot => ⟨s.replaceFrames snapshot, .nothing, []⟩
  | .sizing sizing => ⟨s.setStripSizing sizing, .nothing, []⟩
  | .visible range => ⟨s.setVisibleRange range, .nothing, []⟩
  | .select position => turnOf (s.select position)
  | .step direction => turnOf (s.step direction)
  | .pointerDown x v =>
    let (position, s) := s.pointerDown x v
    ⟨s, .position position, []⟩
  | .pointerMove x v =>
    let (position, s) := s.pointerMove x v
    ⟨s, .position position, []⟩
  | .pointerUp => turnOf s.pointerUp
  | .commit position =>
    let (store, notices) := s.selection.commit position
    ⟨{ s with selection := store }, .changed (s.selection.changes position), notices⟩
  | .clear => ⟨{ s with selection := s.selection.clear }, .nothing, []⟩
  | .subscribe =>
    let (id, store) := s.selection.subscribe
    ⟨{ s with selection := store }, .subscription id, []⟩
  | .unsubscribe id =>
    let (found, store) := s.selection.unsubscribe id
    ⟨{ s with selection := store }, .changed found, []⟩
  | .render surface v =>
    let (commands, s) := s.render surface v
    ⟨s, .commands commands, []⟩
  | .arrows v =>
    let (arrows, s) := s.arrows v
    ⟨s, .arrows arrows, []⟩
  | .arrowsFocused v focus =>
    let (arrows, s) := s.arrowsFocused v focus
    ⟨s, .arrows arrows, []⟩

def after (s : Session α) (events : List (SessionEvent α)) : Session α :=
  events.foldl (fun s e => (s.handle e).session) s

@[simp] theorem after_nil (s : Session α) : s.after [] = s := rfl

theorem after_append (s : Session α) (first second : List (SessionEvent α)) :
    s.after (first ++ second) = (s.after first).after second := by
  simp [after, List.foldl_append]

end Session

end FrameAtlas
