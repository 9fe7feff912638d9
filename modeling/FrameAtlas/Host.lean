import FrameAtlas.Frame.Listing
import FrameAtlas.Scalar.Double
import FrameAtlas.Session

/-!
Sessions behind numbered handles, for hosts that exchange text only. A request either answers or
fails with a message; a request that fails leaves no trace.
-/

namespace FrameAtlas

/-- The sessions in the order in which they were loaded; a handle is a place in that order. -/
structure Host where
  sessions : List (Session Float)

inductive HostRequest where
  | load (data : ByteArray)
  | analyze (handle : Nat)
  | layout (handle : Nat) (width : Float) (focus : Option UInt32)
  | render (handle : Nat) (surface : String) (v : Viewport Float) (position : Option Nat)
  | count (handle : Nat)

inductive HostReply where
  | handle (h : Nat)
  | tree (j : Json)
  | count (n : Nat)
  | failure (message : String)

namespace Host

def empty : Host := ⟨[]⟩

def invalidHandle : String := "invalid session handle"

def unknownSurface (name : String) : String := "unknown surface: " ++ name

def openSession (host : Host) (frames : List Frame) : Nat × Host :=
  let handle := host.sessions.length
  (handle, ⟨host.sessions ++ [Session.ofSnapshot ⟨handle + 1, frames⟩]⟩)

def update (host : Host) (handle : Nat) (s : Session Float) : Host := ⟨host.sessions.set handle s⟩

def layoutTree (arrows : FocusedArrows Float) : Json :=
  .object (arrows.layout.members ++ [("visible", encode arrows.visibility)])

def stripViewport (width : Float) : Viewport Float := .sized width 0.0

def handle (host : Host) : HostRequest → HostReply × Host
  | .load data => match loadFrames data with
    | .error e => (.failure e.message, host)
    | .ok frames =>
      let (h, host) := host.openSession frames
      (.handle h, host)
  | .analyze h => match host.sessions[h]? with
    | none => (.failure invalidHandle, host)
    | some s => (.tree (encode s.analysis), host)
  | .layout h width focus => match host.sessions[h]? with
    | none => (.failure invalidHandle, host)
    | some s =>
      let (arrows, s) := s.arrowsFocused (stripViewport width) focus
      (.tree (layoutTree arrows), host.update h s)
  | .render h surface v position => match SurfaceKind.ofName? surface with
    | none => (.failure (unknownSurface surface), host)
    | some kind => match host.sessions[h]? with
      | none => (.failure invalidHandle, host)
      | some s =>
        let s := match position with
          | some p => (s.select p).session
          | none => s
        let (commands, s) := s.render kind v
        (.tree (encode commands), host.update h s)
  | .count h => match host.sessions[h]? with
    | none => (.failure invalidHandle, host)
    | some s => (.count s.length, host)

end Host

end FrameAtlas
