import FrameAtlas.Host

namespace FrameAtlas

namespace HostRequest

def handle? : HostRequest → Option Nat
  | .load _ => none
  | .analyze h => some h
  | .layout h _ _ => some h
  | .render h _ _ _ => some h
  | .count h => some h

def onHandle (target : Nat) : HostRequest → HostRequest
  | .load data => .load data
  | .analyze _ => .analyze target
  | .layout _ width focus => .layout target width focus
  | .render _ surface v position => .render target surface v position
  | .count _ => .count target

def badSurface? : HostRequest → Option String
  | .render _ surface _ _ => match SurfaceKind.ofName? surface with
    | none => some surface
    | some _ => none
  | _ => none

/-- Whether a request cannot be met, given the handles that there are, and what is said then. A name is looked at
before a handle. -/
inductive IsRefused (known : List Nat) : HostRequest → String → Prop where
  | unreadable {data : ByteArray} {e : ListingError} (hdata : loadFrames data = .error e) :
      IsRefused known (.load data) e.message
  | unknownSurface {r : HostRequest} {surface : String} (hsurface : r.badSurface? = some surface) :
      IsRefused known r (Host.unknownSurface surface)
  | unknownHandle {r : HostRequest} {h : Nat} (hsurface : r.badSurface? = none) (hr : r.handle? = some h)
      (hunknown : h ∉ known) : IsRefused known r Host.invalidHandle

end HostRequest

namespace HostReply

def handle? : HostReply → Option Nat
  | .handle h => some h
  | _ => none

def onHandle (target : Nat) : HostReply → HostReply
  | .handle _ => .handle target
  | reply => reply

end HostReply

structure HostTurn where
  request : HostRequest
  reply : HostReply

namespace HostTurn

def opened? (t : HostTurn) : Option Nat := t.reply.handle?

def concerns (h : Nat) (t : HostTurn) : Bool := t.opened? == some h || t.request.handle? == some h

def onHandle (target : Nat) (t : HostTurn) : HostTurn := ⟨t.request.onHandle target, t.reply.onHandle target⟩

end HostTurn

namespace Host

def log (host : Host) : List HostRequest → List HostTurn
  | [] => []
  | r :: rest => ⟨r, (host.handle r).1⟩ :: (host.handle r).2.log rest

def after (host : Host) (requests : List HostRequest) : Host :=
  requests.foldl (fun host r => (host.handle r).2) host

@[simp] theorem log_nil (host : Host) : host.log [] = [] := rfl

@[simp] theorem log_cons (host : Host) (r : HostRequest) (rest : List HostRequest) :
    host.log (r :: rest) = ⟨r, (host.handle r).1⟩ :: (host.handle r).2.log rest := rfl

@[simp] theorem after_nil (host : Host) : host.after [] = host := rfl

@[simp] theorem after_cons (host : Host) (r : HostRequest) (rest : List HostRequest) :
    host.after (r :: rest) = (host.handle r).2.after rest := rfl

end Host

end FrameAtlas
