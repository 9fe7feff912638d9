import FrameAtlas.Frame

namespace FrameAtlas

structure DanglingRef where
  source : UInt32
  target : UInt32
deriving DecidableEq, Repr

structure ReferenceSummary where
  /-- The frames that reference a target, in list order. Targets outside the list are included. -/
  incoming : IndexMap (List UInt32)
  outgoingTotal : Nat
  dangling : List DanglingRef

namespace ReferenceSummary

def referencedBy (s : ReferenceSummary) (target : UInt32) : List UInt32 :=
  (s.incoming.get? target).getD []

def isDangling (s : ReferenceSummary) (source target : UInt32) : Bool :=
  s.dangling.any fun d => d.source == source && d.target == target

def empty : ReferenceSummary := ⟨.empty, 0, []⟩

def add (known : List UInt32) (s : ReferenceSummary) (source target : UInt32) : ReferenceSummary where
  incoming := s.incoming.insert target (s.referencedBy target ++ [source])
  outgoingTotal := s.outgoingTotal + 1
  dangling := if known.contains target then s.dangling else s.dangling ++ [⟨source, target⟩]

end ReferenceSummary

def summarize (frames : List Frame) : ReferenceSummary :=
  let known := frames.map Frame.index
  frames.foldl (fun s f => f.refs.foldl (fun s target => s.add known f.index target) s) .empty

def DanglingRef.record : Record DanglingRef :=
  Record.start DanglingRef.mk |>.field "source" .required |>.field "target" .required

instance : Wire DanglingRef where
  encode d := .object [("source", encode d.source), ("target", encode d.target)]
  decode := DanglingRef.record.decode "DanglingRef" 2

def ReferenceSummary.record : Record ReferenceSummary :=
  Record.start ReferenceSummary.mk |>.field "incoming" .required |>.field "outgoingTotal" .required
    |>.field "dangling" .required

instance : Wire ReferenceSummary where
  encode s := .object [("incoming", encode s.incoming), ("outgoingTotal", encode s.outgoingTotal),
    ("dangling", encode s.dangling)]
  decode := ReferenceSummary.record.decode "ReferenceSummary" 3

end FrameAtlas
