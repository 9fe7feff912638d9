import FrameAtlas.Json.Decode

namespace FrameAtlas

inductive FrameKind where
  | intra
  | inter
  | bidirectional
  | unknown
deriving DecidableEq, Repr, Inhabited

namespace FrameKind

def intraNames : List String := ["I", "KEY", "INTRA", "INTRA_ONLY", "IDR", "CRA", "BLA", "GDR", "IRAP"]

def interNames : List String := ["P", "INTER", "NON_KEY", "SWITCH", "S"]

/-- The kind of a name in upper case: whole names come before first letters. -/
def ofUpper (name : List Char) : FrameKind :=
  if intraNames.contains (String.ofList name) then .intra
  else if interNames.contains (String.ofList name) then .inter
  else match name with
    | 'I' :: _ => .intra
    | 'P' :: _ => .inter
    | 'B' :: _ => .bidirectional
    | _ => .unknown

def ofName (name : String) : FrameKind := ofUpper (Text.asciiUpper (Text.trim name.toList))

def letter : FrameKind → String
  | intra => "I"
  | inter => "P"
  | bidirectional => "B"
  | unknown => "?"

end FrameKind

instance : Wire FrameKind where
  encode k := encode k.letter
  decode j := (decode j : Except DecodeError String).map FrameKind.ofName

structure Frame where
  index : UInt32
  kind : FrameKind := .unknown
  temporalId : Option UInt32 := none
  keyFrame : Option Bool := none
  /-- Indices of the frames this one references. They may name frames that are not in the list. -/
  refs : List UInt32 := []
  size : Option UInt64 := none
  poc : Option Int64 := none
  pts : Option Int64 := none
  displayOrder : Option UInt32 := none
  codingOrder : Option UInt32 := none
  spatialId : Option UInt32 := none
deriving DecidableEq, Repr

namespace Frame

def level (f : Frame) : UInt32 := f.temporalId.getD 0

def isKeyframe (f : Frame) : Bool := f.kind == .intra || f.keyFrame == some true

def hasReferences (f : Frame) : Bool := !f.refs.isEmpty

def record : Record Frame :=
  Record.start Frame.mk
    |>.field "frameIndex" .required
    |>.field "frameType" (.default .unknown)
    |>.field "temporalId" (.default none)
    |>.field "keyFrame" (.default none)
    |>.field "refFrames" (.default [])
    |>.field "size" (.default none)
    |>.field "poc" (.default none)
    |>.field "pts" (.default none)
    |>.field "displayOrder" (.default none)
    |>.field "codingOrder" (.default none)
    |>.field "spatialId" (.default none)

def member {β : Type} [Wire β] (name : String) : Option β → List (String × Json)
  | some value => [(name, encode value)]
  | none => []

end Frame

instance : Wire Frame where
  encode f := .object <|
    [("frameIndex", encode f.index), ("frameType", encode f.kind)]
      ++ Frame.member "temporalId" f.temporalId
      ++ Frame.member "keyFrame" f.keyFrame
      ++ [("refFrames", encode f.refs)]
      ++ Frame.member "size" f.size
      ++ Frame.member "poc" f.poc
      ++ Frame.member "pts" f.pts
      ++ Frame.member "displayOrder" f.displayOrder
      ++ Frame.member "codingOrder" f.codingOrder
      ++ Frame.member "spatialId" f.spatialId
  decode := Frame.record.decode "Frame" 11

end FrameAtlas
