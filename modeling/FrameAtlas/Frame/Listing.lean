import FrameAtlas.Frame

namespace FrameAtlas

inductive ListingError where
  | malformed
  | missingFrames
  | badFrame (cause : DecodeError)

/-- What an error says. Of a text that is no data tree it says no more, though there are many ways to be none. -/
def ListingError.message : ListingError → String
  | .malformed => "invalid frame list JSON"
  | .missingFrames => "expected a JSON array of frames or an object with a `frames` array"
  | .badFrame cause => "invalid frame list JSON: " ++ cause.message

def frameItems? : Json → Option (List Json)
  | .array items => some items
  | j => match j.member? "frames" with
    | some (.array items) => some items
    | _ => none

def framesOfJson (j : Json) : Except ListingError (List Frame) :=
  match frameItems? j with
  | none => .error .missingFrames
  | some items => match decodeItems items with
    | .ok frames => .ok frames
    | .error cause => .error (.badFrame cause)

def loadFrames (data : ByteArray) : Except ListingError (List Frame) :=
  match Json.ofBytes? data with
  | none => .error .malformed
  | some j => framesOfJson j

end FrameAtlas
