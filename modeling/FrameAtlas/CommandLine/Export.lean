import FrameAtlas.CommandLine.Arguments
import FrameAtlas.CommandLine.Folder
import FrameAtlas.Frame.Listing
import FrameAtlas.Session
import FrameAtlas.Svg.Document

namespace FrameAtlas.CommandLine

inductive Failure where
  | unreadable (path : String) (fault : FileFault)
  | badListing (path : String) (fault : ListingError)
  | unwritable (path : String) (fault : FileFault)
  | noTerminal

namespace Failure

def headline : Failure → String
  | unreadable path _ => "failed to read " ++ path
  | badListing path _ => "failed to load frames from " ++ path
  | unwritable path _ => "failed to write " ++ path
  | noTerminal => FileFault.noDevice.message

def causes : Failure → List String
  | unreadable _ fault => [fault.message]
  | badListing _ (.badFrame cause) => [ListingError.message (.badFrame cause), cause.message]
  | badListing _ fault => [fault.message]
  | unwritable _ fault => [fault.message]
  | noTerminal => []

def causeLines : List String → List String
  | [cause] => ["    " ++ cause]
  | causes => causes.mapIdx fun i cause => "    " ++ toString i ++ ": " ++ cause

def report (f : Failure) : String :=
  "Error: " ++ f.headline ++
    if f.causes.isEmpty then ""
    else "\n\nCaused by:\n" ++ "\n".intercalate (causeLines f.causes)

end Failure

inductive Problem where
  | usage (e : UsageError)
  | failure (f : Failure)

namespace Problem

def exitCode : Problem → Nat
  | usage _ => 2
  | failure _ => 1

def report : Problem → String
  | usage e => e.message
  | failure f => f.report

end Problem

def versionText : String := "gopview 0.1.0\n"

def helpText : String :=
  "Frame dependency and temporal layer viewer\n\n"
  ++ "Usage: gopview [OPTIONS] <FRAMES>\n\n"
  ++ "Arguments:\n"
  ++ "  <FRAMES>  Frame list JSON: a bare array or an object with a `frames` array\n\n"
  ++ "Options:\n"
  ++ "      --svg <SVG>          Write one surface as SVG instead of starting the viewer\n"
  ++ "      --surface <SURFACE>  Surface to show first (or to export) [default: timeline]\n"
  ++ "      --frame <FRAME>      Initially selected list position\n"
  ++ "      --width <WIDTH>      Export width in SVG units [default: 1200]\n"
  ++ "      --height <HEIGHT>    Export height in SVG units [default: 240]\n"
  ++ "      --dark               Use the dark palette for SVG output\n"
  ++ "      --by-size            Size timeline elements by coded bytes instead of uniformly\n"
  ++ "  -h, --help               Print help\n"
  ++ "  -V, --version            Print version\n"

namespace Invocation

def session (i : Invocation) (frames : List Frame) : Session Float :=
  let opened := Session.ofSnapshot ⟨1, frames⟩
  let sized := if i.bySize then opened.setStripSizing .bySize else opened
  match i.frame with
  | some position => (sized.select position).session
  | none => sized

def document (i : Invocation) (frames : List Frame) : String :=
  let commands := ((i.session frames).render i.surface (.sized i.width i.height)).1
  Svg.render commands i.width i.height (if i.dark then .dark else .light)

def exported (i : Invocation) (content : Except FileFault ByteArray) : Except Failure (String × String) :=
  match content with
  | .error fault => .error (.unreadable i.frames fault)
  | .ok data => match loadFrames data with
    | .error fault => .error (.badListing i.frames fault)
    | .ok frames => match i.svg with
      | none => .error .noTerminal
      | some path => .ok (path, i.document frames)

end Invocation

def run (folder : Folder) (arguments : List String) : Except Problem (String × Folder) :=
  match request arguments with
  | .error e => .error (.usage e)
  | .ok .version => .ok (versionText, folder)
  | .ok .help => .ok (helpText, folder)
  | .ok (.run i) => match i.exported (folder.read i.frames) with
    | .error f => .error (.failure f)
    | .ok (path, document) => match folder.write path document with
      | .error fault => .error (.failure (.unwritable path fault))
      | .ok after => .ok after

end FrameAtlas.CommandLine
