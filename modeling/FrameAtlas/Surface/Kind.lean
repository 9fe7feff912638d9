import FrameAtlas.Json.Decode

namespace FrameAtlas

inductive SurfaceKind where
  | timeline
  | minimap
  | pyramid
  | filmstrip
deriving DecidableEq, Repr

namespace SurfaceKind

def all : List SurfaceKind := [timeline, minimap, pyramid, filmstrip]

def name : SurfaceKind → String
  | timeline => "timeline"
  | minimap => "minimap"
  | pyramid => "pyramid"
  | filmstrip => "filmstrip"

def ofName? (name : String) : Option SurfaceKind := all.find? fun s => s.name == name

def next : SurfaceKind → SurfaceKind
  | timeline => minimap
  | minimap => pyramid
  | pyramid => filmstrip
  | filmstrip => timeline

def title : SurfaceKind → String
  | timeline => "Timeline"
  | minimap => "Minimap"
  | pyramid => "Pyramid"
  | filmstrip => "Filmstrip"

end SurfaceKind

instance : Wire SurfaceKind where
  encode s := .text s.title
  decode := decodeNamed SurfaceKind.all SurfaceKind.title

end FrameAtlas
