import FrameAtlas.Color
import FrameAtlas.Geometry

namespace FrameAtlas

inductive TextAlign where
  | left
  | center
  | right
deriving DecidableEq, Repr

def TextAlign.all : List TextAlign := [.left, .center, .right]

def TextAlign.name : TextAlign → String
  | .left => "Left"
  | .center => "Center"
  | .right => "Right"

instance : Wire TextAlign where
  encode a := .text a.name
  decode := decodeNamed TextAlign.all TextAlign.name

structure RectCommand (α : Type) where
  rect : Rect α
  color : Color
  borderColor : Option Color
  label : Option String
  frameIndex : Option UInt32
  current : Bool
deriving DecidableEq, Repr

structure TextCommand (α : Type) where
  position : Point α
  text : String
  color : Color
  fontSize : α
  align : TextAlign
deriving DecidableEq, Repr

structure LineCommand (α : Type) where
  start : Point α
  stop : Point α
  color : Color
  width : α
deriving DecidableEq, Repr

structure PathCommand (α : Type) where
  path : String
  color : Color
  width : α
  dashed : Bool
  label : Option String
  labelPosition : Point α
  sourceFrame : Option UInt32
  visible : Bool
deriving DecidableEq, Repr

inductive Command (α : Type) where
  | rect (c : RectCommand α)
  | text (c : TextCommand α)
  | line (c : LineCommand α)
  | path (c : PathCommand α)
  | beginGroup (id : String) (label : Option String)
  | endGroup
deriving DecidableEq, Repr

namespace Command

def names : List String := ["DrawRect", "DrawText", "DrawLine", "DrawPath", "BeginGroup", "EndGroup"]

def rectRecord : Record (Command Float) :=
  Record.start (fun r c b l f cur => Command.rect ⟨r, c, b, l, f, cur⟩)
    |>.field "rect" .required |>.field "color" .required |>.field "border_color" .optional
    |>.field "label" .optional |>.field "frame_index" .optional |>.field "current" .required

def textRecord : Record (Command Float) :=
  Record.start (fun p t c s a => Command.text ⟨p, t, c, s, a⟩)
    |>.field "position" .required |>.field "text" .required |>.field "color" .required
    |>.field "font_size" .required |>.field "align" .required

def lineRecord : Record (Command Float) :=
  Record.start (fun a b c w => Command.line ⟨a, b, c, w⟩)
    |>.field "from" .required |>.field "to" .required |>.field "color" .required
    |>.field "width" .required

def pathRecord : Record (Command Float) :=
  Record.start (fun p c w d l lp s v => Command.path ⟨p, c, w, d, l, lp, s, v⟩)
    |>.field "path" .required |>.field "color" .required |>.field "width" .required
    |>.field "dashed" .required |>.field "label" .optional |>.field "label_position" .required
    |>.field "source_frame" .optional |>.field "visible" .required

def groupRecord : Record (Command Float) :=
  Record.start Command.beginGroup |>.field "id" .required |>.field "label" .optional

def decodeBody (name : String) (content : Option Json) : Except DecodeError (Command Float) :=
  if name = "DrawRect" then rectRecord.decodeContent content
  else if name = "DrawText" then textRecord.decodeContent content
  else if name = "DrawLine" then lineRecord.decodeContent content
  else if name = "DrawPath" then pathRecord.decodeContent content
  else if name = "BeginGroup" then groupRecord.decodeContent content
  else decodeBare .endGroup content

end Command

instance : Wire (Command Float) where
  encode
    | .rect c => .object [("DrawRect", .object [("rect", encode c.rect), ("color", encode c.color),
        ("border_color", encode c.borderColor), ("label", encode c.label),
        ("frame_index", encode c.frameIndex), ("current", encode c.current)])]
    | .text c => .object [("DrawText", .object [("position", encode c.position), ("text", encode c.text),
        ("color", encode c.color), ("font_size", encode c.fontSize), ("align", encode c.align)])]
    | .line c => .object [("DrawLine", .object [("from", encode c.start), ("to", encode c.stop),
        ("color", encode c.color), ("width", encode c.width)])]
    | .path c => .object [("DrawPath", .object [("path", encode c.path), ("color", encode c.color),
        ("width", encode c.width), ("dashed", encode c.dashed), ("label", encode c.label),
        ("label_position", encode c.labelPosition), ("source_frame", encode c.sourceFrame),
        ("visible", encode c.visible)])]
    | .beginGroup id label => .object [("BeginGroup", .object [("id", encode id), ("label", encode label)])]
    | .endGroup => .text "EndGroup"
  decode := decodeVariant Command.names Command.decodeBody

end FrameAtlas
