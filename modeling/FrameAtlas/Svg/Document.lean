import FrameAtlas.Command
import FrameAtlas.Number.Form
import FrameAtlas.Svg.Markup
import FrameAtlas.Svg.Palette

namespace FrameAtlas.Svg

def numberForm : NumberForm where
  positionalFrom := none
  positionalBelow := none
  pointZero := false
  tie := .up

def number (x : Float) : String := numberForm.text x

def textAnchor : TextAlign → String
  | .left => "start"
  | .center => "middle"
  | .right => "end"

def rectMarkup (palette : Palette) (c : RectCommand Float) : List Markup :=
  .opening "rect"
      ([("x", number c.rect.x), ("y", number c.rect.y), ("width", number c.rect.w),
          ("height", number c.rect.h), ("fill", palette.hex c.color)]
        ++ (match c.borderColor with
            | some edge =>
              [("stroke", palette.hex edge), ("stroke-width", if c.current then "2" else "0.5")]
            | none => [])
        ++ (match c.frameIndex with
            | some index => [("data-frame", toString index.toNat)]
            | none => [])
        ++ (if c.current then [("data-current", "true")] else []))
    :: ((match c.label with
        | some label => [.opening "title" [], .text label, .closing "title"]
        | none => [])
      ++ [.closing "rect"])

def lineMarkup (palette : Palette) (c : LineCommand Float) : List Markup :=
  [.empty "line" [("x1", number c.start.x), ("y1", number c.start.y), ("x2", number c.stop.x),
    ("y2", number c.stop.y), ("stroke", palette.hex c.color), ("stroke-width", number c.width)]]

def textMarkup (palette : Palette) (c : TextCommand Float) : List Markup :=
  [.opening "text" [("x", number c.position.x), ("y", number c.position.y),
      ("fill", palette.hex c.color), ("font-size", number c.fontSize),
      ("text-anchor", textAnchor c.align)],
    .text c.text, .closing "text"]

def pathMarkup (palette : Palette) (c : PathCommand Float) : List Markup :=
  .opening "g"
      ((match c.sourceFrame with
        | some source => [("data-source", toString source.toNat)]
        | none => [])
      ++ (if c.visible then [] else [("visibility", "hidden")]))
    :: .empty "path"
        ([("d", c.path), ("fill", "none"), ("stroke", palette.hex c.color),
            ("stroke-width", number c.width)]
          ++ (if c.dashed then [("stroke-dasharray", "3 2")] else []))
    :: ((match c.label with
        | some label =>
          [.opening "text" [("x", number c.labelPosition.x), ("y", number c.labelPosition.y),
              ("fill", palette.hex c.color), ("text-anchor", "middle")],
            .text label, .closing "text"]
        | none => [])
      ++ [.closing "g"])

def commandMarkup (palette : Palette) : Command Float → List Markup
  | .rect c => rectMarkup palette c
  | .line c => lineMarkup palette c
  | .text c => textMarkup palette c
  | .path c => pathMarkup palette c
  | .beginGroup id _ => [.opening "g" [("id", id)]]
  | .endGroup => [.closing "g"]

def markup (commands : List (Command Float)) (width height : Float) (palette : Palette) :
    List Markup :=
  let w := number width
  let h := number height
  .opening "svg" [("xmlns", "http://www.w3.org/2000/svg"), ("viewBox", "0 0 " ++ w ++ " " ++ h),
      ("width", w), ("height", h),
      ("style", "font-family:system-ui,-apple-system,sans-serif;font-size:10px")]
    :: .empty "rect" [("width", w), ("height", h), ("fill", palette.hex .background)]
    :: (commands.flatMap (commandMarkup palette) ++ [.closing "svg"])

def render (commands : List (Command Float)) (width height : Float) (palette : Palette) : String :=
  Markup.renderAll (markup commands width height palette)

end FrameAtlas.Svg
