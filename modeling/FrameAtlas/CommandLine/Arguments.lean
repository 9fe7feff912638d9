import FrameAtlas.Scalar.Double
import FrameAtlas.Surface.Kind
import FrameAtlas.Text.Control

namespace FrameAtlas.CommandLine

inductive Setting where
  | svg
  | surface
  | frame
  | width
  | height
deriving DecidableEq, Repr

inductive Flag where
  | dark
  | bySize
deriving DecidableEq, Repr

def Setting.all : List Setting := [.svg, .surface, .frame, .width, .height]

def Setting.name : Setting → String
  | .svg => "svg"
  | .surface => "surface"
  | .frame => "frame"
  | .width => "width"
  | .height => "height"

def Setting.usage : Setting → String
  | .svg => "--svg <SVG>"
  | .surface => "--surface <SURFACE>"
  | .frame => "--frame <FRAME>"
  | .width => "--width <WIDTH>"
  | .height => "--height <HEIGHT>"

def Flag.all : List Flag := [.dark, .bySize]

def Flag.name : Flag → String
  | .dark => "dark"
  | .bySize => "by-size"

structure Invocation where
  frames : String
  svg : Option String
  surface : SurfaceKind
  frame : Option Nat
  width : Float
  height : Float
  dark : Bool
  bySize : Bool

inductive UsageError where
  | unexpectedArgument (argument : String)
  | missingValue (argument : String)
  | invalidValue (value argument reason : String)
  | repeated (argument : String)
  | unneededValue (value argument : String)
  | missingArgument

def closing (text : String) : List String :=
  [text ++ "\n\nFor more information, try '", "--help", "'.\n"]

def UsageError.report : UsageError → List String
  | unexpectedArgument a => ["error:", " unexpected argument '", a] ++ closing "' found"
  | missingValue a =>
    ["error:", " a value is required for '", a] ++ closing "' but none was supplied"
  | invalidValue v a reason =>
    ["error:", " invalid value '", v, "' for '", a] ++ closing ("': " ++ reason)
  | repeated a => ["error:", " the argument '", a] ++ closing "' cannot be used multiple times"
  | unneededValue v a =>
    ["error:", " unexpected value '", v, "' for '", a] ++ closing "' found; no more were expected"
  | missingArgument =>
    ["error:", " the following required arguments were not provided:\n  ", "<FRAMES>"] ++ closing ""

/-- The first line of the report as it is shown where styles and controls are not: a control function
that a value begins reaches at most to the end of its piece. -/
def UsageError.message (e : UsageError) : String :=
  String.ofList (Text.firstLine (e.report.flatMap fun piece => Text.shown piece.toList))

/-- Reads digits one by one after those of a value. The first fault counts: a character that is no
digit, or a digit that makes the value too large. -/
def readCountFrom : Nat → List Char → Except String Nat
  | value, [] => .ok value
  | value, c :: rest =>
    if !c.isDigit then .error "invalid digit found in string"
    else if UInt64.size ≤ 10 * value + digitValue c then
      .error "number too large to fit in target type"
    else readCountFrom (10 * value + digitValue c) rest

def readCount (text : String) : Except String Nat :=
  match text.toList with
  | [] => .error "cannot parse integer from empty string"
  | '+' :: d :: rest => readCountFrom 0 (d :: rest)
  | digits => readCountFrom 0 digits

def readLength (text : String) : Except String Float :=
  if text.isEmpty then .error "cannot parse float from empty string"
  else match NumberLiteral.ofText? text.toList with
    | some l => .ok (doubleOfLiteral l)
    | none => .error "invalid float literal"

def readSurface (text : String) : Except String SurfaceKind :=
  match SurfaceKind.ofName? text with
  | some s => .ok s
  | none => .error ("unknown surface `" ++ text ++ "` (expected one of: "
      ++ ", ".intercalate (SurfaceKind.all.map SurfaceKind.name) ++ ")")

structure Values where
  frames : Option String := none
  svg : Option String := none
  surface : Option SurfaceKind := none
  frame : Option Nat := none
  width : Option Float := none
  height : Option Float := none
  dark : Bool := false
  bySize : Bool := false

def once {β : Type} (argument : String) (before : Option β) : Except UsageError Unit :=
  if before.isSome then .error (.repeated argument) else .ok ()

def valueOf {β : Type} (argument value : String) : Except String β → Except UsageError β
  | .ok b => .ok b
  | .error reason => .error (.invalidValue value argument reason)

def pathOf (argument value : String) : Except UsageError String :=
  if value.isEmpty then .error (.missingValue argument) else .ok value

def Values.set (v : Values) (s : Setting) (value : String) : Except UsageError Values :=
  match s with
  | .svg => do
    once s.usage v.svg
    let path ← pathOf s.usage value
    .ok { v with svg := some path }
  | .surface => do
    once s.usage v.surface
    let kind ← valueOf s.usage value (readSurface value)
    .ok { v with surface := some kind }
  | .frame => do
    once s.usage v.frame
    let n ← valueOf s.usage value (readCount value)
    .ok { v with frame := some n }
  | .width => do
    once s.usage v.width
    let x ← valueOf s.usage value (readLength value)
    .ok { v with width := some x }
  | .height => do
    once s.usage v.height
    let x ← valueOf s.usage value (readLength value)
    .ok { v with height := some x }

def Values.raise (v : Values) : Flag → Except UsageError Values
  | .dark => if v.dark then .error (.repeated "--dark") else .ok { v with dark := true }
  | .bySize => if v.bySize then .error (.repeated "--by-size") else .ok { v with bySize := true }

inductive Pending where
  | nothing
  | setting (s : Setting) (value : Option String)
  | frames (path : String)

def Values.settle (v : Values) : Pending → Except UsageError Values
  | .nothing => .ok v
  | .setting s none => .error (.missingValue s.usage)
  | .setting s (some value) => v.set s value
  | .frames path => do
    let path ← pathOf "<FRAMES>" path
    .ok { v with frames := some path }

inductive Request where
  | version
  | help
  | run (i : Invocation)

def Values.request (v : Values) : Except UsageError Request :=
  match v.frames with
  | none => .error .missingArgument
  | some path => .ok <| .run {
      frames := path
      svg := v.svg
      surface := v.surface.getD .timeline
      frame := v.frame
      width := v.width.getD 1200.0
      height := v.height.getD 240.0
      dark := v.dark
      bySize := v.bySize }

def splitEquals (s : List Char) : String × Option String :=
  let name := s.takeWhile (· != '=')
  match s.dropWhile (· != '=') with
  | [] => (String.ofList name, none)
  | _ :: value => (String.ofList name, some (String.ofList value))

def readArguments : Values → Pending → Bool → Bool → List String → Except UsageError Request
  | v, pending, _, _, [] => do
    let v ← v.settle pending
    v.request
  | v, pending, taken, onlyPositional, argument :: rest =>
    let positional : Except UsageError Request :=
      -- A surplus argument is reported before the value that is still to be judged.
      if taken then .error (.unexpectedArgument argument)
      else do
        let v ← v.settle pending
        readArguments v (.frames argument) true onlyPositional rest
    if onlyPositional then positional
    else match argument.toList with
      | ['-', '-'] => readArguments v pending taken true rest
      | '-' :: '-' :: long =>
        let (name, value) := splitEquals long
        match Setting.all.find? fun s => s.name == name with
        | some s => do
          let v ← v.settle pending
          match value with
          | some value => do
            let v ← v.set s value
            readArguments v .nothing taken false rest
          | none => readArguments v (.setting s none) taken false rest
        | none => match Flag.all.find? fun f => f.name == name with
          | some f => match value with
            | some value => .error (.unneededValue value ("--" ++ name))
            | none => do
              let v ← v.settle pending
              let v ← v.raise f
              readArguments v .nothing taken false rest
          | none =>
            if name == "version" || name == "help" then
              match value with
              | some value => .error (.unneededValue value ("--" ++ name))
              | none => do
                let _ ← v.settle pending
                .ok (if name == "version" then .version else .help)
            else .error (.unexpectedArgument ("--" ++ name))
      | '-' :: letter :: _ =>
        if letter == 'V' || letter == 'h' then do
          let _ ← v.settle pending
          .ok (if letter == 'V' then .version else .help)
        else .error (.unexpectedArgument (String.ofList ['-', letter]))
      | _ => match pending with
        | .setting s none => readArguments v (.setting s (some argument)) taken false rest
        | _ => positional

def request (arguments : List String) : Except UsageError Request :=
  readArguments {} .nothing false false arguments

end FrameAtlas.CommandLine
