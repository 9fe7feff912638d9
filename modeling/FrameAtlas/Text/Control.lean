/-!
Text on a device that obeys no terminal controls: control sequences, control strings and lone controls
are left out.
-/

namespace FrameAtlas.Text

/-- How far into a control function the text before a character leads. -/
inductive ControlState where
  | ground
  | escape
  | escapeIntermediate
  | sequence
  | systemCommand
  | deviceEntry
  | deviceParameters
  | deviceIntermediate
  | controlString
deriving DecidableEq, Repr

def isLayout (c : Char) : Bool := c = '\t' || c = '\n' || c.toNat = 0x0C || c = '\r'

def isShown (c : Char) : Bool := isLayout c || (0x20 ≤ c.toNat && c.toNat ≠ 0x7F)

/-- The control that ends a control string, where a byte of the character's encoding is one. -/
def endsString (c : Char) : Bool := (String.utf8EncodeChar c).contains 0x9C

namespace ControlState

def advance (state : ControlState) (c : Char) : ControlState :=
  let n := c.toNat
  let intermediate := 0x20 ≤ n ∧ n < 0x30
  let parameter := 0x30 ≤ n ∧ n < 0x40
  let final := 0x40 ≤ n ∧ n < 0x7F
  match state with
  | ground => ground
  | escape =>
    if intermediate then escapeIntermediate
    else if c = '[' then sequence
    else if c = ']' then systemCommand
    else if c = 'P' then deviceEntry
    else if c = 'X' ∨ c = '^' ∨ c = '_' then controlString
    else if parameter ∨ final then ground
    else escape
  | escapeIntermediate => if parameter ∨ final then ground else escapeIntermediate
  | sequence => if final then ground else sequence
  | systemCommand => if n = 0x07 then ground else systemCommand
  | deviceEntry =>
    if intermediate then deviceIntermediate
    else if parameter then deviceParameters
    else if final then controlString
    else deviceEntry
  | deviceParameters =>
    if intermediate then deviceIntermediate
    else if 0x3C ≤ n ∧ n < 0x40 ∨ final then controlString
    else deviceParameters
  | deviceIntermediate => if parameter ∨ final then controlString else deviceIntermediate
  | controlString => if endsString c then ground else controlString

def showsLayout : ControlState → Bool
  | ground | escape | escapeIntermediate | sequence => true
  | _ => false

end ControlState

structure ControlReader where
  state : ControlState := .ground
  /-- Whether a layout control has come up within the control function. The text after it is shown, up
  to the next control; from there on the function is read to its end. -/
  held : Bool := false
deriving DecidableEq, Repr

def ControlReader.next (r : ControlReader) (c : Char) : ControlReader × Bool :=
  if c.toNat = 0x1B then (⟨.escape, false⟩, false)
  else if c.toNat = 0x18 ∨ c.toNat = 0x1A then (⟨.ground, false⟩, false)
  else if isLayout c ∧ r.state.showsLayout then (⟨r.state, true⟩, true)
  else if isShown c ∧ (r.held ∨ r.state = .ground) then
    -- Only ASCII leaves a function that is held up where it is.
    (if c.toNat < 0x80 then r else ⟨.ground, false⟩, true)
  else (⟨r.state.advance c, false⟩, false)

def ControlReader.shown : ControlReader → List Char → List Char
  | _, [] => []
  | r, c :: rest =>
    let (after, isShown) := r.next c
    if isShown then c :: after.shown rest else after.shown rest

def shown (s : List Char) : List Char := ControlReader.shown {} s

def firstLine (s : List Char) : List Char :=
  let line := s.takeWhile (· != '\n')
  if line.length < s.length ∧ line.getLast? = some '\r' then line.dropLast else line

end FrameAtlas.Text
