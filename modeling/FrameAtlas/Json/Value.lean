namespace FrameAtlas

/-- A number of a data tree. Whole numbers are kept apart from doubles. -/
inductive Json.Number where
  | integer (n : Int)
  | float (x : Float)

inductive Json where
  | null
  | boolean (b : Bool)
  | number (n : Json.Number)
  | text (s : String)
  | array (items : List Json)
  | object (members : List (String × Json))

namespace Json

instance : Inhabited Json := ⟨.null⟩

def member? (name : String) : Json → Option Json
  | .object members => (members.find? fun m => m.1 == name).map (·.2)
  | _ => none

def ofFloat (x : Float) : Json := if x.isFinite then .number (.float x) else .null

def ofNat (n : Nat) : Json := .number (.integer n)

def ofInt (n : Int) : Json := .number (.integer n)

def ofOption {α : Type} (encode : α → Json) : Option α → Json
  | some a => encode a
  | none => .null

end Json

end FrameAtlas
