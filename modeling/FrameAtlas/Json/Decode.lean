import FrameAtlas.IndexMap
import FrameAtlas.Json.Reader
import FrameAtlas.Json.Writer
import FrameAtlas.Text.Quoted

namespace FrameAtlas

inductive Found where
  | null
  | boolean (b : Bool)
  | integer (n : Int)
  | float (x : Float)
  | text (s : String)
  | sequence
  | map
  | unitVariant

def Found.message : Found → String
  | .null => "null"
  | .boolean b => if b then "boolean `true`" else "boolean `false`"
  | .integer n => "integer `" ++ toString n ++ "`"
  | .float x => "floating point `" ++ Json.numberForm.text x ++ "`"
  | .text s => "string " ++ Text.quoted s
  | .sequence => "sequence"
  | .map => "map"
  | .unitVariant => "unit variant"

def Json.found : Json → Found
  | .null => .null
  | .boolean b => .boolean b
  | .number (.integer n) => .integer n
  | .number (.float x) => .float x
  | .text s => .text s
  | .array _ => .sequence
  | .object _ => .map

inductive DecodeError where
  | wrongType (found : Found) (expected : String)
  | wrongValue (found : Found) (expected : String)
  | missingField (name : String)
  | wrongLength (length : Nat) (expected : String)
  | unknownVariant (name : String) (known : List String)
  | keyNotNumeric
  /-- A fault of a number in a key that ends at the given column. -/
  | inKey (column : Nat) (cause : DecodeError)

def expectedOneOf : List String → String
  | [] => "there are no variants"
  | [a] => "expected `" ++ a ++ "`"
  | [a, b] => "expected `" ++ a ++ "` or `" ++ b ++ "`"
  | names => "expected one of " ++ ", ".intercalate (names.map fun n => "`" ++ n ++ "`")

def DecodeError.message : DecodeError → String
  | .wrongType found expected => "invalid type: " ++ found.message ++ ", expected " ++ expected
  | .wrongValue found expected => "invalid value: " ++ found.message ++ ", expected " ++ expected
  | .missingField name => "missing field `" ++ name ++ "`"
  | .wrongLength length expected => "invalid length " ++ toString length ++ ", expected " ++ expected
  | .unknownVariant name known => "unknown variant `" ++ name ++ "`, " ++ expectedOneOf known
  | .keyNotNumeric => "invalid value: expected key to be a number in quotes"
  | .inKey column cause => cause.message ++ " at line 1 column " ++ toString column

class Wire (α : Type) where
  encode : α → Json
  decode : Json → Except DecodeError α

export Wire (encode decode)

namespace Json

def decodeNatural (expected : String) (limit : Nat) : Json → Except DecodeError Nat
  | .number (.integer n) =>
    if 0 ≤ n ∧ n < limit then .ok n.toNat else .error (.wrongValue (.integer n) expected)
  | j => .error (.wrongType j.found expected)

end Json

instance : Wire Bool where
  encode := .boolean
  decode
    | .boolean b => .ok b
    | j => .error (.wrongType j.found "a boolean")

instance : Wire String where
  encode := .text
  decode
    | .text s => .ok s
    | j => .error (.wrongType j.found "a string")

instance : Wire UInt32 where
  encode n := .ofNat n.toNat
  decode j := (j.decodeNatural "u32" UInt32.size).map UInt32.ofNat

instance : Wire UInt64 where
  encode n := .ofNat n.toNat
  decode j := (j.decodeNatural "u64" UInt64.size).map UInt64.ofNat

instance : Wire Nat where
  encode := .ofNat
  decode
    | .number (.integer n) => if 0 ≤ n then .ok n.toNat else .error (.wrongValue (.integer n) "usize")
    | j => .error (.wrongType j.found "usize")

instance : Wire Int64 where
  encode n := .ofInt n.toInt
  decode
    | .number (.integer n) =>
      if Int64.minValue.toInt ≤ n ∧ n ≤ Int64.maxValue.toInt then .ok (Int64.ofInt n)
      else .error (.wrongValue (.integer n) "i64")
    | j => .error (.wrongType j.found "i64")

instance : Wire Float where
  encode := .ofFloat
  decode
    | .number (.integer n) => .ok (Float.ofInt n)
    | .number (.float x) => .ok x
    | j => .error (.wrongType j.found "f64")

instance {α : Type} [Wire α] : Wire (Option α) where
  encode := .ofOption encode
  decode
    | .null => .ok none
    | j => (decode j).map some

def decodeItems {α : Type} [Wire α] : List Json → Except DecodeError (List α)
  | [] => .ok []
  | j :: rest => do
    let a ← decode j
    let as ← decodeItems rest
    .ok (a :: as)

instance {α : Type} [Wire α] : Wire (List α) where
  encode items := .array (items.map encode)
  decode
    | .array items => decodeItems items
    | j => .error (.wrongType j.found "a sequence")

def decodeKey (name : String) : Except DecodeError UInt32 :=
  match name.toList with
  | [] => .error .keyNotNumeric
  | c :: rest =>
    if c.isDigit || c == '-' then
      -- The range of the number is judged before what follows it.
      match Json.readNumber (c :: rest) with
      | none => .error .keyNotNumeric
      | some (n, after) =>
        match (decode (Json.number n) : Except DecodeError UInt32) with
        | .error cause => .error (.inKey (name.length - after.length) cause)
        | .ok key => if after.isEmpty then .ok key else .error .keyNotNumeric
    else .error .keyNotNumeric

def decodeEntries {β : Type} [Wire β] : List (String × Json) → Except DecodeError (List (UInt32 × β))
  | [] => .ok []
  | (name, j) :: rest => do
    let key ← decodeKey name
    let value ← decode j
    let entries ← decodeEntries rest
    .ok ((key, value) :: entries)

instance {β : Type} [Wire β] : Wire (IndexMap β) where
  encode m := .object (m.entries.map fun e => (toString e.1.toNat, encode e.2))
  decode
    | .object members => (decodeEntries members).map IndexMap.ofList
    | j => .error (.wrongType j.found "a map")

/-- What stands for a field that is not there: as a member of an object, and as an element of a list. -/
structure Absence (β : Type) where
  member : Option β
  element : Option β

namespace Absence

variable {β : Type}

def required : Absence β := ⟨none, none⟩

def optional : Absence (Option β) := ⟨some none, none⟩

def default (value : β) : Absence β := ⟨some value, some value⟩

end Absence

structure Record (α : Type) where
  check : String → Json → Except DecodeError Unit
  ofMembers : List (String × Json) → Except DecodeError α
  /-- Reads all fields in order, with the number of fields read and the elements left over. The text
  says what a list that is too short should have been. -/
  ofElements : String → List Json → Except DecodeError (α × Nat × List Json)

namespace Record

variable {α β γ : Type}

def start (value : α) : Record α where
  check _ _ := .ok ()
  ofMembers _ := .ok value
  ofElements _ items := .ok (value, 0, items)

def field [Wire β] (r : Record (β → γ)) (name : String) (absence : Absence β) : Record γ where
  check key j := if key = name then (decode j : Except DecodeError β).map fun _ => () else r.check key j
  ofMembers members := do
    let make ← r.ofMembers members
    match members.find? fun m => m.1 == name with
    | some m => (decode m.2).map make
    | none => match absence.member with
      | some value => .ok (make value)
      | none => .error (.missingField name)
  ofElements expected items := do
    let (make, count, rest) ← r.ofElements expected items
    match rest with
    | j :: rest => (decode j).map fun value => (make value, count + 1, rest)
    | [] => match absence.element with
      | some value => .ok (make value, count + 1, [])
      | none => .error (.wrongLength count expected)

def decodeMembers (r : Record α) (members : List (String × Json)) : Except DecodeError α := do
  -- Faulty members come before missing ones, wherever the missing ones would stand.
  members.forM fun m => r.check m.1 m.2
  r.ofMembers members

def decode (r : Record α) (name : String) (size : Nat) : Json → Except DecodeError α
  | .object members => r.decodeMembers members
  | .array items => do
    let expected := "struct " ++ name ++ " with " ++ toString size ++ " elements"
    let (value, _, rest) ← r.ofElements expected items
    if rest.isEmpty then .ok value
    else .error (.wrongLength items.length "fewer elements in array")
  | j => .error (.wrongType j.found ("struct " ++ name))

end Record

/-- Reads a variant by its name, with its content if it stands as the only member of an object. -/
def decodeVariant {α : Type} (known : List String)
    (body : String → Option Json → Except DecodeError α) : Json → Except DecodeError α
  | .text name => if name ∈ known then body name none else .error (.unknownVariant name known)
  | .object [(name, content)] =>
    if name ∈ known then body name (some content) else .error (.unknownVariant name known)
  | .object _ => .error (.wrongValue .map "map with a single key")
  | j => .error (.wrongType j.found "string or map")

def decodeBare {α : Type} (value : α) : Option Json → Except DecodeError α
  | none => .ok value
  | some .null => .ok value
  | some j => .error (.wrongType j.found "unit")

def Record.decodeContent {α : Type} (r : Record α) : Option Json → Except DecodeError α
  | none => .error (.wrongType .unitVariant "struct variant")
  | some (.object members) => r.decodeMembers members
  | some j => .error (.wrongType j.found "struct variant")

def decodeNamed {α : Type} (values : List α) (name : α → String) : Json → Except DecodeError α :=
  decodeVariant (values.map name) fun found content =>
    match values.find? fun a => name a == found with
    | some a => decodeBare a content
    | none => .error (.unknownVariant found (values.map name))

end FrameAtlas
