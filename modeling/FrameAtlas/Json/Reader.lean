import FrameAtlas.Json.Value
import FrameAtlas.Text.Digits

/-!
Data trees read from text. The grammar is the strict one: no trailing commas, no comments, control
characters only as escapes, and no half of a surrogate pair without the other. Lists and objects
nest at most `maxDepth` deep. Of members with one name the last counts, and members stand in
ascending order of their names.
-/

namespace FrameAtlas.Json

def maxDepth : Nat := 127

abbrev Reader (α : Type) := List Char → Option (α × List Char)

def isSpace (c : Char) : Bool := c == ' ' || c == '\n' || c == '\t' || c == '\r'

def skipSpace (s : List Char) : List Char := s.dropWhile isSpace

/-- Leading digits as far as they fit into 64 bits, and a power of ten for what was left out. -/
structure Significand where
  digits : Nat
  exponent : Int

def Significand.pushWhole (s : Significand) (c : Char) : Significand :=
  let next := 10 * s.digits + digitValue c
  if s.exponent = 0 && decide (next < UInt64.size) then ⟨next, 0⟩ else ⟨s.digits, s.exponent + 1⟩

def Significand.pushPart (s : Significand) : List Char → Significand
  | [] => s
  | c :: rest =>
    let next := 10 * s.digits + digitValue c
    if next < UInt64.size then pushPart ⟨next, s.exponent - 1⟩ rest else s

def scaleDown : Nat → Float → Float
  | 0, x => x
  | n + 1, x => if x == 0.0 then x else scaleDown n (x / Float.ofNat (Nat.pow 10 308))

def Significand.toFloat? (s : Significand) : Option Float :=
  let x := Float.ofNat s.digits
  if 0 ≤ s.exponent then
    if 308 < s.exponent then (if s.digits = 0 then some 0.0 else none)
    else
      let scaled := x * Float.ofNat (Nat.pow 10 s.exponent.toNat)
      if scaled.isInf then none else some scaled
  else
    let places := (-s.exponent).toNat
    let steps := (places - 1) / 308
    some (scaleDown steps x / Float.ofNat (Nat.pow 10 (places - 308 * steps)))

def readDigits (s : List Char) : Option (List Char × List Char) :=
  let digits := s.takeWhile Char.isDigit
  if digits.isEmpty then none else some (digits, s.dropWhile Char.isDigit)

def readExponent : Reader Int
  | '-' :: s => (readDigits s).map fun (ds, rest) => (-(digitsValue ds : Int), rest)
  | '+' :: s => (readDigits s).map fun (ds, rest) => ((digitsValue ds : Int), rest)
  | s => (readDigits s).map fun (ds, rest) => ((digitsValue ds : Int), rest)

def readPart : Reader (Option (List Char))
  | '.' :: s => (readDigits s).map fun (ds, rest) => (some ds, rest)
  | s => some (none, s)

def readPower : Reader (Option Int)
  | 'e' :: s => (readExponent s).map fun (e, rest) => (some e, rest)
  | 'E' :: s => (readExponent s).map fun (e, rest) => (some e, rest)
  | s => some (none, s)

/-- The number that digits, part and power stand for. A whole number that fits 64 bits with its sign
is kept as such, except for minus zero, which only a double can hold. -/
def numberOf? (negative : Bool) (whole : List Char) (part : Option (List Char)) (power : Option Int) :
    Option Number :=
  let base := whole.foldl Significand.pushWhole ⟨0, 0⟩
  let isWhole := part.isNone && power.isNone && decide (base.exponent = 0)
  if isWhole && !negative then some (.integer base.digits)
  else if isWhole && base.digits != 0 && decide (base.digits ≤ Nat.pow 2 63) then
    some (.integer (-(base.digits : Int)))
  else
    let full := base.pushPart (part.getD [])
    let scaled : Significand := ⟨full.digits, full.exponent + power.getD 0⟩
    scaled.toFloat?.map fun x => .float (if negative then -x else x)

def readUnsigned (negative : Bool) (s : List Char) : Option (Number × List Char) := do
  let (whole, rest) ← readDigits s
  if whole.head? = some '0' && decide (1 < whole.length) then none
  else
    let (part, rest) ← readPart rest
    let (power, rest) ← readPower rest
    let number ← numberOf? negative whole part power
    some (number, rest)

def readNumber : Reader Number
  | '-' :: s => readUnsigned true s
  | s => readUnsigned false s

def hexValue? (c : Char) : Option Nat :=
  if '0' ≤ c && c ≤ '9' then some (c.toNat - '0'.toNat)
  else if 'a' ≤ c && c ≤ 'f' then some (c.toNat - 'a'.toNat + 10)
  else if 'A' ≤ c && c ≤ 'F' then some (c.toNat - 'A'.toNat + 10)
  else none

def readUnit : Reader Nat
  | a :: b :: c :: d :: rest => do
    let a ← hexValue? a
    let b ← hexValue? b
    let c ← hexValue? c
    let d ← hexValue? d
    some (((a * 16 + b) * 16 + c) * 16 + d, rest)
  | _ => none

def readCode (s : List Char) : Option (Char × List Char) := do
  let (unit, rest) ← readUnit s
  if 0xDC00 ≤ unit && unit ≤ 0xDFFF then none
  else if 0xD800 ≤ unit && unit ≤ 0xDBFF then
    match rest with
    | '\\' :: 'u' :: t => do
      let (low, rest) ← readUnit t
      if 0xDC00 ≤ low && low ≤ 0xDFFF then
        some (Char.ofNat (0x10000 + (unit - 0xD800) * 0x400 + (low - 0xDC00)), rest)
      else none
    | _ => none
  else some (Char.ofNat unit, rest)

def unescape? : Char → Option Char
  | '"' => some '"'
  | '\\' => some '\\'
  | '/' => some '/'
  | 'b' => some '\x08'
  | 'f' => some '\x0c'
  | 'n' => some '\n'
  | 'r' => some '\r'
  | 't' => some '\t'
  | _ => none

def readText : Nat → List Char → List Char → Option (String × List Char)
  | 0, _, _ => none
  | fuel + 1, read, s => match s with
    | [] => none
    | '"' :: rest => some (String.ofList read.reverse, rest)
    | '\\' :: 'u' :: rest => do
      let (c, rest) ← readCode rest
      readText fuel (c :: read) rest
    | '\\' :: c :: rest => do
      let c ← unescape? c
      readText fuel (c :: read) rest
    | c :: rest => if c.toNat < 0x20 || c == '\\' then none else readText fuel (c :: read) rest

def insertMember (name : String) (value : Json) : List (String × Json) → List (String × Json)
  | [] => [(name, value)]
  | m :: rest =>
    if name < m.1 then (name, value) :: m :: rest
    else if m.1 < name then m :: insertMember name value rest
    else (name, value) :: rest

def readWord (word : List Char) (value : Json) (s : List Char) : Option (Json × List Char) :=
  if s.take word.length = word then some (value, s.drop word.length) else none

mutual

/-- A tree that stands inside `maxDepth - depth` others. -/
def readValue : Nat → Nat → List Char → Option (Json × List Char)
  | 0, _, _ => none
  | fuel + 1, depth, s => match skipSpace s with
    | 'n' :: rest => readWord ['u', 'l', 'l'] .null rest
    | 't' :: rest => readWord ['r', 'u', 'e'] (.boolean true) rest
    | 'f' :: rest => readWord ['a', 'l', 's', 'e'] (.boolean false) rest
    | '"' :: rest => (readText fuel [] rest).map fun (t, rest) => (.text t, rest)
    | '[' :: rest => match depth with
      | 0 => none
      | inner + 1 => match skipSpace rest with
        | ']' :: rest => some (.array [], rest)
        | rest => (readItems fuel inner [] rest).map fun (items, rest) => (.array items, rest)
    | '\x7b' :: rest => match depth with
      | 0 => none
      | inner + 1 => match skipSpace rest with
        | '\x7d' :: rest => some (.object [], rest)
        | rest => (readMembers fuel inner [] rest).map fun (members, rest) => (.object members, rest)
    | rest => (readNumber rest).map fun (n, rest) => (.number n, rest)

def readItems : Nat → Nat → List Json → List Char → Option (List Json × List Char)
  | 0, _, _, _ => none
  | fuel + 1, depth, read, s => do
    let (item, rest) ← readValue fuel depth s
    match skipSpace rest with
    | ',' :: rest => readItems fuel depth (item :: read) rest
    | ']' :: rest => some ((item :: read).reverse, rest)
    | _ => none

def readMembers :
    Nat → Nat → List (String × Json) → List Char → Option (List (String × Json) × List Char)
  | 0, _, _, _ => none
  | fuel + 1, depth, read, s => match skipSpace s with
    | '"' :: rest => do
      let (name, rest) ← readText fuel [] rest
      match skipSpace rest with
      | ':' :: rest => do
        let (value, rest) ← readValue fuel depth rest
        let read := insertMember name value read
        match skipSpace rest with
        | ',' :: rest => readMembers fuel depth read rest
        | '\x7d' :: rest => some (read, rest)
        | _ => none
      | _ => none
    | _ => none

end

def ofChars? (s : List Char) : Option Json := do
  let (value, rest) ← readValue (2 * s.length + 2) maxDepth s
  if (skipSpace rest).isEmpty then some value else none

def ofBytes? (data : ByteArray) : Option Json := do
  let s ← String.fromUTF8? data
  ofChars? s.toList

end FrameAtlas.Json
