import FrameAtlas.Number.Shortest

namespace FrameAtlas

/-- How shortest digits are laid out. Bounds are exponents of the leading digit; `none` is no bound. -/
structure NumberForm where
  positionalFrom : Option Int
  positionalBelow : Option Int
  pointZero : Bool
  tie : Tie
deriving DecidableEq, Repr

namespace NumberForm

def strip : List Char → Int → List Char × Int
  | reversed, e =>
    let zeros := (reversed.takeWhile (· == '0')).length
    ((reversed.drop zeros).reverse, e + zeros)

def positional (form : NumberForm) (digits : List Char) (exponent : Int) : List Char :=
  let pointAt := (digits.length : Int) + exponent
  if 0 ≤ exponent then
    digits ++ List.replicate exponent.toNat '0' ++ (if form.pointZero then ['.', '0'] else [])
  else if 0 < pointAt then
    digits.take pointAt.toNat ++ '.' :: digits.drop pointAt.toNat
  else
    '0' :: '.' :: (List.replicate (-pointAt).toNat '0' ++ digits)

def scientific (digits : List Char) (leading : Int) : List Char :=
  digits.take 1 ++ (if digits.length ≤ 1 then [] else '.' :: digits.drop 1) ++
    'e' :: (if leading < 0 then '-' else '+') :: decimalDigits leading.natAbs

def decimal (form : NumberForm) (d : Decimal) : List Char :=
  let (digits, exponent) := strip (decimalDigits d.digits).reverse d.exponent
  let leading := (digits.length : Int) + exponent - 1
  let longEnough := match form.positionalFrom with
    | some low => decide (low ≤ leading)
    | none => true
  let shortEnough := match form.positionalBelow with
    | some high => decide (leading < high)
    | none => true
  if longEnough && shortEnough then form.positional digits exponent else scientific digits leading

def text (form : NumberForm) (x : Float) : String :=
  match Binary64.ofFloat x with
  | .undefined => "NaN"
  | .infinite negative => if negative then "-inf" else "inf"
  | .finite negative m =>
    let digits :=
      if m.mantissa = 0 then (if form.pointZero then ['0', '.', '0'] else ['0'])
      else form.decimal (m.shortest form.tie)
    String.ofList (if negative then '-' :: digits else digits)

end NumberForm

end FrameAtlas
