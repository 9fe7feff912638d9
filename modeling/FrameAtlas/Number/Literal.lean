import FrameAtlas.Text.Digits

namespace FrameAtlas

inductive NumberLiteral where
  | undefined
  | infinite (negative : Bool)
  | decimal (negative : Bool) (digits : Nat) (exponent : Int)
deriving DecidableEq, Repr

namespace NumberLiteral

def exponent? : List Char → Option Int
  | [] => some 0
  | mark :: rest =>
    if mark != 'e' && mark != 'E' then none
    else
      let (negative, ds) := match rest with
        | '-' :: ds => (true, ds)
        | '+' :: ds => (false, ds)
        | ds => (false, ds)
      if ds.isEmpty || !ds.all Char.isDigit then none
      else some (if negative then -(digitsValue ds : Int) else digitsValue ds)

def decimal? (negative : Bool) (s : List Char) : Option NumberLiteral :=
  let whole := s.takeWhile Char.isDigit
  let afterWhole := s.dropWhile Char.isDigit
  let (part, rest) := match afterWhole with
    | '.' :: t => (t.takeWhile Char.isDigit, t.dropWhile Char.isDigit)
    | t => ([], t)
  if whole.isEmpty && part.isEmpty then none
  else (exponent? rest).map fun e => .decimal negative (digitsValue (whole ++ part)) (e - part.length)

def unsigned? (negative : Bool) (s : List Char) : Option NumberLiteral :=
  let name := s.map Char.toLower
  if name = ['n', 'a', 'n'] then some .undefined
  else if name = ['i', 'n', 'f'] || name = ['i', 'n', 'f', 'i', 'n', 'i', 't', 'y'] then
    some (.infinite negative)
  else decimal? negative s

def ofText? : List Char → Option NumberLiteral
  | '-' :: s => unsigned? true s
  | '+' :: s => unsigned? false s
  | s => unsigned? false s

end NumberLiteral

end FrameAtlas
