import FrameAtlas.Number.Rounding
import FrameAtlas.Scalar

namespace FrameAtlas

def roundRational (x : Rat) : Rat :=
  if x < 0 then -((-x + 1 / 2).floor : Rat) else ((x + 1 / 2).floor : Rat)

def rationalOfDecimal (negative : Bool) (digits : Nat) (exponent : Int) : Rat :=
  let size : Rat := (digits * Nat.pow 10 exponent.toNat : Nat) / (Nat.pow 10 (-exponent).toNat : Nat)
  if negative then -size else size

/-- The names of infinity and of the undefined value stand for no rational. -/
def rationalOfLiteral? : NumberLiteral → Option Rat
  | .undefined => none
  | .infinite _ => none
  | .decimal negative digits exponent => some (rationalOfDecimal negative digits exponent)

instance : Scalar Rat where
  decidableLT := inferInstance
  decidableLE := inferInstance
  floor x := (x.floor : Rat)
  round := roundRational
  toNat x := x.floor.toNat
  isFinite _ := true
  oneDecimal x := oneDecimalText (x < 0) x.num.natAbs x.den
  ofLiteral? := rationalOfLiteral?

end FrameAtlas
