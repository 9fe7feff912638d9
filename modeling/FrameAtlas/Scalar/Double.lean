import FrameAtlas.Number.Binary64
import FrameAtlas.Number.Rounding
import FrameAtlas.Scalar

/-!
Doubles as scalars.
-/

namespace FrameAtlas

/-- The double nearest to `digits * 10 ^ exponent`. Exponents far outside the range of doubles are
settled before any power is formed. -/
def nearestDouble (digits : Nat) (exponent : Int) : Float :=
  let leading := (decimalDigits digits).length + exponent
  if digits = 0 || leading < -400 then 0.0
  else if 400 < leading then 1.0 / 0.0
  else Float.ofScientific digits (exponent < 0) exponent.natAbs

def doubleOfLiteral : NumberLiteral → Float
  | .undefined => 0.0 / 0.0
  | .infinite negative => if negative then -1.0 / 0.0 else 1.0 / 0.0
  | .decimal negative digits exponent =>
    if negative then -(nearestDouble digits exponent) else nearestDouble digits exponent

def doubleOneDecimal (x : Float) : String :=
  match Binary64.ofFloat x with
  | .undefined => "NaN"
  | .infinite negative => if negative then "-inf" else "inf"
  | .finite negative m => oneDecimalText negative m.numerator m.denominator

instance : Scalar Float where
  natCast := Float.ofNat
  decidableLT := inferInstance
  decidableLE := inferInstance
  floor := Float.floor
  round := Float.round
  toNat x := x.toUInt64.toNat
  isFinite := Float.isFinite
  oneDecimal := doubleOneDecimal
  ofLiteral? l := some (doubleOfLiteral l)

end FrameAtlas
