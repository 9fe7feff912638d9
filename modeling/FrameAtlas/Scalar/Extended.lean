import FrameAtlas.Scalar.Exact

/-!
Rationals with what doubles have beside them: two infinities and the undefined value. Arithmetic is exact, and every
number that can be read stands for itself.
-/

namespace FrameAtlas

inductive Extended where
  | number (x : Rat)
  | infinite (negative : Bool)
  | undefined
deriving DecidableEq, Repr

namespace Extended

def negate : Extended → Extended
  | number x => number (-x)
  | infinite negative => infinite (!negative)
  | undefined => undefined

def sum : Extended → Extended → Extended
  | number a, number b => number (a + b)
  | number _, infinite negative => infinite negative
  | infinite negative, number _ => infinite negative
  | infinite a, infinite b => if a = b then infinite a else undefined
  | _, _ => undefined

def scaled (negative : Bool) (x : Rat) : Extended :=
  if x = 0 then undefined else infinite (negative != decide (x < 0))

def product : Extended → Extended → Extended
  | number a, number b => number (a * b)
  | number a, infinite negative => scaled negative a
  | infinite negative, number b => scaled negative b
  | infinite a, infinite b => infinite (a != b)
  | _, _ => undefined

/-- Zero has no sign, so what is divided by it keeps its own. -/
def quotient : Extended → Extended → Extended
  | number a, number b => if b = 0 then scaled false a else number (a / b)
  | number _, infinite _ => number 0
  | infinite negative, number b => infinite (negative != decide (b < 0))
  | _, _ => undefined

def isBelow : Extended → Extended → Bool
  | number a, number b => decide (a < b)
  | number _, infinite negative => !negative
  | infinite negative, number _ => negative
  | infinite a, infinite b => a && !b
  | _, _ => false

def compareEqual : Extended → Extended → Bool
  | number a, number b => decide (a = b)
  | infinite a, infinite b => a == b
  | _, _ => false

def map (f : Rat → Rat) : Extended → Extended
  | number x => number (f x)
  | infinite negative => infinite negative
  | undefined => undefined

def count : Extended → Nat
  | number x => Scalar.toNat x
  | _ => 0

instance : Scalar Extended where
  natCast n := number n
  add := sum
  sub a b := sum a b.negate
  mul := product
  div := quotient
  lt a b := a.isBelow b = true
  le a b := (a.isBelow b || a.compareEqual b) = true
  beq := compareEqual
  decidableLT a b := inferInstanceAs (Decidable (a.isBelow b = true))
  decidableLE a b := inferInstanceAs (Decidable ((a.isBelow b || a.compareEqual b) = true))
  floor := map Scalar.floor
  round := map Scalar.round
  toNat := count
  isFinite
    | number _ => true
    | _ => false
  oneDecimal
    | number x => Scalar.oneDecimal x
    | infinite negative => if negative then "-inf" else "inf"
    | undefined => "NaN"
  ofLiteral?
    | .undefined => some undefined
    | .infinite negative => some (infinite negative)
    | .decimal negative digits exponent => some (number (rationalOfDecimal negative digits exponent))

theorem number_lt (a b : Rat) : number a < number b ↔ a < b := decide_eq_true_iff

theorem number_le (a b : Rat) : number a ≤ number b ↔ a ≤ b := by
  show (decide (a < b) || decide (a = b)) = true ↔ a ≤ b
  rw [Bool.or_eq_true, decide_eq_true_iff, decide_eq_true_iff]
  exact Rat.le_iff_lt_or_eq.symm

theorem number_add (a b : Rat) : number a + number b = number (a + b) := rfl

end Extended

end FrameAtlas
