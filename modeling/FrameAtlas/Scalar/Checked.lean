import FrameAtlas.Scalar.Exact

namespace FrameAtlas

/-- A rational, or the failure of a computation that divided by zero. -/
inductive Checked where
  | number (x : Rat)
  | failed
deriving DecidableEq, Repr

namespace Checked

def combine (f : Rat → Rat → Checked) : Checked → Checked → Checked
  | number a, number b => f a b
  | _, _ => failed

def quotient (a b : Rat) : Checked := if b = 0 then failed else number (a / b)

/-- Failure stands above all numbers, so that it is not lost in the larger of two operands. -/
def isBelow : Checked → Checked → Bool
  | number a, number b => decide (a < b)
  | number _, failed => true
  | failed, _ => false

def map (f : Rat → Rat) : Checked → Checked
  | number x => number (f x)
  | failed => failed

instance : Scalar Checked where
  natCast n := number n
  add := combine fun a b => number (a + b)
  sub := combine fun a b => number (a - b)
  mul := combine fun a b => number (a * b)
  div := combine quotient
  lt a b := a.isBelow b = true
  le a b := b.isBelow a = false
  decidableLT a b := inferInstanceAs (Decidable (a.isBelow b = true))
  decidableLE a b := inferInstanceAs (Decidable (b.isBelow a = false))
  floor := map Scalar.floor
  round := map Scalar.round
  toNat
    | number x => Scalar.toNat x
    | failed => 0
  isFinite
    | number _ => true
    | failed => false
  oneDecimal
    | number x => Scalar.oneDecimal x
    | failed => "failed"
  ofLiteral? l := (Scalar.ofLiteral? l).map number

/-- A division by something else than zero does not fail. -/
theorem number_div (a : Rat) {b : Rat} (h : b ≠ 0) : number a / number b = number (a / b) := if_neg h

theorem number_lt (a b : Rat) : number a < number b ↔ a < b := decide_eq_true_iff

end Checked

end FrameAtlas
