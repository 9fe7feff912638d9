import FrameAtlas.Number.Literal

/-!
The numbers that positions and sizes are made of. Every layout rule of the library is written over
this interface, so the same rule runs on doubles and on exact rationals.
-/

namespace FrameAtlas

class Scalar (α : Type) extends NatCast α, Add α, Sub α, Mul α, Div α, LT α, LE α, BEq α where
  decidableLT : DecidableLT α
  decidableLE : DecidableLE α
  floor : α → α
  /-- The nearest whole number, halves going away from zero. -/
  round : α → α
  /-- The whole part as a count; what is negative or undefined counts as zero. -/
  toNat : α → Nat
  isFinite : α → Bool
  oneDecimal : α → String
  ofLiteral? : NumberLiteral → Option α

instance Scalar.instDecidableLT {α : Type} [Scalar α] : DecidableLT α := Scalar.decidableLT

instance Scalar.instDecidableLE {α : Type} [Scalar α] : DecidableLE α := Scalar.decidableLE

namespace Scalar

variable {α : Type} [Scalar α]

/-- Whether a number is undefined: the only numbers that differ from themselves. -/
def isUndefined (x : α) : Bool := !(x == x)

def larger (a b : α) : α := if a < b then b else if isUndefined a then b else a

def smaller (a b : α) : α := if b < a then b else if isUndefined a then b else a

def positivePart (x : α) : α := if ((0 : Nat) : α) < x then x else ((0 : Nat) : α)

def clamp (low high x : α) : α :=
  let raised := if x < low then low else x
  if high < raised then high else raised

def distance (a b : α) : α := if a < b then b - a else a - b

def sum (xs : List α) : α := xs.foldl (· + ·) ((0 : Nat) : α)

end Scalar

end FrameAtlas
