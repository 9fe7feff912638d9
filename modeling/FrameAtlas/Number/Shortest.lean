import FrameAtlas.Number.Binary64
import FrameAtlas.Number.Rounding
import FrameAtlas.Text.Digits

/-!
The fewest decimal digits that identify a double: the first grid of powers of ten on which a
neighbour of the value reads back as that value, and of two such neighbours the nearer one.
-/

namespace FrameAtlas

structure Decimal where
  digits : Nat
  exponent : Int
deriving DecidableEq, Repr

def compareScaled (a : Nat) (i : Int) (b : Nat) (j : Int) : Ordering :=
  compare (a * Nat.pow 10 i.toNat * Nat.pow 2 (-j).toNat) (b * Nat.pow 2 j.toNat * Nat.pow 10 (-i).toNat)

namespace Magnitude

/-- Whether a decimal lies among the reals that round to this magnitude. The ends of that interval
belong to it exactly when the mantissa is even. -/
def readsBack (m : Magnitude) (d : Decimal) : Bool :=
  let low := if m.narrowBelow then 4 * m.mantissa - 1 else 4 * m.mantissa - 2
  let atLow := compareScaled d.digits d.exponent low (m.exponent - 2)
  let atHigh := compareScaled d.digits d.exponent (4 * m.mantissa + 2) (m.exponent - 2)
  let closed := m.mantissa % 2 == 0
  (atLow == .gt || (closed && atLow == .eq)) && (atHigh == .lt || (closed && atHigh == .eq))

def scale (m : Magnitude) : Int :=
  let num := m.numerator
  let den := m.denominator
  if den ≤ num then (decimalDigits (num / den)).length
  else 1 - ((decimalDigits ((den + num - 1) / num - 1)).length : Int)

/-- The shortest decimal on the grid of `count` leading digits, if one of the value's two neighbours
on that grid reads back. -/
def onGrid? (m : Magnitude) (tie : Tie) (count : Nat) : Option Decimal :=
  let e := m.scale - count
  let num := m.numerator * Nat.pow 10 (-e).toNat
  let den := m.denominator * Nat.pow 10 e.toNat
  let below : Decimal := ⟨num / den, e⟩
  let above : Decimal := ⟨num / den + 1, e⟩
  match m.readsBack below, m.readsBack above with
  | true, true => some ⟨roundQuotient tie num den, e⟩
  | true, false => some below
  | false, true => some above
  | false, false => none

/-- Seventeen digits identify every double; the exact binary expansion stands behind the search so
that it never has to guess. -/
def shortest (m : Magnitude) (tie : Tie) : Decimal :=
  match (List.range 17).findSome? fun n => m.onGrid? tie (n + 1) with
  | some d => d
  | none =>
    ⟨m.mantissa * Nat.pow 2 m.exponent.toNat * Nat.pow 5 (-m.exponent).toNat, -((-m.exponent).toNat : Int)⟩

end Magnitude

end FrameAtlas
