namespace FrameAtlas

inductive Tie where
  | toEven
  | up
deriving DecidableEq, Repr

def roundQuotient (tie : Tie) (num den : Nat) : Nat :=
  let whole := num / den
  let twiceRest := 2 * (num % den)
  if twiceRest < den then whole
  else if den < twiceRest then whole + 1
  else match tie with
    | .up => whole + 1
    | .toEven => if whole % 2 = 0 then whole else whole + 1

def oneDecimalText (negative : Bool) (num den : Nat) : String :=
  let tenths := roundQuotient .toEven (10 * num) den
  (if negative then "-" else "") ++ toString (tenths / 10) ++ "." ++ toString (tenths % 10)

end FrameAtlas
