namespace FrameAtlas

def digitValue (c : Char) : Nat := c.toNat - '0'.toNat

def digitsValue (ds : List Char) : Nat := ds.foldl (fun n c => 10 * n + digitValue c) 0

def decimalDigits (n : Nat) : List Char := Nat.toDigits 10 n

/-- Decimal digits read back as the number that they write. -/
theorem digitsValue_decimalDigits (n : Nat) : digitsValue (decimalDigits n) = n := by
  have h := Nat.ofDigitChars_toDigits (b := 10) (n := n) (by decide) (by decide)
  unfold digitsValue decimalDigits digitValue
  simpa [Nat.ofDigitChars] using h

def hexDigits (n : Nat) : List Char := Nat.toDigits 16 n

end FrameAtlas
