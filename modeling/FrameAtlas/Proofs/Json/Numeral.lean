import FrameAtlas.Json.Decode
import Mathlib.Data.List.Induction

namespace FrameAtlas

theorem decimalDigits_ne_nil (n : Nat) : decimalDigits n ≠ [] := Nat.toDigits_ne_nil

theorem isDigit_of_mem_decimalDigits {n : Nat} {c : Char} (hc : c ∈ decimalDigits n) : c.isDigit = true :=
  Nat.isDigit_of_mem_toDigits (by decide) (by decide) hc

/-- No digits of a number but zero start with a zero. -/
theorem eq_zero_of_head?_decimalDigits {n : Nat} (h : (decimalDigits n).head? = some '0') : n = 0 := by
  induction n using Nat.strongRecOn with
  | ind n ih =>
    by_cases hsmall : n < 10
    · have hdigit : ∀ k < 10, Nat.digitChar k = '0' → k = 0 := by decide
      rw [decimalDigits, Nat.toDigits_of_lt_base hsmall] at h
      exact hdigit n hsmall (Option.some.inj h)
    · have hmany : decimalDigits n = decimalDigits (n / 10) ++ [Nat.digitChar (n % 10)] :=
        Nat.toDigits_of_base_le (by decide) (by omega)
      obtain ⟨c, tail, hfirst⟩ := List.exists_cons_of_ne_nil (decimalDigits_ne_nil (n / 10))
      have hhead : (decimalDigits (n / 10)).head? = some '0' := by
        rw [hmany, hfirst] at h
        rw [hfirst]
        exact h
      have hzero := ih (n / 10) (by omega) hhead
      omega

theorem digitsValue_concat (ds : List Char) (c : Char) :
    digitsValue (ds ++ [c]) = 10 * digitsValue ds + digitValue c := by
  rw [digitsValue, List.foldl_append]
  rfl

namespace Json

def EndsNumber (rest : List Char) : Prop :=
  ∀ c ∈ rest.head?, c.isDigit = false ∧ c ≠ '.' ∧ c ≠ 'e' ∧ c ≠ 'E'

theorem endsNumber_nil : EndsNumber [] := by
  intro c hc
  contradiction

theorem endsNumber_cons {c : Char} (hc : c.isDigit = false ∧ c ≠ '.' ∧ c ≠ 'e' ∧ c ≠ 'E')
    (rest : List Char) : EndsNumber (c :: rest) := by
  intro d hd
  rw [← Option.some.inj hd]
  exact hc

/-- Digits are read up to where the number ends. -/
theorem readDigits_append {ds rest : List Char} (hdigits : ∀ c ∈ ds, c.isDigit = true) (hsome : ds ≠ [])
    (hrest : EndsNumber rest) : readDigits (ds ++ rest) = some (ds, rest) := by
  have hstop : rest.takeWhile Char.isDigit = [] ∧ rest.dropWhile Char.isDigit = rest := by
    cases rest with
    | nil => exact ⟨rfl, rfl⟩
    | cons c tail =>
      have hc : c.isDigit = false := (hrest c rfl).1
      rw [List.takeWhile_cons, List.dropWhile_cons, hc]
      exact ⟨rfl, rfl⟩
  have htake : (ds ++ rest).takeWhile Char.isDigit = ds := by
    rw [List.takeWhile_append_of_pos hdigits, hstop.1, List.append_nil]
  have hdrop : (ds ++ rest).dropWhile Char.isDigit = rest := by
    rw [List.dropWhile_append_of_pos hdigits, hstop.2]
  have hne : ds.isEmpty = false := by
    rw [List.isEmpty_eq_false_iff]
    exact hsome
  rw [readDigits, htake, hdrop]
  simp only [hne, Bool.false_eq_true, if_false]

theorem readPart_of_endsNumber {rest : List Char} (h : EndsNumber rest) : readPart rest = some (none, rest) := by
  unfold readPart
  split
  · exact absurd rfl (h '.' rfl).2.1
  · rfl

theorem readPower_of_endsNumber {rest : List Char} (h : EndsNumber rest) :
    readPower rest = some (none, rest) := by
  unfold readPower
  split
  · exact absurd rfl (h 'e' rfl).2.2.1
  · exact absurd rfl (h 'E' rfl).2.2.2
  · rfl

/-- Digits whose value fits into 64 bits are all taken, since every run of their first ones fits too. -/
theorem foldl_pushWhole {ds : List Char} (h : digitsValue ds < UInt64.size) :
    ds.foldl Significand.pushWhole ⟨0, 0⟩ = ⟨digitsValue ds, 0⟩ := by
  induction ds using List.reverseRecOn with
  | nil => rfl
  | append_singleton ds c ih =>
    rw [digitsValue_concat] at h ⊢
    have hfirst : digitsValue ds < UInt64.size := by omega
    rw [List.foldl_append, ih hfirst, List.foldl_cons, List.foldl_nil, Significand.pushWhole]
    simp only [decide_true, Bool.true_and, h, if_true]

theorem readUnsigned_decimalDigits (n : Nat) {rest : List Char} (hrest : EndsNumber rest)
    (negative : Bool) :
    readUnsigned negative (decimalDigits n ++ rest) =
      (numberOf? negative (decimalDigits n) none none).map fun number => (number, rest) := by
  have hdigits := readDigits_append (fun _ => isDigit_of_mem_decimalDigits) (decimalDigits_ne_nil n) hrest
  have hleading : ¬((decimalDigits n).head? = some '0' && decide (1 < (decimalDigits n).length)) = true := by
    rw [Bool.and_eq_true, decide_eq_true_eq, decide_eq_true_eq]
    rintro ⟨hhead, hlength⟩
    rw [eq_zero_of_head?_decimalDigits hhead] at hlength
    exact absurd hlength (by decide)
  rw [readUnsigned, hdigits]
  simp only [Option.bind_eq_bind, Option.bind_some, if_neg hleading, readPart_of_endsNumber hrest,
    readPower_of_endsNumber hrest]
  cases numberOf? negative (decimalDigits n) none none <;> rfl

/-- Natural numbers up to the largest of 64 bits read back. -/
theorem readNumber_decimalDigits {n : Nat} (hn : n < UInt64.size) {rest : List Char}
    (hrest : EndsNumber rest) : readNumber (decimalDigits n ++ rest) = some (.integer n, rest) := by
  have hplain : readNumber (decimalDigits n ++ rest) = readUnsigned false (decimalDigits n ++ rest) := by
    cases hdigits : decimalDigits n with
    | nil => exact absurd hdigits (decimalDigits_ne_nil n)
    | cons c tail =>
      have hc : c.isDigit = true := isDigit_of_mem_decimalDigits (hdigits ▸ List.mem_cons_self)
      unfold readNumber
      split
      · rename_i hminus
        rw [(List.cons.inj hminus).1] at hc
        exact absurd hc (by decide)
      · rfl
  have hvalue : digitsValue (decimalDigits n) < UInt64.size := by rwa [digitsValue_decimalDigits]
  rw [hplain, readUnsigned_decimalDigits n hrest, numberOf?, foldl_pushWhole hvalue,
    digitsValue_decimalDigits]
  rfl

/-- Negative numbers down to the least of 64 bits read back. -/
theorem readNumber_minus_decimalDigits {n : Nat} (hpos : 0 < n) (hn : n ≤ Nat.pow 2 63) {rest : List Char}
    (hrest : EndsNumber rest) :
    readNumber ('-' :: (decimalDigits n ++ rest)) = some (.integer (-(n : Int)), rest) := by
  have hvalue : digitsValue (decimalDigits n) < UInt64.size := by
    rw [digitsValue_decimalDigits]
    exact Nat.lt_of_le_of_lt hn (by decide)
  have hsigned : ((n != 0) && decide (n ≤ Nat.pow 2 63)) = true := by
    rw [Bool.and_eq_true, bne_iff_ne, decide_eq_true_eq]
    exact ⟨by omega, hn⟩
  rw [readNumber, readUnsigned_decimalDigits n hrest, numberOf?, foldl_pushWhole hvalue,
    digitsValue_decimalDigits]
  simp [hsigned]

def FitsWord (n : Int) : Prop := -(Nat.pow 2 63 : Nat) ≤ n ∧ n < (UInt64.size : Nat)

/-- A written whole number is read back, if it fits a machine word. -/
theorem readNumber_render {n : Int} (hn : FitsWord n) {rest : List Char} (hrest : EndsNumber rest) :
    readNumber ((Number.integer n).render.toList ++ rest) = some (.integer n, rest) := by
  obtain ⟨hlow, hhigh⟩ := hn
  rw [Number.render, Int.toString_eq_repr, Int.repr_eq_if]
  split
  · rename_i hnonneg
    have hsize : n.toNat < UInt64.size := by omega
    have hread := readNumber_decimalDigits hsize hrest
    rw [Int.toNat_of_nonneg hnonneg] at hread
    rw [Nat.toList_repr]
    exact hread
  · rename_i hneg
    have hread := readNumber_minus_decimalDigits (n := (-n).toNat) (by omega) (by omega) hrest
    rw [Int.toNat_of_nonneg (by omega), Int.neg_neg] at hread
    rw [String.toList_append, Nat.toList_repr]
    exact hread

theorem decodeNatural_ofNat (expected : String) {n limit : Nat} (h : n < limit) :
    decodeNatural expected limit (.ofNat n) = .ok n := by
  have hrange : (0 : Int) ≤ n ∧ (n : Int) < limit := ⟨Int.natCast_nonneg n, Int.ofNat_lt.2 h⟩
  rw [ofNat, decodeNatural, if_pos hrange, Int.toNat_natCast]

end Json

theorem decode_encode_uint32 (n : UInt32) : (decode (encode n) : Except DecodeError UInt32) = .ok n := by
  show (Json.decodeNatural "u32" UInt32.size (.ofNat n.toNat)).map UInt32.ofNat = .ok n
  rw [Json.decodeNatural_ofNat "u32" n.toNat_lt_size]
  show Except.ok (UInt32.ofNat n.toNat) = _
  rw [UInt32.ofNat_toNat]

/-- A key is read as a number, by its whole text. -/
theorem decodeKey_of_readNumber {name : String} {c : Char} {tail : List Char} {n : Json.Number} {key : UInt32}
    (hname : name.toList = c :: tail) (hc : c.isDigit = true)
    (hread : Json.readNumber (c :: tail) = some (n, []))
    (hkey : (decode (Json.number n) : Except DecodeError UInt32) = .ok key) : decodeKey name = .ok key := by
  rw [decodeKey, hname]
  simp only [hc, Bool.true_or, if_true, hread, hkey, List.isEmpty_nil]

/-- A frame index is read from its digits. -/
theorem decodeKey_toString (key : UInt32) : decodeKey (toString key.toNat) = .ok key := by
  have hsize : key.toNat < UInt64.size := Nat.lt_trans key.toNat_lt_size (by decide)
  have hread := Json.readNumber_decimalDigits hsize Json.endsNumber_nil
  obtain ⟨c, tail, hdigits⟩ := List.exists_cons_of_ne_nil (decimalDigits_ne_nil key.toNat)
  have hc : c.isDigit = true := isDigit_of_mem_decimalDigits (hdigits ▸ List.mem_cons_self)
  have hname : (toString key.toNat).toList = c :: tail := Nat.toList_repr.trans hdigits
  rw [List.append_nil, hdigits] at hread
  exact decodeKey_of_readNumber hname hc hread (decode_encode_uint32 key)

end FrameAtlas
