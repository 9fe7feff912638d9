import FrameAtlas.Proofs.Json.Numeral
import FrameAtlas.Scalar.Double
import FrameAtlas.Scalar.Exact
import Mathlib.Algebra.Order.Field.Basic
import Mathlib.Data.List.TakeWhile
import Mathlib.Data.Rat.Cast.Order
import Mathlib.Tactic.Linarith

namespace FrameAtlas

/-- Rounding a quotient is off by half the divisor at most. -/
theorem roundQuotient_bounds (tie : Tie) (num : Nat) {den : Nat} (hden : 0 < den) :
    2 * num ≤ 2 * (roundQuotient tie num den * den) + den ∧
      2 * (roundQuotient tie num den * den) ≤ 2 * num + den := by
  have hsplit : den * (num / den) + num % den = num := Nat.div_add_mod num den
  have hrest : num % den < den := Nat.mod_lt num hden
  have hwhole : num / den * den = den * (num / den) := Nat.mul_comm _ _
  have hnext : (num / den + 1) * den = den * (num / den) + den := by rw [Nat.succ_mul, hwhole]
  unfold roundQuotient
  simp only
  split
  · rw [hwhole]
    omega
  · split
    · rw [hnext]
      omega
    · cases tie with
      | up =>
        simp only
        rw [hnext]
        omega
      | toEven =>
        simp only
        split
        · rw [hwhole]
          omega
        · rw [hnext]
          omega

theorem toList_oneDecimalText (negative : Bool) (num den : Nat) :
    let tenths := roundQuotient .toEven (10 * num) den
    (oneDecimalText negative num den).toList =
      (if negative then ['-'] else []) ++ (decimalDigits (tenths / 10) ++ '.' :: decimalDigits (tenths % 10)) := by
  intro tenths
  have hsign : (if negative then "-" else "").toList = if negative then ['-'] else [] := by
    cases negative with
    | false => rfl
    | true => rfl
  have hwhole : (toString (tenths / 10)).toList = decimalDigits (tenths / 10) := Nat.toList_repr
  have hpart : (toString (tenths % 10)).toList = decimalDigits (tenths % 10) := Nat.toList_repr
  have hpoint : ".".toList = ['.'] := rfl
  rw [oneDecimalText, String.toList_append, String.toList_append, String.toList_append, hsign, hwhole, hpoint, hpart,
    List.append_assoc, List.append_assoc]
  rfl

/-- Read without its point, a number of tenths is what it was. -/
theorem digitsValue_tenths (n : Nat) : digitsValue (decimalDigits (n / 10) ++ decimalDigits (n % 10)) = n := by
  have hpart : decimalDigits (n % 10) = [Nat.digitChar (n % 10)] :=
    Nat.toDigits_of_lt_base (Nat.mod_lt n (by decide))
  have hdigit : digitValue (Nat.digitChar (n % 10)) = n % 10 := by
    have hvalue := digitsValue_decimalDigits (n % 10)
    rw [hpart] at hvalue
    exact (Nat.zero_add _).symm.trans hvalue
  rw [hpart, digitsValue_concat, digitsValue_decimalDigits, hdigit]
  exact Nat.div_add_mod n 10

namespace NumberLiteral

/-- What has a point in it is no name. -/
theorem unsigned?_of_point {s : List Char} (hpoint : '.' ∈ s) (negative : Bool) :
    unsigned? negative s = decimal? negative s := by
  have hname : ∀ name : List Char, '.' ∉ name → s.map Char.toLower ≠ name := by
    rintro name hname rfl
    exact hname (List.mem_map.2 ⟨'.', hpoint, by decide⟩)
  rw [unsigned?]
  simp only [if_neg (hname ['n', 'a', 'n'] (by decide)), hname ['i', 'n', 'f'] (by decide),
    hname ['i', 'n', 'f', 'i', 'n', 'i', 't', 'y'] (by decide), decide_false, Bool.or_self, Bool.false_eq_true,
    if_false]

theorem decimal?_point {whole part : List Char} (hwhole : ∀ c ∈ whole, c.isDigit = true) (hsome : whole ≠ [])
    (hpart : ∀ c ∈ part, c.isDigit = true) (negative : Bool) :
    decimal? negative (whole ++ '.' :: part) =
      some (.decimal negative (digitsValue (whole ++ part)) (-(part.length : Int))) := by
  have htake : (whole ++ '.' :: part).takeWhile Char.isDigit = whole := by
    rw [List.takeWhile_append_of_pos hwhole]
    exact List.append_nil whole
  have hdrop : (whole ++ '.' :: part).dropWhile Char.isDigit = '.' :: part :=
    List.dropWhile_append_of_pos hwhole
  have htakePart : part.takeWhile Char.isDigit = part := List.takeWhile_eq_self_iff.2 hpart
  have hdropPart : part.dropWhile Char.isDigit = [] := List.dropWhile_eq_nil_iff.2 hpart
  have hne : whole.isEmpty = false := List.isEmpty_eq_false_iff.2 hsome
  rw [decimal?, htake, hdrop]
  simp only [htakePart, hdropPart, hne, Bool.false_and, Bool.false_eq_true, if_false, exponent?, Option.map_some,
    Int.zero_sub]

/-- The text of a number with one place after the point is read as the number of its tenths. -/
theorem ofText?_oneDecimalText (negative : Bool) (num den : Nat) :
    ofText? (oneDecimalText negative num den).toList =
      some (.decimal negative (roundQuotient .toEven (10 * num) den) (-1)) := by
  let tenths := roundQuotient .toEven (10 * num) den
  let digits := decimalDigits (tenths / 10) ++ '.' :: decimalDigits (tenths % 10)
  have hread : ∀ negative, unsigned? negative digits = some (.decimal negative tenths (-1)) := by
    intro negative
    have hpart : (decimalDigits (tenths % 10)).length = 1 := by
      rw [decimalDigits, Nat.toDigits_of_lt_base (Nat.mod_lt tenths (by decide))]
      rfl
    rw [unsigned?_of_point (by simp [digits]), decimal?_point (fun _ => isDigit_of_mem_decimalDigits)
      (decimalDigits_ne_nil _) (fun _ => isDigit_of_mem_decimalDigits), digitsValue_tenths, hpart]
    rfl
  rw [toList_oneDecimalText]
  cases negative with
  | true => exact hread true
  | false =>
    obtain ⟨c, tail, hfirst⟩ := List.exists_cons_of_ne_nil (decimalDigits_ne_nil (tenths / 10))
    have hc : c.isDigit = true := isDigit_of_mem_decimalDigits (hfirst ▸ List.mem_cons_self)
    have hdigits : digits = c :: (tail ++ '.' :: decimalDigits (tenths % 10)) := by
      rw [← List.cons_append, ← hfirst]
    have hunsigned : ofText? digits = unsigned? false digits := by
      rw [hdigits]
      unfold ofText?
      split
      · rename_i hminus
        rw [(List.cons.inj hminus).1] at hc
        contradiction
      · rename_i hplus
        rw [(List.cons.inj hplus).1] at hc
        contradiction
      · rfl
    exact hunsigned.trans (hread false)

end NumberLiteral

section Written

variable {α : Type} [Scalar α]

/-- The number that the text of a number with one place after the point is read as. -/
def written? (x : α) : Option α := (NumberLiteral.ofText? (Scalar.oneDecimal x).toList).bind Scalar.ofLiteral?

end Written

/-- Tenths rounded from a fraction are off by half a tenth at most. -/
theorem abs_tenths_sub_le (num : Nat) {den : Nat} (hden : 0 < den) :
    |((roundQuotient .toEven (10 * num) den : Nat) : Rat) / 10 - (num : Rat) / den| ≤ 1 / 20 := by
  obtain ⟨hlow, hhigh⟩ := roundQuotient_bounds .toEven (10 * num) hden
  generalize roundQuotient .toEven (10 * num) den = tenths at hlow hhigh ⊢
  have hpos : (0 : Rat) < den := Nat.cast_pos.2 hden
  have hlowCast : (2 * (10 * num) : Rat) ≤ 2 * (tenths * den) + den := by exact_mod_cast hlow
  have hhighCast : (2 * (tenths * den) : Rat) ≤ 2 * (10 * num) + den := by exact_mod_cast hhigh
  rw [abs_le]
  constructor
  · have hfraction : (num : Rat) / den ≤ tenths / 10 + 1 / 20 := by
      rw [div_le_iff₀ hpos]
      linarith
    linarith
  · have hfraction : (tenths : Rat) / 10 - 1 / 20 ≤ num / den := by
      rw [le_div_iff₀ hpos]
      linarith
    linarith

/-- An exact number is read back as the nearest tenth. -/
theorem written?_exact (x : Rat) : ∃ y, written? x = some y ∧ |y - x| ≤ 1 / 20 := by
  let tenths := roundQuotient .toEven (10 * x.num.natAbs) x.den
  have hread : written? x = rationalOfLiteral? (.decimal (decide (x < 0)) tenths (-1)) :=
    congrArg (Option.bind · rationalOfLiteral?) (NumberLiteral.ofText?_oneDecimalText _ _ _)
  have hvalue : written? x = some (if x < 0 then -((tenths : Rat) / 10) else (tenths : Rat) / 10) := by
    rw [hread, rationalOfLiteral?, rationalOfDecimal]
    simp
  have hsize : |(tenths : Rat) / 10 - (|x|)| ≤ 1 / 20 := by
    have hfraction : |x| = (x.num.natAbs : Rat) / x.den := by
      rw [Nat.cast_natAbs, Int.cast_abs]
      conv_lhs => rw [← Rat.num_div_den x, abs_div, Nat.abs_cast]
    rw [hfraction]
    exact abs_tenths_sub_le x.num.natAbs x.den_pos
  refine ⟨_, hvalue, ?_⟩
  split
  · rename_i hneg
    rw [abs_of_neg hneg, sub_neg_eq_add] at hsize
    rwa [← abs_neg, neg_sub, sub_neg_eq_add, add_comm]
  · rename_i hnonneg
    rwa [abs_of_nonneg (not_lt.1 hnonneg)] at hsize

/-- A double is read back as a double, whether it is finite or not. -/
theorem written?_double (x : Float) : ∃ y, written? x = some y := by
  have hread : ∃ l, NumberLiteral.ofText? (doubleOneDecimal x).toList = some l := by
    unfold doubleOneDecimal
    split
    · exact ⟨.undefined, by decide⟩
    · rename_i negative _
      cases negative with
      | false => exact ⟨.infinite false, by decide⟩
      | true => exact ⟨.infinite true, by decide⟩
    · exact ⟨_, NumberLiteral.ofText?_oneDecimalText _ _ _⟩
  obtain ⟨l, hl⟩ := hread
  exact ⟨doubleOfLiteral l, congrArg (Option.bind · Scalar.ofLiteral?) hl⟩

end FrameAtlas
