import FrameAtlas.Proofs.Scalar.Double.Operations

namespace FrameAtlas.Double

open Float.Model (Format UnpackedFloat totalExponent)
open Float.Model.UnpackedFloat

theorem round_eq_roundWithAccuracy {M : Nat} (hM : 2 ^ 52 ≤ M) (j : Nat) :
    UnpackedFloat.round .binary64 .positive M (exponentAt j) =
      roundWithAccuracy .binary64 .positive M (exponentAt j) .exact := by
  have hlog : 52 ≤ M.log2 := (Nat.le_log2 (by omega)).2 hM
  have hstay : (exponentAt j - Format.binary64.targetExponent (totalExponent M (exponentAt j))).toNat = 0 := by
    rw [targetExponent_eq]
    unfold totalExponent exponentAt
    omega
  have hexponent : exponentAt j - ((0 : Nat) : Int) = exponentAt j := Int.sub_zero _
  rw [UnpackedFloat.round]
  simp only [decreaseExponent, hstay, hexponent, Nat.shiftLeft_zero]

theorem parts_toFloat_word {n m k : Nat} (hn : 0 < n) (hword : n < 2 ^ 53) (hm : 0 < m)
    (hround : UnpackedFloat.round .binary64 .positive n (exponentAt unitBits) =
      .finite .positive m (exponentAt k) hm)
    (hheld : IsHeld m k) (hlast : k ≤ lastExponent) :
    parts n.toUInt64.toFloat = .finite .positive m (exponentAt k) hm := by
  have htoNat : n.toUInt64.toNat = n := by
    show n % 2 ^ 64 = n
    omega
  have hsign : compare (n : Int) 0 = .gt := Int.compare_eq_gt.2 (by omega)
  have hnormal : UnpackedFloat.ofUInt64 .binary64 n.toUInt64 =
      UnpackedFloat.round .binary64 .positive n (exponentAt unitBits) := by
    simp only [UnpackedFloat.ofUInt64, UnpackedFloat.ofNat, UnpackedFloat.ofInt, UnpackedFloat.normalize, htoNat,
      hsign]
    rfl
  show unpack .binary64 (pack .binary64 (UnpackedFloat.ofUInt64 .binary64 n.toUInt64)) = _
  rw [hnormal, hround]
  exact unpack_pack_finite .positive hm hheld hlast

/-- A count of fewer than 54 bits is converted by way of words, and multiplied by one. -/
theorem parts_natCast_word {n : Nat} (hn : 0 < n) (hword : n < 2 ^ 53) :
    ∃ m k h, parts (n : Float) = unpack .binary64 (pack .binary64 (.finite .positive m (exponentAt k) h)) ∧
      IsRounded (n * 2 ^ unitBits) m k := by
  have hcast : (n : Float) = n.toUInt64.toFloat * Float.ofBits 4607182418800017408 := by
    show Float.ofScientific n false 0 = _
    rw [Float.ofScientific, dif_pos ⟨hword, by decide⟩]
    rfl
  have hone : parts (Float.ofBits 4607182418800017408) =
      .finite .positive (2 ^ 52) (exponentAt 1022) (by decide) := by
    rfl
  obtain ⟨m, k, hm, hround, hrounded⟩ := round_isRounded .positive hn unitBits
  have hlast : k ≤ lastExponent := by
    have hheld : IsHeld (2 ^ 52) (unitBits + 1) := ⟨by decide, by decide, .inl (Nat.le_refl _)⟩
    have hvalue : n * 2 ^ unitBits < 2 ^ 53 * 2 ^ unitBits :=
      Nat.mul_lt_mul_of_pos_right hword (Nat.two_pow_pos unitBits)
    have hle := hrounded.le_of_close _ _ hheld (by omega)
    exact Nat.le_trans (hrounded.held.exponent_le hheld hle) (by decide)
  have hparts := parts_toFloat_word hn hword hm hround hrounded.held hlast
  have hexact : rounded (m * 2 ^ 52) 52 .exact = m := by
    have hlow : 2 * (m * 2 ^ 52 % 2 ^ 52) < 2 ^ 52 := by
      rw [Nat.mul_mod_left]
      decide
    exact (roundedMantissa_of_low hlow).trans (Nat.mul_div_cancel m (Nat.two_pow_pos 52))
  have hbelow : m * 2 ^ 52 < 2 ^ (53 + 52) := by
    have := hrounded.held.below
    omega
  have hfull : 2 ^ (52 + 52) ≤ m * 2 ^ 52 ∨ k = 0 := by
    refine hrounded.held.full.imp_left ?_
    omega
  have hmul : UnpackedFloat.mul .binary64 (parts n.toUInt64.toFloat) (parts (Float.ofBits 4607182418800017408)) =
      roundWithAccuracy .binary64 .positive (m * 2 ^ 52) (exponentAt k - (52 : Nat)) .exact := by
    rw [hparts, hone]
    rfl
  rw [hcast, parts_mul, hmul]
  rcases roundWithAccuracy_cases .positive .exact hbelow hfull with ⟨hzero, -⟩ | ⟨b, i, hb, hresult, hbi, hsame, -⟩
  · rw [hexact] at hzero
    exact absurd hzero (Nat.ne_of_gt hm)
  · rw [hexact] at hsame
    refine ⟨b, i, hb, by rw [hresult], hbi, ?_, ?_⟩
    · rw [hsame]
      exact hrounded.le_of_close
    · rw [hsame]
      exact hrounded.ge_of_le

/-- A positive count becomes the double that it is rounded to. -/
theorem parts_natCast {n : Nat} (hn : 0 < n) :
    ∃ m k h, parts (n : Float) = unpack .binary64 (pack .binary64 (.finite .positive m (exponentAt k) h)) ∧
      IsRounded (n * 2 ^ unitBits) m k := by
  rcases Nat.lt_or_ge n (2 ^ 53) with hword | hlarge
  · exact parts_natCast_word hn hword
  have hcast : (n : Float) = Float.ofModel (Float.Model.ofScientific n 0) := by
    show Float.ofScientific n false 0 = _
    rw [Float.ofScientific, dif_neg (fun h => absurd h.1 (Nat.not_lt.2 hlarge))]
    rfl
  have hscientific : UnpackedFloat.ofScientific .binary64 n 0 =
      UnpackedFloat.round .binary64 .positive (n * 2 ^ 53) (exponentAt 1021) := by
    rw [round_eq_roundWithAccuracy (by omega)]
    have hbits : n <<< Format.binary64.mantissaBits * 10 ^ (0 : Int).toNat = n * 2 ^ 53 := by
      rw [Nat.shiftLeft_eq]
      exact Nat.mul_one _
    have hsmall : ¬ (0 : Int) < -(2 ^ Format.binary64.exponentBits + (n.log2 : Int)) := by
      have hpow : (0 : Int) ≤ 2 ^ Format.binary64.exponentBits := by decide
      omega
    rw [UnpackedFloat.ofScientific, dif_neg (Nat.ne_of_gt hn), if_neg (by decide), if_neg hsmall,
      if_pos (Int.le_refl 0)]
    simp only [UnpackedFloat.mul, hbits]
    rfl
  obtain ⟨m, k, hm, hround, hrounded⟩ :=
    round_isRounded .positive (Nat.mul_pos hn (Nat.two_pow_pos 53)) 1021
  have hvalue : n * 2 ^ 53 * 2 ^ 1021 = n * 2 ^ unitBits := by
    rw [Nat.mul_assoc]
    exact congrArg (n * ·) (twoPow_mul_twoPow rfl)
  rw [hvalue] at hrounded
  refine ⟨m, k, hm, ?_, hrounded⟩
  rw [hcast, ← hround, ← hscientific]
  rfl

theorem isNonneg_natCast (n : Nat) : IsNonneg (n : Float) := by
  rcases Nat.eq_zero_or_pos n with rfl | hn
  · rfl
  · obtain ⟨m, k, h, hparts, -⟩ := parts_natCast hn
    rw [IsNonneg, hparts, sign?_unpack_pack]
    rfl

/-- Rounding takes no positive count below one. -/
theorem isOneOrMore_natCast {n : Nat} (hn : 0 < n) : IsOneOrMore (n : Float) := by
  obtain ⟨m, k, h, hparts, hrounded⟩ := parts_natCast hn
  have hunit : 2 ^ 52 * 2 ^ 1022 = 2 ^ unitBits := twoPow_mul_twoPow rfl
  have hone : 2 ^ unitBits ≤ m * 2 ^ k := by
    rw [← hunit]
    apply hrounded.ge_of_le (2 ^ 52) 1022 ⟨by decide, by decide, .inl (Nat.le_refl _)⟩
    rw [hunit]
    exact Nat.le_mul_of_pos_left _ hn
  rcases Nat.lt_or_ge lastExponent k with hover | hlast
  · exact .inl (hparts.trans (unpack_pack_overflow .positive h hover))
  · exact .inr ⟨m, k, h, hparts.trans (unpack_pack_finite .positive h hrounded.held hlast), hrounded.held, hone⟩

/-- A count of so many bits has as many bits above one. -/
theorem isWithin_natCast {n e : Nat} (hn : n ≤ 2 ^ e) (he : e ≤ 900) : IsWithin (n : Float) (e + unitBits) := by
  rcases Nat.eq_zero_or_pos n with rfl | hpos
  · exact isWithin_of_zero rfl _
  obtain ⟨m, k, h, hparts, hrounded⟩ := parts_natCast hpos
  obtain ⟨hheld, hvalue⟩ := isHeld_twoPow (show 52 ≤ e + unitBits by unfold unitBits; omega)
  have hle : m * 2 ^ k ≤ 2 ^ 52 * 2 ^ (e + unitBits - 52) := by
    apply hrounded.le_of_close _ _ hheld
    have hscaled : n * 2 ^ unitBits ≤ 2 ^ (e + unitBits) := by
      rw [Nat.pow_add]
      exact Nat.mul_le_mul_right _ hn
    have hgap := Nat.two_pow_pos (e + unitBits - 52)
    rw [Nat.add_mul, Nat.mul_assoc, hvalue]
    omega
  have hlast : e + unitBits - 52 ≤ lastExponent := by
    unfold lastExponent unitBits
    omega
  exact ⟨isNonneg_natCast n, m * 2 ^ k, hasSize_of_parts hparts hrounded.held hheld hlast hle,
    Nat.le_trans hle (Nat.le_of_eq hvalue)⟩

end FrameAtlas.Double
