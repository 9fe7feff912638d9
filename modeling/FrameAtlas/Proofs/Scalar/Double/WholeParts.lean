import FrameAtlas.Proofs.Scalar.Double.Counts

namespace FrameAtlas.Double

open Float.Model (Format UnpackedFloat)
open Float.Model.UnpackedFloat

theorem toNat_ofNatClamp_le (n : Nat) : (UInt64.ofNatClamp n).toNat ≤ n := by
  unfold UInt64.ofNatClamp
  split
  · exact Nat.le_refl n
  · rename_i hlarge
    exact Nat.le_of_lt (Nat.lt_of_lt_of_le (by decide) (Nat.not_lt.1 hlarge))

/-- The whole part of a positive number, from its size in units. -/
theorem roundToInt_positive (m k : Nat) :
    roundToInt .positive m (exponentAt k) = (m * 2 ^ k / 2 ^ unitBits : Nat) := by
  have hless : (exponentAt k - 0).toNat = k - unitBits := by
    unfold exponentAt unitBits
    omega
  have hmore : (0 - (exponentAt k - (k - unitBits : Nat))).toNat = unitBits - k := by
    unfold exponentAt unitBits
    omega
  have hcut : m * 2 ^ (k - unitBits) / 2 ^ (unitBits - k) = m * 2 ^ k / 2 ^ unitBits := by
    rcases Nat.le_total unitBits k with hle | hle
    · obtain ⟨d, rfl⟩ := Nat.exists_eq_add_of_le hle
      rw [Nat.add_sub_cancel_left, Nat.sub_eq_zero_of_le hle, Nat.pow_zero, Nat.div_one, Nat.pow_add,
        Nat.mul_comm (2 ^ unitBits), ← Nat.mul_assoc, Nat.mul_div_cancel _ (Nat.two_pow_pos _)]
    · obtain ⟨d, hd⟩ := Nat.exists_eq_add_of_le hle
      rw [Nat.sub_eq_zero_of_le hle, Nat.pow_zero, Nat.mul_one, hd, Nat.add_sub_cancel_left, Nat.pow_add,
        Nat.mul_comm m, Nat.mul_div_mul_left _ _ (Nat.two_pow_pos k)]
  rw [← hcut]
  simp only [roundToInt, decreaseExponent, shiftToExponent, hless, hmore, mantissa_shiftRight,
    mantissa_ofMantissaAndAccuracy, Nat.shiftLeft_eq, Sign.apply]

/-- Doubles become counts by way of integers, and are clamped to the range of counts there. -/
theorem toNat_le_toInt (x : Float) : Scalar.toNat x ≤ ((parts x).toInt 0 (UInt64.size - 1)).toNat :=
  toNat_ofNatClamp_le _

/-- What is undefined or below zero is counted as zero. -/
theorem isNonneg_or_toNat_eq_zero (x : Float) : IsNonneg x ∨ Scalar.toNat x = 0 := by
  have hcount := toNat_le_toInt x
  unfold IsNonneg
  cases hparts : parts x with
  | notANumber =>
    rw [hparts] at hcount
    exact .inr (Nat.le_zero.1 hcount)
  | infinity s =>
    cases s with
    | positive => exact .inl rfl
    | negative =>
      rw [hparts] at hcount
      exact .inr (Nat.le_zero.1 hcount)
  | zero s =>
    rw [hparts] at hcount
    exact .inr (Nat.le_zero.1 hcount)
  | finite s m e h =>
    cases s with
    | positive => exact .inl rfl
    | negative =>
      have hnegative : (roundToInt .negative m e).toNat = 0 := by
        rw [roundToInt]
        exact Int.toNat_neg_natCast _
      rw [hparts, UnpackedFloat.toInt, hnegative] at hcount
      exact .inr (Nat.le_zero.1 hcount)

/-- The count of a double is at most its whole part. -/
theorem toNat_le_of_size {x : Float} {n : Nat} (hx : IsNonneg x) (hn : HasSize x n) :
    Scalar.toNat x ≤ n / 2 ^ unitBits := by
  refine Nat.le_trans (toNat_le_toInt x) ?_
  rcases hx.cases_of_hasSize hn with ⟨hzero, -⟩ | ⟨m, k, h, hparts, -, rfl⟩
  · rw [hzero]
    exact Nat.zero_le _
  · rw [hparts, UnpackedFloat.toInt, roundToInt_positive]
    exact Nat.le_refl _

/-- A count of fewer than 54 bits is a whole number of units that a double holds. -/
theorem exists_isHeld_count {n : Nat} (hpos : 0 < n) (hn : n < 2 ^ 53) :
    ∃ b c, IsHeld b c ∧ c ≤ lastExponent ∧ b * 2 ^ c = n * 2 ^ unitBits := by
  have hlow : 2 ^ n.log2 ≤ n := Nat.log2_self_le (Nat.ne_of_gt hpos)
  have hhigh : n < 2 ^ (n.log2 + 1) := Nat.lt_log2_self
  have hbits : n.log2 < 53 := (Nat.log2_lt (Nat.ne_of_gt hpos)).2 hn
  obtain ⟨d, hd⟩ : ∃ d, n.log2 + d = 52 := ⟨52 - n.log2, by omega⟩
  have hbelow : n * 2 ^ d < 2 ^ 53 := by
    calc n * 2 ^ d < 2 ^ (n.log2 + 1) * 2 ^ d := Nat.mul_lt_mul_of_pos_right hhigh (Nat.two_pow_pos d)
      _ = 2 ^ 53 := twoPow_mul_twoPow (by omega)
  have hfull : 2 ^ 52 ≤ n * 2 ^ d := by
    calc 2 ^ 52 = 2 ^ n.log2 * 2 ^ d := (twoPow_mul_twoPow hd).symm
      _ ≤ n * 2 ^ d := Nat.mul_le_mul_right _ hlow
  refine ⟨n * 2 ^ d, unitBits - d, ⟨Nat.mul_pos hpos (Nat.two_pow_pos d), hbelow, .inl hfull⟩, ?_, ?_⟩
  · unfold unitBits lastExponent
    omega
  · have hunits : d + (unitBits - d) = unitBits := by
      unfold unitBits
      omega
    rw [Nat.mul_assoc, twoPow_mul_twoPow hunits]

/-- A count of fewer than 54 bits is as large as a double as it is. -/
theorem hasSize_natCast {n : Nat} (hn : n < 2 ^ 53) : HasSize (n : Float) (n * 2 ^ unitBits) := by
  rcases Nat.eq_zero_or_pos n with rfl | hpos
  · rw [Nat.zero_mul]
    rfl
  obtain ⟨m, k, h, hparts, hrounded⟩ := parts_natCast hpos
  obtain ⟨b, c, hheld, hlast, hvalue⟩ := exists_isHeld_count hpos hn
  have hle : m * 2 ^ k ≤ b * 2 ^ c := by
    apply hrounded.le_of_close b c hheld
    have hgap := Nat.two_pow_pos c
    rw [Nat.add_mul, Nat.mul_assoc, hvalue]
    omega
  have hge : b * 2 ^ c ≤ m * 2 ^ k := hrounded.ge_of_le b c hheld (Nat.le_of_eq hvalue)
  rw [← hvalue, Nat.le_antisymm hge hle]
  exact hasSize_of_parts hparts hrounded.held hheld hlast hle

/-- Of two numbers, one that does not come before the other by its exponent and mantissa is no smaller. -/
theorem IsHeld.size_le_of_compare {m n k l : Nat} (hm : IsHeld m k) (hn : IsHeld n l)
    (h : (compare (exponentAt k) (exponentAt l)).then (compare m n) ≠ .lt) : n * 2 ^ l ≤ m * 2 ^ k := by
  have hexponent : ¬ k < l := by
    intro hlt
    have hcompare : compare (exponentAt k) (exponentAt l) = .lt := by
      rw [Int.compare_eq_lt]
      unfold exponentAt
      omega
    rw [hcompare] at h
    exact h rfl
  rcases Nat.lt_or_eq_of_le (Nat.not_lt.1 hexponent) with hlt | rfl
  · have hnormal : 2 ^ 52 ≤ m := hm.full.resolve_right (by omega)
    have hrange : 2 * 2 ^ l ≤ 2 ^ k := by
      rw [← Nat.pow_succ']
      exact Nat.pow_le_pow_right (by decide) hlt
    calc n * 2 ^ l ≤ 2 ^ 53 * 2 ^ l := Nat.mul_le_mul_right _ (Nat.le_of_lt hn.below)
      _ = 2 ^ 52 * (2 * 2 ^ l) := by omega
      _ ≤ m * 2 ^ k := Nat.mul_le_mul hnormal hrange
  · apply Nat.mul_le_mul_right
    by_contra hless
    have hsame : compare (exponentAt l) (exponentAt l) = .eq := compare_eq_iff_eq.2 rfl
    have hmantissa : compare m n = .lt := Nat.compare_eq_lt.2 (Nat.not_le.1 hless)
    rw [hsame, hmantissa] at h
    exact h rfl

/-- What is not above a number in range, and not below zero, is no larger than that number. -/
theorem size_le_of_not_lt {x y : Float} {n : Nat} (hx : IsNonneg x) (hn : HasSize x n) (hy : IsNonneg y)
    (hxy : ¬ x < y) : ∃ a, HasSize y a ∧ a ≤ n := by
  rw [lt_iff] at hxy
  rcases hy.cases with hyz | hyz | ⟨m, k, hm, hyz, hheld, -⟩
  · rcases hx.cases_of_hasSize hn with ⟨hxz, -⟩ | ⟨b, c, hb, hxz, -, -⟩
    · rw [hxz, hyz] at hxy
      exact absurd rfl hxy
    · rw [hxz, hyz] at hxy
      exact absurd rfl hxy
  · exact ⟨0, congrArg size? hyz, Nat.zero_le n⟩
  · rcases hx.cases_of_hasSize hn with ⟨hxz, -⟩ | ⟨b, c, hb, hxz, hheldOther, rfl⟩
    · rw [hxz, hyz] at hxy
      exact absurd rfl hxy
    · refine ⟨m * 2 ^ k, (congrArg size? hyz).trans (size?_finite _ _ _), ?_⟩
      apply hheldOther.size_le_of_compare hheld
      intro hlt
      rw [hxz, hyz, UnpackedFloat.lt, UnpackedFloat.compare, hlt] at hxy
      exact hxy rfl

/-- A double that is no greater than a count becomes a count that is no greater. -/
theorem toNat_le_of_size_le {x : Float} {a n : Nat} (hx : IsNonneg x) (ha : HasSize x a)
    (hle : a ≤ n * 2 ^ unitBits) : Scalar.toNat x ≤ n := by
  calc Scalar.toNat x ≤ a / 2 ^ unitBits := toNat_le_of_size hx ha
    _ ≤ n * 2 ^ unitBits / 2 ^ unitBits := Nat.div_le_div_right hle
    _ = n := Nat.mul_div_cancel n (Nat.two_pow_pos unitBits)

/-- A number cut down to a count is counted as no more than that. -/
theorem toNat_clamp_le {n : Nat} (hn : n < 2 ^ 53) (low x : Float) :
    Scalar.toNat (Scalar.clamp low (n : Float) x) ≤ n := by
  have hcount := hasSize_natCast hn
  unfold Scalar.clamp
  generalize (if x < low then low else x) = raised
  simp only
  split
  · exact toNat_le_of_size_le (isNonneg_natCast n) hcount (Nat.le_refl _)
  · rename_i hhigh
    rcases isNonneg_or_toNat_eq_zero raised with hnonneg | hzero
    · obtain ⟨a, ha, hle⟩ := size_le_of_not_lt (isNonneg_natCast n) hcount hnonneg hhigh
      exact toNat_le_of_size_le hnonneg ha hle
    · rw [hzero]
      exact Nat.zero_le n

end FrameAtlas.Double
