import FrameAtlas.Scalar.Double
import Mathlib

/-!
Rounding to doubles. A finite double is a mantissa of 53 bits at an exponent, or of fewer bits at the least
exponent. Rounding gives such a pair, and it never lifts a number above a double unless the number is half a gap
above it.
-/

namespace FrameAtlas.Double

open Float.Model (Format UnpackedFloat totalExponent)
open Float.Model.UnpackedFloat

/-- A mantissa and an exponent as doubles hold them; exponents are counted from the least one, `-1074`. -/
structure IsHeld (m k : Nat) : Prop where
  pos : 0 < m
  below : m < 2 ^ 53
  full : 2 ^ 52 ≤ m ∨ k = 0

def exponentAt (k : Nat) : Int := (k : Int) - 1074

theorem targetExponent_eq (t : Int) : Format.binary64.targetExponent t = max (t - 53) (-1074) := rfl

theorem mantissa_shiftRight (em : ExtendedMantissa) (n : Nat) : (em >>> n).mantissa = em.mantissa / 2 ^ n := by
  induction n with
  | zero => exact (Nat.div_one _).symm
  | succ n ih =>
    show (em >>> n).mantissa / 2 = em.mantissa / 2 ^ (n + 1)
    rw [ih, Nat.div_div_eq_div_mul, Nat.pow_succ]

theorem mantissa_ofMantissaAndAccuracy (m : Nat) (acc : Accuracy) :
    (ExtendedMantissa.ofMantissaAndAccuracy m acc).mantissa = m := by
  cases acc with
  | exact => rfl
  | inexact side => cases side <;> rfl

theorem roundedMantissa_bounds (em : ExtendedMantissa) :
    em.mantissa ≤ em.roundedMantissa ∧ em.roundedMantissa ≤ em.mantissa + 1 := by
  unfold ExtendedMantissa.roundedMantissa
  cases em.accuracy with
  | exact => exact ⟨Nat.le_refl _, Nat.le_succ _⟩
  | inexact side =>
    cases side with
    | lt => exact ⟨Nat.le_refl _, Nat.le_succ _⟩
    | gt => exact ⟨Nat.le_succ _, Nat.le_refl _⟩
    | eq =>
      show em.mantissa ≤ em.mantissa + em.mantissa % 2 ∧ em.mantissa + em.mantissa % 2 ≤ em.mantissa + 1
      omega

theorem roundedMantissa_of_roundBit {em : ExtendedMantissa} (h : em.roundBit = false) :
    em.roundedMantissa = em.mantissa := by
  obtain ⟨m, r, s⟩ := em
  obtain rfl : r = false := h
  cases s <;> rfl

/-- What is shifted out of an exact mantissa is dropped if it is less than half. -/
theorem roundedMantissa_of_low {m n : Nat} (h : 2 * (m % 2 ^ n) < 2 ^ n) :
    (ExtendedMantissa.ofMantissaAndAccuracy m .exact >>> n).roundedMantissa = m / 2 ^ n := by
  cases n with
  | zero => exact (Nat.div_one m).symm
  | succ n =>
    have hbit : (ExtendedMantissa.ofMantissaAndAccuracy m .exact >>> (n + 1)).roundBit = false := by
      show ((ExtendedMantissa.ofMantissaAndAccuracy m .exact >>> n).mantissa % 2 != 0) = false
      rw [mantissa_shiftRight]
      show (m / 2 ^ n % 2 != 0) = false
      have hlow : m % (2 ^ n * 2) = m % 2 ^ n + 2 ^ n * (m / 2 ^ n % 2) := Nat.mod_mul
      rw [Nat.pow_succ, hlow] at h
      have heven : m / 2 ^ n % 2 = 0 := by
        rcases Nat.mod_two_eq_zero_or_one (m / 2 ^ n) with heven | hodd
        · exact heven
        · rw [hodd] at h
          omega
      rw [heven]
      rfl
    rw [roundedMantissa_of_roundBit hbit, mantissa_shiftRight]
    rfl

theorem log2_lt_of_lt {m n : Nat} (h : m < 2 ^ (53 + n)) : m.log2 < 53 + n := by
  by_cases hzero : m = 0
  · subst hzero
    exact Nat.lt_of_lt_of_le (by decide : Nat.log2 0 < 53) (Nat.le_add_right 53 n)
  · exact (Nat.log2_lt hzero).2 h

/-- A number of at most 53 bits stays as it is. -/
theorem shiftToTargetExponent_of_lt {R k : Nat} (h : R < 2 ^ 53) :
    shiftToTargetExponent .binary64 R (exponentAt k) .exact =
      (.ofMantissaAndAccuracy R .exact, exponentAt k) := by
  have hlog : R.log2 < 53 + 0 := log2_lt_of_lt h
  have hstay : (max (totalExponent R (exponentAt k) - 53) (-1074) - exponentAt k).toNat = 0 := by
    unfold totalExponent exponentAt
    omega
  rw [shiftToTargetExponent, targetExponent_eq, shiftToExponent, hstay]
  exact Prod.ext rfl (Int.add_zero _)

/-- A carry into the 54th bit moves to the next exponent. -/
theorem shiftToTargetExponent_carry (k : Nat) :
    shiftToTargetExponent .binary64 (2 ^ 53) (exponentAt k) .exact =
      (.ofMantissaAndAccuracy (2 ^ 52) .exact, exponentAt (k + 1)) := by
  have hmove : (max (totalExponent (2 ^ 53) (exponentAt k) - 53) (-1074) - exponentAt k).toNat = 1 := by
    rw [totalExponent, Nat.log2_two_pow]
    unfold exponentAt
    omega
  rw [shiftToTargetExponent, targetExponent_eq, shiftToExponent, hmove]
  refine Prod.ext rfl ?_
  show exponentAt k + 1 = exponentAt (k + 1)
  unfold exponentAt
  omega

section Shifted

variable {M n k : Nat}

def rounded (M n : Nat) (acc : Accuracy) : Nat :=
  (ExtendedMantissa.ofMantissaAndAccuracy M acc >>> n).roundedMantissa

/-- Rounding goes to one of the two neighbours. -/
theorem rounded_bounds (M n : Nat) (acc : Accuracy) :
    M / 2 ^ n ≤ rounded M n acc ∧ rounded M n acc ≤ M / 2 ^ n + 1 := by
  have h := roundedMantissa_bounds (ExtendedMantissa.ofMantissaAndAccuracy M acc >>> n)
  rw [mantissa_shiftRight, mantissa_ofMantissaAndAccuracy] at h
  exact h

/-- A number with few enough bits is rounded to at most one bit more. -/
theorem rounded_le_of_lt (acc : Accuracy) (hbelow : M < 2 ^ (53 + n)) : rounded M n acc ≤ 2 ^ 53 := by
  have hquotient : M / 2 ^ n < 2 ^ 53 := by
    rw [Nat.div_lt_iff_lt_mul (Nat.two_pow_pos n), ← Nat.pow_add]
    exact hbelow
  have := (rounded_bounds M n acc).2
  omega

theorem le_rounded (acc : Accuracy) (hfull : 2 ^ (52 + n) ≤ M) : 2 ^ 52 ≤ rounded M n acc := by
  have hquotient : 2 ^ 52 ≤ M / 2 ^ n := by
    rw [Nat.le_div_iff_mul_le (Nat.two_pow_pos n), ← Nat.pow_add]
    exact hfull
  exact Nat.le_trans hquotient (rounded_bounds M n acc).1

/-- The exponent that fits a mantissa is the one it is rounded at. -/
theorem shiftToTargetExponent_fst (acc : Accuracy) (hbelow : M < 2 ^ (53 + n))
    (hfull : 2 ^ (52 + n) ≤ M ∨ k = 0) :
    shiftToTargetExponent .binary64 M (exponentAt k - n) acc =
      (ExtendedMantissa.ofMantissaAndAccuracy M acc >>> n, exponentAt k) := by
  have hlog : M.log2 < 53 + n := log2_lt_of_lt hbelow
  have hlogFull : 52 + n ≤ M.log2 ∨ k = 0 := by
    refine hfull.imp_left fun h => (Nat.le_log2 ?_).2 h
    have := Nat.two_pow_pos (52 + n)
    omega
  have hmove : (max (totalExponent M (exponentAt k - n) - 53) (-1074) - (exponentAt k - n)).toNat = n := by
    unfold totalExponent exponentAt
    omega
  rw [shiftToTargetExponent, targetExponent_eq, shiftToExponent, hmove]
  refine Prod.ext rfl ?_
  show exponentAt k - n + n = exponentAt k
  omega

/-- Rounding gives zero, or a mantissa and an exponent that a double holds. -/
theorem roundWithAccuracy_cases (s : Sign) (acc : Accuracy) (hbelow : M < 2 ^ (53 + n))
    (hfull : 2 ^ (52 + n) ≤ M ∨ k = 0) :
    rounded M n acc = 0 ∧ roundWithAccuracy .binary64 s M (exponentAt k - n) acc = .zero s ∨
      ∃ m l h, roundWithAccuracy .binary64 s M (exponentAt k - n) acc = .finite s m (exponentAt l) h ∧
        IsHeld m l ∧ m * 2 ^ l = rounded M n acc * 2 ^ k ∧ l ≤ k + 1 := by
  have hle := rounded_le_of_lt acc hbelow
  have hround : roundWithAccuracy .binary64 s M (exponentAt k - n) acc =
      let last := shiftToTargetExponent .binary64 (rounded M n acc) (exponentAt k) .exact
      if h : last.1.mantissa = 0 then .zero s else .finite s last.1.mantissa last.2 (Nat.pos_of_ne_zero h) := by
    rw [roundWithAccuracy, shiftToTargetExponent_fst acc hbelow hfull]
    rfl
  rcases Nat.lt_or_ge (rounded M n acc) (2 ^ 53) with hlt | hge
  · rw [shiftToTargetExponent_of_lt hlt] at hround
    by_cases hzero : rounded M n acc = 0
    · exact .inl ⟨hzero, hround.trans (dif_pos hzero)⟩
    · refine .inr ⟨_, k, Nat.pos_of_ne_zero hzero, hround.trans (dif_neg hzero), ?_, rfl, Nat.le_succ k⟩
      exact ⟨Nat.pos_of_ne_zero hzero, hlt, hfull.imp_left (le_rounded acc)⟩
  · have hcarry : rounded M n acc = 2 ^ 53 := Nat.le_antisymm hle hge
    rw [hcarry, shiftToTargetExponent_carry] at hround
    have hnonzero : ¬ (2 ^ 52 : Nat) = 0 := by decide
    have hdouble : (2 : Nat) ^ (k + 1) = 2 * 2 ^ k := by omega
    refine .inr ⟨2 ^ 52, k + 1, by decide, hround.trans (dif_neg hnonzero), ?_, ?_, Nat.le_refl _⟩
    · exact ⟨by decide, by decide, .inl (Nat.le_refl _)⟩
    · rw [hcarry, hdouble]
      omega

/-- An exact mantissa is rounded no higher than a double that it is less than half a gap above. -/
theorem rounded_le {i b c : Nat} (hi : i + n = k) (hbelow : M < 2 ^ (53 + n)) (hfull : 2 ^ (52 + n) ≤ M ∨ k = 0)
    (hheld : IsHeld b c) (hclose : 2 * (M * 2 ^ i) < (2 * b + 1) * 2 ^ c) :
    rounded M n .exact * 2 ^ k ≤ b * 2 ^ c := by
  have hshift : (2 : Nat) ^ k = 2 ^ n * 2 ^ i := by rw [← hi, Nat.add_comm, Nat.pow_add]
  rcases Nat.lt_trichotomy k c with hlt | rfl | hgt
  · -- The double lies in a higher range, and nothing of this range is rounded out of reach of it.
    have hnormal : 2 ^ 52 ≤ b := hheld.full.resolve_right (by omega)
    have hrange : 2 * 2 ^ k ≤ 2 ^ c := by
      rw [← Nat.pow_succ']
      exact Nat.pow_le_pow_right (by decide) hlt
    calc rounded M n .exact * 2 ^ k ≤ 2 ^ 53 * 2 ^ k := Nat.mul_le_mul_right _ (rounded_le_of_lt _ hbelow)
      _ = 2 ^ 52 * (2 * 2 ^ k) := by omega
      _ ≤ b * 2 ^ c := Nat.mul_le_mul hnormal hrange
  · -- In one range the quotient is at most the mantissa, and at the mantissa less than half is dropped.
    apply Nat.mul_le_mul_right
    have hscaled : 2 * M < (2 * b + 1) * 2 ^ n := by
      apply Nat.lt_of_mul_lt_mul_right (a := 2 ^ i)
      rw [Nat.mul_assoc, Nat.mul_assoc, ← hshift]
      exact hclose
    have hsplit : 2 ^ n * (M / 2 ^ n) + M % 2 ^ n = M := Nat.div_add_mod M (2 ^ n)
    have hsplit' : (2 * b + 1) * 2 ^ n = 2 * (2 ^ n * b) + 2 ^ n := by ring
    rcases Nat.lt_or_ge (M / 2 ^ n) b with hless | hmore
    · exact Nat.le_trans (rounded_bounds M n .exact).2 hless
    · have hequal : M / 2 ^ n = b := by
        apply Nat.le_antisymm _ hmore
        by_contra hover
        have hnext : 2 ^ n * (b + 1) ≤ 2 ^ n * (M / 2 ^ n) := Nat.mul_le_mul_left _ (by omega)
        rw [Nat.mul_add] at hnext
        omega
      have hlow : 2 * (M % 2 ^ n) < 2 ^ n := by
        rw [hequal] at hsplit
        omega
      exact Nat.le_of_eq ((roundedMantissa_of_low hlow).trans hequal)
  · have hnormal : 2 ^ (52 + n) ≤ M := hfull.resolve_right (by omega)
    have hrange : 2 * 2 ^ c ≤ 2 ^ k := by
      rw [← Nat.pow_succ']
      exact Nat.pow_le_pow_right (by decide) hgt
    have hnumber : 2 ^ 52 * 2 ^ k ≤ M * 2 ^ i := by
      rw [hshift, ← Nat.mul_assoc, ← Nat.pow_add]
      exact Nat.mul_le_mul_right _ hnormal
    have hdouble : (2 * b + 1) * 2 ^ c < 2 ^ 54 * 2 ^ c := by
      apply Nat.mul_lt_mul_of_pos_right _ (Nat.two_pow_pos c)
      have := hheld.below
      omega
    omega

/-- An exact mantissa is rounded no lower than a double that is not above it. -/
theorem le_rounded_of_le {i b c : Nat} (hi : i + n = k) (hfull : 2 ^ (52 + n) ≤ M ∨ k = 0)
    (hheld : IsHeld b c) (hle : b * 2 ^ c ≤ M * 2 ^ i) : b * 2 ^ c ≤ rounded M n .exact * 2 ^ k := by
  have hshift : (2 : Nat) ^ k = 2 ^ n * 2 ^ i := by rw [← hi, Nat.add_comm, Nat.pow_add]
  rcases Nat.lt_or_ge c k with hlt | hge
  · have hnormal : 2 ^ (52 + n) ≤ M := hfull.resolve_right (by omega)
    have hrange : 2 * 2 ^ c ≤ 2 ^ k := by
      rw [← Nat.pow_succ']
      exact Nat.pow_le_pow_right (by decide) hlt
    calc b * 2 ^ c ≤ 2 ^ 53 * 2 ^ c := Nat.mul_le_mul_right _ (Nat.le_of_lt hheld.below)
      _ = 2 ^ 52 * (2 * 2 ^ c) := by omega
      _ ≤ rounded M n .exact * 2 ^ k := Nat.mul_le_mul (le_rounded _ hnormal) hrange
  · obtain ⟨d, rfl⟩ := Nat.exists_eq_add_of_le hge
    have hmultiple : b * 2 ^ d ≤ M / 2 ^ n := by
      rw [Nat.le_div_iff_mul_le (Nat.two_pow_pos n)]
      apply Nat.le_of_mul_le_mul_right _ (Nat.two_pow_pos i)
      calc b * 2 ^ d * 2 ^ n * 2 ^ i = b * 2 ^ (k + d) := by rw [Nat.pow_add, hshift]; ring
        _ ≤ M * 2 ^ i := hle
    calc b * 2 ^ (k + d) = b * 2 ^ d * 2 ^ k := by rw [Nat.pow_add]; ring
      _ ≤ rounded M n .exact * 2 ^ k := Nat.mul_le_mul_right _ (Nat.le_trans hmultiple (rounded_bounds _ _ _).1)

end Shifted

/-- What rounding takes `v` units of the least double to: a double that no double separates from `v`, not even
one that lies less than half a gap below. -/
structure IsRounded (v m l : Nat) : Prop where
  held : IsHeld m l
  le_of_close : ∀ b c, IsHeld b c → 2 * v < (2 * b + 1) * 2 ^ c → m * 2 ^ l ≤ b * 2 ^ c
  ge_of_le : ∀ b c, IsHeld b c → b * 2 ^ c ≤ v → b * 2 ^ c ≤ m * 2 ^ l

/-- Rounding leads to the double that no other double separates from the number. -/
theorem round_isRounded (s : Sign) {M : Nat} (hM : 0 < M) (j : Nat) :
    ∃ m l h, UnpackedFloat.round .binary64 s M (exponentAt j) = .finite s m (exponentAt l) h ∧
      IsRounded (M * 2 ^ j) m l := by
  have hlow : 2 ^ M.log2 ≤ M := Nat.log2_self_le (Nat.ne_of_gt hM)
  have hhigh : M < 2 ^ (M.log2 + 1) := Nat.lt_log2_self
  -- The exponent rounded at, the bits added below to reach it, and the bits dropped.
  obtain ⟨k, hk⟩ : ∃ k, k = M.log2 + j - 52 := ⟨_, rfl⟩
  obtain ⟨added, hadded⟩ : ∃ added, added = j - k := ⟨_, rfl⟩
  obtain ⟨n, hn⟩ : ∃ n, n = k - j := ⟨_, rfl⟩
  have hpos : 0 < M * 2 ^ added := Nat.mul_pos hM (Nat.two_pow_pos added)
  have hbelow : M * 2 ^ added < 2 ^ (53 + n) := by
    calc M * 2 ^ added < 2 ^ (M.log2 + 1) * 2 ^ added := Nat.mul_lt_mul_of_pos_right hhigh (Nat.two_pow_pos added)
      _ = 2 ^ (M.log2 + 1 + added) := (Nat.pow_add _ _ _).symm
      _ ≤ 2 ^ (53 + n) := Nat.pow_le_pow_right (by decide) (by omega)
  have hfull : 2 ^ (52 + n) ≤ M * 2 ^ added ∨ k = 0 := by
    by_cases hzero : k = 0
    · exact .inr hzero
    · left
      calc 2 ^ (52 + n) = 2 ^ (M.log2 + added) := by congr 1; omega
        _ = 2 ^ M.log2 * 2 ^ added := Nat.pow_add _ _ _
        _ ≤ M * 2 ^ added := Nat.mul_le_mul_right _ hlow
  have hvalue : M * 2 ^ added * 2 ^ (j - added) = M * 2 ^ j := by
    rw [Nat.mul_assoc, ← Nat.pow_add]
    congr 2
    omega
  have hround : UnpackedFloat.round .binary64 s M (exponentAt j) =
      roundWithAccuracy .binary64 s (M * 2 ^ added) (exponentAt k - n) .exact := by
    have htarget : Format.binary64.targetExponent (totalExponent M (exponentAt j)) = exponentAt k := by
      rw [targetExponent_eq]
      unfold totalExponent exponentAt
      omega
    have hshift : (exponentAt j - exponentAt k).toNat = added := by
      unfold exponentAt
      omega
    have hexponent : exponentAt j - (added : Int) = exponentAt k - n := by
      unfold exponentAt
      omega
    rw [UnpackedFloat.round, htarget]
    simp only [decreaseExponent, hshift, hexponent, Nat.shiftLeft_eq]
  have hi : j - added + n = k := by omega
  have hheldOne : IsHeld 1 0 := ⟨by decide, by decide, .inr rfl⟩
  rcases roundWithAccuracy_cases s .exact hbelow hfull with ⟨hzero, -⟩ | ⟨m, l, h, hresult, hheld, hunits, -⟩
  · have hone : 1 * 2 ^ 0 ≤ M * 2 ^ added * 2 ^ (j - added) := Nat.mul_pos hpos (Nat.two_pow_pos _)
    have hleast := le_rounded_of_le hi hfull hheldOne hone
    rw [hzero] at hleast
    omega
  · refine ⟨m, l, h, hround.trans hresult, hheld, ?_, ?_⟩
    · intro b c hb hclose
      rw [hunits]
      exact rounded_le hi hbelow hfull hb (hvalue ▸ hclose)
    · intro b c hb hle
      rw [hunits]
      exact le_rounded_of_le hi hfull hb (hvalue ▸ hle)

/-- Of two doubles, one that is less than half a gap above the other is not above it at all. -/
theorem IsHeld.le_of_close {b c m k : Nat} (hb : IsHeld b c) (hm : IsHeld m k)
    (hclose : 2 * (b * 2 ^ c) < (2 * m + 1) * 2 ^ k) : b * 2 ^ c ≤ m * 2 ^ k :=
  rounded_le (Nat.add_zero c) hb.below hb.full hm hclose

/-- A double not above another one has no greater exponent. -/
theorem IsHeld.exponent_le {b c m k : Nat} (hb : IsHeld b c) (hm : IsHeld m k) (hle : b * 2 ^ c ≤ m * 2 ^ k) :
    c ≤ k := by
  by_contra hgt
  have hnormal : 2 ^ 52 ≤ b := hb.full.resolve_right (by omega)
  have hrange : 2 * 2 ^ k ≤ 2 ^ c := by
    rw [← Nat.pow_succ']
    exact Nat.pow_le_pow_right (by decide) (by omega)
  have hlow : 2 ^ 52 * (2 * 2 ^ k) ≤ b * 2 ^ c := Nat.mul_le_mul hnormal hrange
  have hhigh : m * 2 ^ k < 2 ^ 53 * 2 ^ k := Nat.mul_lt_mul_of_pos_right hm.below (Nat.two_pow_pos k)
  omega

end FrameAtlas.Double
