import FrameAtlas.Proofs.Scalar.Double.Rounding

namespace FrameAtlas.Double

open Float.Model (Format UnpackedFloat)
open Float.Model.UnpackedFloat

def lastExponent : Nat := 2045

inductive IsRead : UnpackedFloat → Prop
  | undefined : IsRead .notANumber
  | infinity (s : Sign) : IsRead (.infinity s)
  | zero (s : Sign) : IsRead (.zero s)
  | finite (s : Sign) {m k : Nat} (h : 0 < m) (held : IsHeld m k) (last : k ≤ lastExponent) :
    IsRead (.finite s m (exponentAt k) h)

theorem toNat_implicit_append (v : BitVec 52) : (1#1 ++ v).toNat = 2 ^ 52 + v.toNat := by
  rw [BitVec.toNat_append, ← Nat.shiftLeft_add_eq_or_of_lt v.isLt]
  rfl

/-- All that bits can be read as: the last exponent stands for infinity and what is undefined, the first one for zero
and for a mantissa as it is written, and every other one for a mantissa with an implicit bit before it. -/
theorem unpack_cases (b : BitVec Format.binary64.numBits) :
    (unpackExponent b = -1#11 ∧ unpackMantissa b ≠ 0#52 ∧ unpack .binary64 b = .notANumber) ∨
    (unpackExponent b = -1#11 ∧ unpackMantissa b = 0#52 ∧
      unpack .binary64 b = .infinity (Sign.ofBitVec (unpackSign b))) ∨
    (unpackExponent b = 0#11 ∧ unpackMantissa b = 0#52 ∧
      unpack .binary64 b = .zero (Sign.ofBitVec (unpackSign b))) ∨
    (unpackExponent b = 0#11 ∧ ∃ h, unpack .binary64 b =
      .finite (Sign.ofBitVec (unpackSign b)) (unpackMantissa b).toNat (exponentAt 0) h) ∨
    ∃ k, (unpackExponent b).toNat = k + 1 ∧ k ≤ lastExponent ∧ ∃ h, unpack .binary64 b =
      .finite (Sign.ofBitVec (unpackSign b)) (2 ^ 52 + (unpackMantissa b).toNat) (exponentAt k) h := by
  have hexponent : (unpackExponent b).toNat < 2048 := (unpackExponent b).isLt
  have hbias : ((Format.binary64.exponentBias : Nat) : Int) = 1023 := rfl
  have hbits : ((Format.binary64.mantissaBitsWithoutImplicit : Nat) : Int) = 52 := rfl
  rw [unpack]
  simp only
  split
  · rename_i hlast
    split
    · rename_i hzero
      exact .inr (.inl ⟨hlast, hzero, rfl⟩)
    · rename_i hsome
      exact .inl ⟨hlast, hsome, rfl⟩
  · rename_i hlast
    split
    · rename_i hfirst
      split
      · rename_i hzero
        exact .inr (.inr (.inl ⟨hfirst, hzero, rfl⟩))
      · rename_i hsome
        have hpos : 0 < (unpackMantissa b).toNat := by
          apply Nat.pos_of_ne_zero
          intro hzero
          exact hsome (BitVec.eq_of_toNat_eq hzero)
        have hleast : ((unpackExponent b).toNat : Int) - ((Format.binary64.exponentBias : Nat) +
            (Format.binary64.mantissaBitsWithoutImplicit : Nat)) + 1 = exponentAt 0 := by
          rw [hfirst, hbias, hbits]
          rfl
        exact .inr (.inr (.inr (.inl ⟨hfirst, hpos, by simp only [hleast]⟩)))
    · rename_i hfirst
      have hsome : (unpackExponent b).toNat ≠ 0 := fun hzero => hfirst (BitVec.eq_of_toNat_eq hzero)
      have hfinite : (unpackExponent b).toNat ≠ 2047 := fun hall => hlast (BitVec.eq_of_toNat_eq hall)
      obtain ⟨k, hk⟩ := Nat.exists_eq_succ_of_ne_zero hsome
      have hnormal : ((unpackExponent b).toNat : Int) - ((Format.binary64.exponentBias : Nat) +
          (Format.binary64.mantissaBitsWithoutImplicit : Nat)) = exponentAt k := by
        rw [hk, hbias, hbits]
        unfold exponentAt
        omega
      have himplicit := toNat_implicit_append (unpackMantissa b)
      have hlastExponent : k ≤ lastExponent := by
        unfold lastExponent
        omega
      have hpos : 0 < 2 ^ 52 + (unpackMantissa b).toNat := Nat.add_pos_left (Nat.two_pow_pos 52) _
      exact .inr (.inr (.inr (.inr ⟨k, hk, hlastExponent, hpos, by simp only [hnormal, himplicit]⟩)))

/-- Bits are read as a number that doubles hold, whatever they are. -/
theorem isRead_unpack (b : BitVec Format.binary64.numBits) : IsRead (unpack .binary64 b) := by
  have hmantissa : (unpackMantissa b).toNat < 2 ^ 52 := (unpackMantissa b).isLt
  rcases unpack_cases b with ⟨-, -, h⟩ | ⟨-, -, h⟩ | ⟨-, -, h⟩ | ⟨-, hpos, h⟩ | ⟨k, -, hlast, hpos, h⟩
  · exact h ▸ .undefined
  · exact h ▸ .infinity _
  · exact h ▸ .zero _
  · exact h ▸ .finite _ hpos ⟨hpos, by omega, .inr rfl⟩ (Nat.zero_le _)
  · exact h ▸ .finite _ hpos ⟨hpos, by omega, .inl (Nat.le_add_right _ _)⟩ hlast

def sign? : UnpackedFloat → Option Sign
  | .notANumber => none
  | .infinity s => some s
  | .zero s => some s
  | .finite s _ _ _ => some s

theorem sign?_unpack_packComponents (s : Sign) {e : BitVec 11} (he : e ≠ -1#11) (m : BitVec 52) :
    sign? (unpack .binary64 (packComponents .binary64 s e m)) = some s := by
  rw [unpack]
  simp only [unpackExponent_packComponents, unpackMantissa_packComponents, unpackSign_packComponents,
    Sign.ofBitVec_toBitVec]
  rw [if_neg he]
  split
  · split <;> rfl
  · rfl

/-- A result is read back with its sign. -/
theorem sign?_unpack_pack (u : UnpackedFloat) : sign? (unpack .binary64 (pack .binary64 u)) = sign? u := by
  cases u with
  | notANumber => rfl
  | infinity s => cases s <;> rfl
  | zero s => cases s <;> rfl
  | finite s m e h =>
    rw [pack]
    simp only
    split
    · cases s <;> rfl
    · rename_i hrange
      split
      · apply sign?_unpack_packComponents
        generalize (e + Format.binary64.exponentBias + Format.binary64.mantissaBitsWithoutImplicit).toNat = biased
          at hrange
        change ¬ 2048 ≤ biased + 1 at hrange
        intro hall
        have hexponent : biased % 2048 = 2047 := congrArg BitVec.toNat hall
        omega
      · exact sign?_unpack_packComponents s (by decide) _

def size? : UnpackedFloat → Option Nat
  | .notANumber => none
  | .infinity _ => none
  | .zero _ => some 0
  | .finite _ m e _ => some (m * 2 ^ (e + 1074).toNat)

theorem toNat_exponentAt (k : Nat) : (exponentAt k + 1074).toNat = k := by
  unfold exponentAt
  omega

/-- The exponent as it is written. -/
theorem biased_exponentAt (k : Nat) : (exponentAt k + (Format.binary64.exponentBias : Nat) +
    (Format.binary64.mantissaBitsWithoutImplicit : Nat)).toNat = k + 1 := by
  show (exponentAt k + 1023 + 52).toNat = k + 1
  unfold exponentAt
  omega

/-- A mantissa with all its bits is written without the first of them, which is read back into it. -/
theorem unpack_packComponents_full (s : Sign) {m k : Nat} (h : 0 < m) (hfull : 2 ^ 52 ≤ m) (hbelow : m < 2 ^ 53)
    (hlast : k ≤ lastExponent) :
    unpack .binary64 (packComponents .binary64 s (BitVec.ofNat 11 (k + 1)) (BitVec.ofNat 52 m)) =
      .finite s m (exponentAt k) h := by
  unfold lastExponent at hlast
  have hexponent : (BitVec.ofNat 11 (k + 1)).toNat = k + 1 := by
    rw [BitVec.toNat_ofNat]
    omega
  have hlastNe : BitVec.ofNat 11 (k + 1) ≠ -1#11 := by
    intro hall
    have := congrArg BitVec.toNat hall
    rw [hexponent] at this
    change k + 1 = 2047 at this
    omega
  have hfirstNe : BitVec.ofNat 11 (k + 1) ≠ 0#11 := by
    intro hzero
    have := congrArg BitVec.toNat hzero
    rw [hexponent] at this
    exact absurd this (Nat.succ_ne_zero k)
  have hmantissa : (1#1 ++ BitVec.ofNat 52 m).toNat = m := by
    rw [toNat_implicit_append, BitVec.toNat_ofNat]
    omega
  have hnumber : ((BitVec.ofNat 11 (k + 1)).toNat : Int) - ((Format.binary64.exponentBias : Nat) +
      (Format.binary64.mantissaBitsWithoutImplicit : Nat)) = exponentAt k := by
    rw [hexponent]
    show ((k + 1 : Nat) : Int) - (1023 + 52) = exponentAt k
    unfold exponentAt
    omega
  rw [unpack]
  simp only [unpackExponent_packComponents, unpackMantissa_packComponents, unpackSign_packComponents,
    Sign.ofBitVec_toBitVec]
  rw [if_neg hlastNe, if_neg hfirstNe]
  simp only [hnumber, hmantissa]

/-- A mantissa of fewer bits is written as it is, at the least exponent. -/
theorem unpack_packComponents_first (s : Sign) {m : Nat} (h : 0 < m) (hsmall : m < 2 ^ 52) :
    unpack .binary64 (packComponents .binary64 s 0#11 (BitVec.ofNat 52 m)) = .finite s m (exponentAt 0) h := by
  have hmantissa : (BitVec.ofNat 52 m).toNat = m := by
    rw [BitVec.toNat_ofNat]
    omega
  have hnonzero : BitVec.ofNat 52 m ≠ 0#52 := by
    intro hzero
    have := congrArg BitVec.toNat hzero
    rw [hmantissa] at this
    exact absurd this (Nat.ne_of_gt h)
  rw [unpack]
  simp only [unpackExponent_packComponents, unpackMantissa_packComponents, unpackSign_packComponents,
    Sign.ofBitVec_toBitVec]
  rw [if_neg (by decide), if_pos trivial, dif_neg hnonzero]
  simp only [hmantissa]
  rfl

/-- A mantissa with all its bits is written without the first of them. -/
theorem pack_finite_full (s : Sign) {m k : Nat} (h : 0 < m) (hfull : 2 ^ 52 ≤ m) (hbelow : m < 2 ^ 53)
    (hlast : k ≤ lastExponent) :
    pack .binary64 (.finite s m (exponentAt k) h) =
      packComponents .binary64 s (BitVec.ofNat 11 (k + 1)) (BitVec.ofNat 52 m) := by
  have hrange : ¬ 2 ^ Format.binary64.exponentBits ≤ k + 1 + 1 := by
    show ¬ 2048 ≤ k + 1 + 1
    unfold lastExponent at hlast
    omega
  have hlog : m.log2 + 1 = Format.binary64.mantissaBits := by
    have hlow : 52 ≤ m.log2 := (Nat.le_log2 (Nat.ne_of_gt h)).2 hfull
    have hhigh : m.log2 < 53 := (Nat.log2_lt (Nat.ne_of_gt h)).2 hbelow
    show m.log2 + 1 = 53
    omega
  rw [pack]
  simp only [biased_exponentAt k]
  rw [if_neg hrange, if_pos hlog]

/-- A mantissa of fewer bits is written as it is. -/
theorem pack_finite_first (s : Sign) {m : Nat} (h : 0 < m) (hsmall : m < 2 ^ 52) :
    pack .binary64 (.finite s m (exponentAt 0) h) = packComponents .binary64 s 0#11 (BitVec.ofNat 52 m) := by
  have hlog : ¬ m.log2 + 1 = Format.binary64.mantissaBits := by
    have hhigh : m.log2 < 52 := (Nat.log2_lt (Nat.ne_of_gt h)).2 hsmall
    show ¬ m.log2 + 1 = 53
    omega
  rw [pack]
  simp only [biased_exponentAt 0]
  rw [if_neg (by decide), if_neg hlog]

/-- A finite result in range is read back as it is. -/
theorem unpack_pack_finite (s : Sign) {m k : Nat} (h : 0 < m) (hheld : IsHeld m k) (hlast : k ≤ lastExponent) :
    unpack .binary64 (pack .binary64 (.finite s m (exponentAt k) h)) = .finite s m (exponentAt k) h := by
  rcases Nat.lt_or_ge m (2 ^ 52) with hsmall | hfull
  · obtain rfl : k = 0 := hheld.full.resolve_left (Nat.not_le.2 hsmall)
    rw [pack_finite_first s h hsmall, unpack_packComponents_first s h hsmall]
  · rw [pack_finite_full s h hfull hheld.below hlast, unpack_packComponents_full s h hfull hheld.below hlast]

/-- A finite result beyond the range is read back as infinite. -/
theorem unpack_pack_overflow (s : Sign) {m k : Nat} (h : 0 < m) (hover : lastExponent < k) :
    unpack .binary64 (pack .binary64 (.finite s m (exponentAt k) h)) = .infinity s := by
  have hrange : 2 ^ Format.binary64.exponentBits ≤ k + 1 + 1 := by
    show 2048 ≤ k + 1 + 1
    unfold lastExponent at hover
    omega
  rw [pack]
  simp only [biased_exponentAt k]
  rw [if_pos hrange]
  cases s <;> rfl

/-- What doubles hold survives being written as bits. -/
theorem unpack_pack_of_isRead {u : UnpackedFloat} (h : IsRead u) : unpack .binary64 (pack .binary64 u) = u := by
  cases h with
  | undefined => rfl
  | infinity s => cases s <;> rfl
  | zero s => cases s <;> rfl
  | finite s h held last => exact unpack_pack_finite s h held last

end FrameAtlas.Double
