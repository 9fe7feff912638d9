import FrameAtlas.Proofs.Scalar.Double.Counts

/-!
Equal doubles and doubles that compare equal. Bits are written again from what they are read as, so two doubles that
are read alike are one; only the two zeros are read differently and compare equal. A sum is the negative zero only if
both of its terms are.
-/

namespace FrameAtlas.Double

open Float.Model (Format UnpackedFloat)
open Float.Model.UnpackedFloat

theorem toBitVec_ofBitVec (b : BitVec 1) : (Sign.ofBitVec b).toBitVec = b := by
  unfold Sign.ofBitVec
  split
  · rename_i hzero
    exact hzero.symm
  · rename_i hone
    show 1#1 = b
    apply BitVec.eq_of_toNat_eq
    have hne : b.toNat ≠ 0 := fun hzero => hone (BitVec.eq_of_toNat_eq hzero)
    have := b.isLt
    show 1 = b.toNat
    omega

/-- Bits are put together again from the sign, the exponent and the mantissa in them. -/
theorem packComponents_unpack (b : BitVec Format.binary64.numBits) :
    packComponents .binary64 (Sign.ofBitVec (unpackSign b)) (unpackExponent b) (unpackMantissa b) = b := by
  apply BitVec.eq_of_toNat_eq
  have hsign : (unpackSign b).toNat = b.toNat >>> 63 % 2 ^ 1 := rfl
  have hexponent : (unpackExponent b).toNat = b.toNat >>> 52 % 2 ^ 11 := rfl
  have hmantissa : (unpackMantissa b).toNat = b.toNat >>> 0 % 2 ^ 52 := rfl
  have hlt : b.toNat < 2 ^ 64 := b.isLt
  rw [packComponents, BitVec.toNat_append, BitVec.toNat_append, toBitVec_ofBitVec,
    ← Nat.shiftLeft_add_eq_or_of_lt (unpackExponent b).isLt, ← Nat.shiftLeft_add_eq_or_of_lt (unpackMantissa b).isLt,
    hsign, hexponent, hmantissa]
  show ((b.toNat >>> 63 % 2 ^ 1) <<< 11 + b.toNat >>> 52 % 2 ^ 11) <<< 52 + b.toNat >>> 0 % 2 ^ 52 = b.toNat
  simp only [Nat.shiftLeft_eq, Nat.shiftRight_eq_div_pow]
  omega

theorem packComponents_eq {b : BitVec Format.binary64.numBits} {e : BitVec 11} {m : BitVec 52}
    (hexponent : unpackExponent b = e) (hmantissa : unpackMantissa b = m) :
    packComponents .binary64 (Sign.ofBitVec (unpackSign b)) e m = b := by
  rw [← hexponent, ← hmantissa]
  exact packComponents_unpack b

/-- Bits that doubles have are written again from what they are read as. -/
theorem pack_unpack {b : BitVec Format.binary64.numBits} (h : Format.binary64.Valid b) :
    pack .binary64 (unpack .binary64 b) = b := by
  have hmantissa : (unpackMantissa b).toNat < 2 ^ 52 := (unpackMantissa b).isLt
  have hmantissaBits : BitVec.ofNat 52 (unpackMantissa b).toNat = unpackMantissa b := by
    apply BitVec.eq_of_toNat_eq
    rw [BitVec.toNat_ofNat]
    omega
  rcases unpack_cases b with ⟨hlast, hsome, hread⟩ | ⟨hlast, hzero, hread⟩ | ⟨hfirst, hzero, hread⟩ |
    ⟨hfirst, hpos, hread⟩ | ⟨k, hk, hkLast, hpos, hread⟩
  -- All undefined doubles have the same bits.
  · rw [hread]
    exact (h.eq_packedNaN hlast hsome).symm
  · rw [hread]
    exact packComponents_eq hlast hzero
  · rw [hread]
    exact packComponents_eq hfirst hzero
  · rw [hread, pack_finite_first _ hpos hmantissa, hmantissaBits]
    exact packComponents_eq hfirst rfl
  · have hexponentBits : BitVec.ofNat 11 (k + 1) = unpackExponent b := by
      rw [← hk]
      apply BitVec.eq_of_toNat_eq
      rw [BitVec.toNat_ofNat]
      exact Nat.mod_eq_of_lt (unpackExponent b).isLt
    have himplicit : BitVec.ofNat 52 (2 ^ 52 + (unpackMantissa b).toNat) = unpackMantissa b := by
      apply BitVec.eq_of_toNat_eq
      rw [BitVec.toNat_ofNat]
      omega
    rw [hread, pack_finite_full _ hpos (Nat.le_add_right _ _) (by omega) hkLast, hexponentBits, himplicit]
    exact packComponents_unpack b

/-- Doubles that are read alike are the same double. -/
theorem eq_of_parts_eq {x y : Float} (h : parts x = parts y) : x = y := by
  obtain ⟨⟨bits, hbits⟩⟩ := x
  obtain ⟨⟨others, hothers⟩⟩ := y
  have hread : unpack .binary64 bits.toBitVec = unpack .binary64 others.toBitVec := h
  have hsame : bits.toBitVec = others.toBitVec := by rw [← pack_unpack hbits, ← pack_unpack hothers, hread]
  obtain rfl : bits = others := UInt64.toBitVec_inj.1 hsame
  rfl

def IsNotNegZero (x : Float) : Prop := parts x ≠ .zero .negative

/-- Doubles that compare equal are equal, unless they are the two zeros. -/
theorem eq_of_beq {x y : Float} (hx : IsNotNegZero x) (hy : IsNotNegZero y) (h : (x == y) = true) : x = y := by
  have hparts : (parts x).beq (parts y) = true := h
  obtain ⟨-, -, hequal | ⟨-, hzero⟩ | ⟨hzero, -⟩⟩ := (beq_iff_ne_notANumber_and_eq _ _).1 hparts
  · exact eq_of_parts_eq hequal
  · exact absurd hzero hy
  · exact absurd hzero hx

/-- What is not negative is not the zero below zero. -/
theorem IsNonneg.isNotNegZero {x : Float} (hx : IsNonneg x) : IsNotNegZero x := by
  intro hzero
  rw [IsNonneg, hzero] at hx
  exact Sign.noConfusion (Option.some.inj hx)

/-- A number other than zero is not written as zero. -/
theorem unpack_pack_ne_zero {s t : Sign} {m k : Nat} {h : 0 < m} (hheld : IsHeld m k) :
    unpack .binary64 (pack .binary64 (.finite s m (exponentAt k) h)) ≠ .zero t := by
  rcases Nat.lt_or_ge lastExponent k with hover | hlast
  · rw [unpack_pack_overflow s h hover]
    exact UnpackedFloat.noConfusion
  · rw [unpack_pack_finite s h hheld hlast]
    exact UnpackedFloat.noConfusion

/-- Nothing positive is rounded to zero. -/
theorem unpack_pack_round_ne_zero {s t : Sign} {a : Nat} (ha : 0 < a) (j : Nat) :
    unpack .binary64 (pack .binary64 (UnpackedFloat.round .binary64 s a (exponentAt j))) ≠ .zero t := by
  obtain ⟨m, k, h, hround, hrounded⟩ := round_isRounded s ha j
  rw [hround]
  exact unpack_pack_ne_zero hrounded.held

/-- What a whole number of units is rounded to is no zero below zero. -/
theorem unpack_pack_normalize_ne (n : Int) (j : Nat) :
    unpack .binary64 (pack .binary64 (UnpackedFloat.normalize .binary64 n (exponentAt j) .positive)) ≠
      .zero .negative := by
  unfold UnpackedFloat.normalize
  split
  · rename_i hnegative
    have hlt := Int.compare_eq_lt.1 hnegative
    exact unpack_pack_round_ne_zero (by omega) j
  · exact nofun
  · rename_i hpositive
    have hgt := Int.compare_eq_gt.1 hpositive
    exact unpack_pack_round_ne_zero (by omega) j

/-- A sum of doubles is a double by itself, or a whole number of units that is still to be rounded. -/
theorem add_cases {u w : UnpackedFloat} (hu : IsRead u) (hw : IsRead w)
    (h : ¬ (u = .zero .negative ∧ w = .zero .negative)) :
    (IsRead (UnpackedFloat.add .binary64 u w) ∧ UnpackedFloat.add .binary64 u w ≠ .zero .negative) ∨
      ∃ n j, UnpackedFloat.add .binary64 u w = UnpackedFloat.normalize .binary64 n (exponentAt j) .positive := by
  cases hu with
  | undefined => exact .inl ⟨.undefined, nofun⟩
  | infinity s =>
    left
    cases hw with
    | undefined => exact ⟨.undefined, nofun⟩
    | infinity t => cases s <;> cases t <;> first | exact ⟨.undefined, nofun⟩ | exact ⟨.infinity _, nofun⟩
    | zero t => exact ⟨.infinity s, nofun⟩
    | finite t hn held last => exact ⟨.infinity s, nofun⟩
  | zero s =>
    left
    cases hw with
    | undefined => exact ⟨.undefined, nofun⟩
    | infinity t => exact ⟨.infinity t, nofun⟩
    | zero t =>
      cases s with
      | positive => cases t <;> exact ⟨.zero .positive, nofun⟩
      | negative =>
        cases t with
        | positive => exact ⟨.zero .positive, nofun⟩
        | negative => exact absurd ⟨rfl, rfl⟩ h
    | finite t hn held last => exact ⟨.finite t hn held last, nofun⟩
  | finite s hm held last =>
    cases hw with
    | undefined => exact .inl ⟨.undefined, nofun⟩
    | infinity t => exact .inl ⟨.infinity t, nofun⟩
    | zero t => exact .inl ⟨.finite s hm held last, nofun⟩
    | finite t hn heldOther lastOther =>
      simp only [UnpackedFloat.add, min_exponentAt]
      exact .inr ⟨_, _, rfl⟩

/-- A sum is the zero below zero only if both of its terms are. -/
theorem isNotNegZero_add {x y : Float} (h : ¬ (parts x = .zero .negative ∧ parts y = .zero .negative)) :
    IsNotNegZero (x + y) := by
  rw [IsNotNegZero, parts_add]
  rcases add_cases (isRead_parts x) (isRead_parts y) h with ⟨hread, hne⟩ | ⟨n, j, hunits⟩
  · rw [unpack_pack_of_isRead hread]
    exact hne
  · rw [hunits]
    exact unpack_pack_normalize_ne n j

/-- The larger of a number and a positive one is no zero below zero. -/
theorem isNotNegZero_larger {x y : Float} (hy : IsPositive y) : IsNotNegZero (Scalar.larger x y) := by
  obtain ⟨m, e, h, hpositive⟩ := hy
  have hchosen : IsNotNegZero y := by
    rw [IsNotNegZero, hpositive]
    exact UnpackedFloat.noConfusion
  unfold Scalar.larger
  split
  · exact hchosen
  rename_i hge
  split
  · exact hchosen
  · intro hzero
    refine absurd ((lt_iff _ _).2 ?_) hge
    rw [hzero, hpositive]
    rfl

end FrameAtlas.Double
