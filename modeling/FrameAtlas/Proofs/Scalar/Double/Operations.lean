import FrameAtlas.Proofs.Scalar.Double.Parts

namespace FrameAtlas.Double

open Float.Model (Format UnpackedFloat totalExponent)
open Float.Model.UnpackedFloat

def parts (x : Float) : UnpackedFloat := x.toModel.unpack

/-- A double is read as one of few kinds of numbers. -/
theorem isRead_parts (x : Float) : IsRead (parts x) := isRead_unpack _

def IsNonneg (x : Float) : Prop := sign? (parts x) = some .positive

/-- Finite, and so many times as large as the least positive double. -/
def HasSize (x : Float) (n : Nat) : Prop := size? (parts x) = some n

theorem isUndefined_eq_false {x : Float} (h : sign? (parts x) ≠ none) : Scalar.isUndefined x = false := by
  have hdefined : parts x ≠ .notANumber := by
    intro hx
    rw [hx] at h
    exact h rfl
  have hself : (parts x).beq (parts x) = true :=
    (beq_iff_ne_notANumber_and_eq _ _).2 ⟨hdefined, hdefined, .inl rfl⟩
  have hequal : (x == x) = true := hself
  rw [Scalar.isUndefined, hequal]
  rfl

/-- A double that is not negative is infinite, zero, or positive in range. -/
theorem IsNonneg.cases {x : Float} (hx : IsNonneg x) :
    parts x = .infinity .positive ∨ parts x = .zero .positive ∨
      ∃ m k h, parts x = .finite .positive m (exponentAt k) h ∧ IsHeld m k ∧ k ≤ lastExponent := by
  unfold IsNonneg at hx
  have hread := isRead_parts x
  generalize parts x = u at hx hread
  cases hread with
  | undefined => contradiction
  | infinity s =>
    obtain rfl : s = .positive := Option.some.inj hx
    exact .inl rfl
  | zero s =>
    obtain rfl : s = .positive := Option.some.inj hx
    exact .inr (.inl rfl)
  | finite s h held last =>
    obtain rfl : s = .positive := Option.some.inj hx
    exact .inr (.inr ⟨_, _, h, rfl, held, last⟩)

theorem size?_finite (s : Sign) {m : Nat} (k : Nat) (h : 0 < m) :
    size? (.finite s m (exponentAt k) h) = some (m * 2 ^ k) := by
  rw [size?, toNat_exponentAt]

/-- What is rounded to at most a finite double is finite. -/
theorem hasSize_of_parts {z : Float} {s : Sign} {b c m k : Nat} {h : 0 < b}
    (hz : parts z = unpack .binary64 (pack .binary64 (.finite s b (exponentAt c) h))) (hb : IsHeld b c)
    (hm : IsHeld m k) (hk : k ≤ lastExponent) (hle : b * 2 ^ c ≤ m * 2 ^ k) : HasSize z (b * 2 ^ c) := by
  have hlast : c ≤ lastExponent := Nat.le_trans (hb.exponent_le hm hle) hk
  rw [unpack_pack_finite s h hb hlast] at hz
  rw [HasSize, hz, size?_finite]

theorem sign?_roundWithAccuracy (s : Sign) (m : Nat) (e : Int) (acc : Accuracy) :
    sign? (roundWithAccuracy .binary64 s m e acc) = some s := by
  rw [roundWithAccuracy]
  simp only
  split <;> rfl

/-- Rounding keeps the sign. -/
theorem sign?_round (s : Sign) (m : Nat) (e : Int) : sign? (UnpackedFloat.round .binary64 s m e) = some s :=
  sign?_roundWithAccuracy s _ _ _

/-- Doubles are added by adding what they are read as, and rounding. -/
theorem parts_add (x y : Float) :
    parts (x + y) = unpack .binary64 (pack .binary64 (UnpackedFloat.add .binary64 (parts x) (parts y))) := rfl

theorem min_exponentAt (k l : Nat) : min (exponentAt k) (exponentAt l) = exponentAt (min k l) := by
  unfold exponentAt
  omega

theorem decreaseExponent_fst (m k c : Nat) :
    (decreaseExponent m (exponentAt k) (exponentAt c)).1 = m * 2 ^ (k - c) := by
  have hshift : (exponentAt k - exponentAt c).toNat = k - c := by
    unfold exponentAt
    omega
  simp only [decreaseExponent, hshift, Nat.shiftLeft_eq]

/-- A number at its exponent is as large as its aligned mantissa at a smaller one. -/
theorem aligned {m k c : Nat} (h : c ≤ k) : m * 2 ^ (k - c) * 2 ^ c = m * 2 ^ k := by
  rw [Nat.mul_assoc, ← Nat.pow_add, Nat.sub_add_cancel h]

theorem aligned_add (m n k l : Nat) :
    (m * 2 ^ (k - min k l) + n * 2 ^ (l - min k l)) * 2 ^ min k l = m * 2 ^ k + n * 2 ^ l := by
  rw [Nat.add_mul, aligned (Nat.min_le_left k l), aligned (Nat.min_le_right k l)]

theorem add_finite_positive {m n k l : Nat} (hm : 0 < m) (hn : 0 < n) :
    UnpackedFloat.add .binary64 (.finite .positive m (exponentAt k) hm) (.finite .positive n (exponentAt l) hn) =
      UnpackedFloat.round .binary64 .positive (m * 2 ^ (k - min k l) + n * 2 ^ (l - min k l))
        (exponentAt (min k l)) := by
  have hpos : 0 < m * 2 ^ (k - min k l) := Nat.mul_pos hm (Nat.two_pow_pos _)
  have hsum : compare (((m * 2 ^ (k - min k l) : Nat) : Int) + (n * 2 ^ (l - min k l) : Nat)) 0 = .gt := by
    rw [Int.compare_eq_gt]
    omega
  simp only [UnpackedFloat.add, min_exponentAt, decreaseExponent_fst, Sign.apply, UnpackedFloat.normalize, hsum]
  rfl

/-- Sums of doubles that are not negative are not negative, and defined. -/
theorem IsNonneg.add {x y : Float} (hx : IsNonneg x) (hy : IsNonneg y) : IsNonneg (x + y) := by
  rw [IsNonneg, parts_add, sign?_unpack_pack]
  rcases hx.cases with hx | hx | ⟨m, k, hm, hx, -, -⟩ <;>
    rcases hy.cases with hy | hy | ⟨n, l, hn, hy, -, -⟩ <;> rw [hx, hy]
  case inr.inr.inr.inr => rw [add_finite_positive, sign?_round]
  all_goals rfl

theorem IsNonneg.cases_of_hasSize {x : Float} {a : Nat} (hx : IsNonneg x) (ha : HasSize x a) :
    parts x = .zero .positive ∧ a = 0 ∨
      ∃ m k h, parts x = .finite .positive m (exponentAt k) h ∧ IsHeld m k ∧ a = m * 2 ^ k := by
  unfold HasSize at ha
  rcases hx.cases with hparts | hparts | ⟨m, k, h, hparts, hheld, -⟩
  · rw [hparts] at ha
    contradiction
  · rw [hparts] at ha
    exact .inl ⟨hparts, (Option.some.inj ha).symm⟩
  · rw [hparts, size?_finite] at ha
    exact .inr ⟨m, k, h, hparts, hheld, (Option.some.inj ha).symm⟩

/-- A double that lies nearer to another one than to the next is at most that one. -/
theorem IsNonneg.size_le_of_close {x : Float} {a m k : Nat} (hx : IsNonneg x) (ha : HasSize x a)
    (hheld : IsHeld m k) (hclose : 2 * a < (2 * m + 1) * 2 ^ k) : a ≤ m * 2 ^ k := by
  rcases hx.cases_of_hasSize ha with ⟨-, rfl⟩ | ⟨b, c, -, -, hb, rfl⟩
  · exact Nat.zero_le _
  · exact hb.le_of_close hheld hclose

/-- A sum that is less than half a gap above a double is at most that. -/
theorem hasSize_add {x y : Float} {a b m k : Nat} (hx : IsNonneg x) (hy : IsNonneg y) (ha : HasSize x a)
    (hb : HasSize y b) (hheld : IsHeld m k) (hk : k ≤ lastExponent) (hclose : 2 * (a + b) < (2 * m + 1) * 2 ^ k) :
    ∃ n, HasSize (x + y) n ∧ n ≤ m * 2 ^ k ∧ (0 < a + b → 0 < n) := by
  have hsum := parts_add x y
  rcases hx.cases_of_hasSize ha with ⟨hzero, rfl⟩ | ⟨p, i, hp, hpx, hpi, rfl⟩
  · have hother : parts (x + y) = parts y := by
      rw [hsum, hzero]
      rcases hy.cases_of_hasSize hb with ⟨hy0, -⟩ | ⟨q, j, hq, hqy, -, -⟩
      · rw [hy0]
        rfl
      · have hread := isRead_parts y
        rw [hqy] at hread ⊢
        exact unpack_pack_of_isRead hread
    rw [Nat.zero_add] at hclose ⊢
    exact ⟨b, (congrArg size? hother).trans hb, hy.size_le_of_close hb hheld hclose, id⟩
  · rcases hy.cases_of_hasSize hb with ⟨hzero, rfl⟩ | ⟨q, j, hq, hqy, hqj, rfl⟩
    · have hother : parts (x + y) = parts x := by
        have hread := isRead_parts x
        rw [hpx] at hread
        rw [hsum, hzero, hpx]
        exact unpack_pack_of_isRead hread
      rw [Nat.add_zero] at hclose ⊢
      exact ⟨_, (congrArg size? hother).trans ha, hx.size_le_of_close ha hheld hclose, id⟩
    · have hpos : 0 < p * 2 ^ (i - min i j) + q * 2 ^ (j - min i j) :=
        Nat.add_pos_left (Nat.mul_pos hp (Nat.two_pow_pos _)) _
      obtain ⟨n, l, hn, hround, hrounded⟩ := round_isRounded .positive hpos (min i j)
      rw [aligned_add] at hrounded
      have hle := hrounded.le_of_close m k hheld hclose
      rw [hpx, hqy, add_finite_positive, hround] at hsum
      exact ⟨n * 2 ^ l, hasSize_of_parts hsum hrounded.held hheld hk hle, hle,
        fun _ => Nat.mul_pos hn (Nat.two_pow_pos l)⟩

/-- A power of two that doubles hold. -/
theorem isHeld_twoPow {e : Nat} (h : 52 ≤ e) : IsHeld (2 ^ 52) (e - 52) ∧ 2 ^ 52 * 2 ^ (e - 52) = 2 ^ e := by
  refine ⟨⟨by decide, by decide, .inl (Nat.le_refl _)⟩, ?_⟩
  rw [← Nat.pow_add]
  congr 1
  omega

def IsPositive (x : Float) : Prop := ∃ m e h, parts x = .finite .positive m e h

theorem IsNonneg.isPositive {x : Float} {n : Nat} (hx : IsNonneg x) (hn : HasSize x n) (hpos : 0 < n) :
    IsPositive x := by
  rcases hx.cases_of_hasSize hn with ⟨-, rfl⟩ | ⟨m, k, h, hparts, -, -⟩
  · exact absurd hpos (Nat.lt_irrefl 0)
  · exact ⟨m, _, h, hparts⟩

theorem IsPositive.size_pos {x : Float} {n : Nat} (hx : IsPositive x) (hn : HasSize x n) : 0 < n := by
  obtain ⟨m, e, h, hparts⟩ := hx
  rw [HasSize, hparts] at hn
  rw [← Option.some.inj hn]
  exact Nat.mul_pos h (Nat.two_pow_pos _)

/-- Not negative, and at most `2 ^ e` units. -/
structure IsWithin (x : Float) (e : Nat) : Prop where
  nonneg : IsNonneg x
  size : ∃ n, HasSize x n ∧ n ≤ 2 ^ e

theorem IsWithin.mono {x : Float} {d e : Nat} (hx : IsWithin x d) (h : d ≤ e) : IsWithin x e := by
  obtain ⟨hnonneg, n, hn, hnd⟩ := hx
  exact ⟨hnonneg, n, hn, Nat.le_trans hnd (Nat.pow_le_pow_right (by decide) h)⟩

/-- What is added to a sum below a power of two does not carry it further if it is small against that. -/
theorem IsWithin.add {x y : Float} {e : Nat} (he : e ≤ 1900) (hx : IsWithin x (e + 54)) (hy : IsWithin y e) :
    IsWithin (x + y) (e + 54) ∧ (IsPositive x ∨ IsPositive y → IsPositive (x + y)) := by
  obtain ⟨hxn, a, ha, hae⟩ := hx
  obtain ⟨hyn, b, hb, hbe⟩ := hy
  obtain ⟨hheld, hvalue⟩ := isHeld_twoPow (show 52 ≤ e + 54 by omega)
  have hlast : e + 54 - 52 ≤ lastExponent := by
    unfold lastExponent
    omega
  have hclose : 2 * (a + b) < (2 * 2 ^ 52 + 1) * 2 ^ (e + 54 - 52) := by
    have hlimit : (2 : Nat) ^ (e + 54) = 2 ^ e * 2 ^ 54 := Nat.pow_add 2 e 54
    have hgap : (2 : Nat) ^ (e + 54 - 52) = 2 ^ e * 2 ^ 2 := Nat.pow_add 2 e 2
    have hpos := Nat.two_pow_pos e
    omega
  obtain ⟨n, hn, hne, hpos⟩ := hasSize_add hxn hyn ha hb hheld hlast hclose
  refine ⟨⟨hxn.add hyn, n, hn, hvalue ▸ hne⟩, ?_⟩
  rintro (hx | hy)
  · exact (hxn.add hyn).isPositive hn (hpos (Nat.add_pos_left (hx.size_pos ha) b))
  · exact (hxn.add hyn).isPositive hn (hpos (Nat.add_pos_right a (hy.size_pos hb)))

/-- A bound on many doubles is a bound on their sum, but for rounding; and the sum is positive if one of them is. -/
theorem IsWithin.foldl_add {xs : List Float} {e : Nat} (he : e ≤ 1900) (hxs : ∀ x ∈ xs, IsWithin x e)
    {total : Float} (htotal : IsWithin total (e + 54)) :
    IsWithin (xs.foldl (· + ·) total) (e + 54) ∧
      (IsPositive total ∨ (∃ x ∈ xs, IsPositive x) → IsPositive (xs.foldl (· + ·) total)) := by
  induction xs generalizing total with
  | nil =>
    refine ⟨htotal, ?_⟩
    rintro (htop | ⟨x, hx, -⟩)
    · exact htop
    · exact absurd hx List.not_mem_nil
  | cons x rest ih =>
    obtain ⟨hnext, hpos⟩ := htotal.add he (hxs x List.mem_cons_self)
    obtain ⟨hrest, hrestPos⟩ := ih (fun y hy => hxs y (List.mem_cons_of_mem x hy)) hnext
    refine ⟨hrest, ?_⟩
    rintro (htop | ⟨y, hy, hyPos⟩)
    · exact hrestPos (.inl (hpos (.inl htop)))
    · rcases List.mem_cons.1 hy with rfl | hy
      · exact hrestPos (.inl (hpos (.inr hyPos)))
      · exact hrestPos (.inr ⟨y, hy, hyPos⟩)

theorem parts_mul (x y : Float) :
    parts (x * y) = unpack .binary64 (pack .binary64 (UnpackedFloat.mul .binary64 (parts x) (parts y))) := rfl

theorem parts_div (x y : Float) :
    parts (x / y) = unpack .binary64 (pack .binary64 (UnpackedFloat.div .binary64 (parts x) (parts y))) := rfl

theorem IsNonneg.mul {x y : Float} (hx : IsNonneg x) (hy : IsPositive y) : IsNonneg (x * y) := by
  obtain ⟨n, l, hn, hy⟩ := hy
  rw [IsNonneg, parts_mul, sign?_unpack_pack, hy]
  rcases hx.cases with hx | hx | ⟨m, k, hm, hx, -, -⟩ <;> rw [hx]
  · rfl
  · rfl
  · exact sign?_roundWithAccuracy .positive _ _ _

theorem IsNonneg.div {x y : Float} (hx : IsNonneg x) (hy : IsPositive y) : IsNonneg (x / y) := by
  obtain ⟨n, l, hn, hy⟩ := hy
  rw [IsNonneg, parts_div, sign?_unpack_pack, hy]
  rcases hx.cases with hx | hx | ⟨m, k, hm, hx, -, -⟩ <;> rw [hx]
  · rfl
  · rfl
  · exact sign?_roundWithAccuracy .positive _ _ _

def unitBits : Nat := 1074

theorem twoPow_mul_twoPow {a b c : Nat} (h : a + b = c) : 2 ^ a * 2 ^ b = 2 ^ c := by rw [← Nat.pow_add, h]

def IsOneOrMore (x : Float) : Prop :=
  parts x = .infinity .positive ∨
    ∃ m k h, parts x = .finite .positive m (exponentAt k) h ∧ IsHeld m k ∧ 2 ^ unitBits ≤ m * 2 ^ k

theorem le_log2_add_of_one_le {n l : Nat} (hone : 2 ^ unitBits ≤ n * 2 ^ l) : unitBits ≤ n.log2 + l := by
  have hlt : 2 ^ unitBits < 2 ^ (n.log2 + 1 + l) := by
    calc 2 ^ unitBits ≤ n * 2 ^ l := hone
      _ < 2 ^ (n.log2 + 1) * 2 ^ l := Nat.mul_lt_mul_of_pos_right Nat.lt_log2_self (Nat.two_pow_pos l)
      _ = 2 ^ (n.log2 + 1 + l) := (Nat.pow_add _ _ _).symm
  have hbits := (Nat.pow_lt_pow_iff_right (by decide : 1 < 2)).1 hlt
  omega

/-- A whole quotient has nearly as many bits as the dividend has above those of the divisor. -/
theorem twoPow_le_quotient {m n added bits : Nat} (hm : 0 < m) (hn : 0 < n)
    (hbits : n.log2 + 1 + bits ≤ m.log2 + added) : 2 ^ bits ≤ m * 2 ^ added / n := by
  rw [Nat.le_div_iff_mul_le hn]
  calc 2 ^ bits * n ≤ 2 ^ bits * 2 ^ (n.log2 + 1) := Nat.mul_le_mul_left _ (Nat.le_of_lt Nat.lt_log2_self)
    _ = 2 ^ (bits + (n.log2 + 1)) := (Nat.pow_add _ _ _).symm
    _ ≤ 2 ^ (m.log2 + added) := Nat.pow_le_pow_right (by decide) (by omega)
    _ = 2 ^ m.log2 * 2 ^ added := Nat.pow_add _ _ _
    _ ≤ m * 2 ^ added := Nat.mul_le_mul_right _ (Nat.log2_self_le (Nat.ne_of_gt hm))

/-- And it has no more of them. -/
theorem log2_quotient_lt {m n added : Nat} (hn : 0 < n) (hne : m * 2 ^ added / n ≠ 0) :
    (m * 2 ^ added / n).log2 + n.log2 < m.log2 + 1 + added := by
  apply (Nat.pow_lt_pow_iff_right (by decide : 1 < 2)).1
  calc 2 ^ ((m * 2 ^ added / n).log2 + n.log2) = 2 ^ (m * 2 ^ added / n).log2 * 2 ^ n.log2 := Nat.pow_add _ _ _
    _ ≤ m * 2 ^ added / n * n := Nat.mul_le_mul (Nat.log2_self_le hne) (Nat.log2_self_le (Nat.ne_of_gt hn))
    _ ≤ m * 2 ^ added := Nat.div_mul_le_self _ _
    _ < 2 ^ (m.log2 + 1) * 2 ^ added := Nat.mul_lt_mul_of_pos_right Nat.lt_log2_self (Nat.two_pow_pos _)
    _ = 2 ^ (m.log2 + 1 + added) := (Nat.pow_add _ _ _).symm

/-- A quotient by a number from one on is rounded at no greater exponent than the dividend has. -/
theorem divCore_le {m k n l : Nat} (hm : IsHeld m k) (hn : IsHeld n l) (hone : 2 ^ unitBits ≤ n * 2 ^ l) :
    ∃ q acc shift c, divCore .binary64 m (exponentAt k) n (exponentAt l) = (q, exponentAt c - (shift : Nat), acc) ∧
      q < 2 ^ (53 + shift) ∧ (2 ^ (52 + shift) ≤ q ∨ c = 0) ∧ c ≤ k := by
  have hmLog : m.log2 < 53 := (Nat.log2_lt (Nat.ne_of_gt hm.pos)).2 hm.below
  have hdivisor : 1074 ≤ n.log2 + l := le_log2_add_of_one_le hone
  -- The exponent at which whole quotients are formed, and the bits added to the dividend for it.
  obtain ⟨base, hbase⟩ : ∃ base : Int,
      base = min ((k : Int) - l) (max (m.log2 + k - n.log2 - l - 53 : Int) (-1074)) :=
    ⟨_, rfl⟩
  obtain ⟨added, hadded⟩ : ∃ added : Nat, added = ((k : Int) - l - base).toNat := ⟨_, rfl⟩
  obtain ⟨q, hq⟩ : ∃ q, q = m * 2 ^ added / n := ⟨_, rfl⟩
  have hcore : divCore .binary64 m (exponentAt k) n (exponentAt l) =
      (q, base, accuracyOfFraction (m * 2 ^ added % n) n) := by
    have htarget : min (exponentAt k - exponentAt l) (Format.binary64.targetExponent
        (totalExponent m (exponentAt k) - totalExponent n (exponentAt l))) = base := by
      rw [targetExponent_eq, hbase]
      unfold totalExponent exponentAt
      omega
    have hshift : (exponentAt k - exponentAt l - base).toNat = added := by
      rw [hadded]
      unfold exponentAt
      omega
    simp only [divCore, htarget, hshift, Nat.shiftLeft_eq, hq]
  have hfew : q ≠ 0 → q.log2 + n.log2 < m.log2 + 1 + added := by
    rw [hq]
    exact log2_quotient_lt hn.pos
  have hqZero : q = 0 → q.log2 = 0 := fun hzero => hzero ▸ Nat.log2_zero
  obtain ⟨c, hc⟩ : ∃ c, c = (max (q.log2 + base - 52) (-1074) + 1074).toNat := ⟨_, rfl⟩
  obtain ⟨shift, hshift⟩ : ∃ shift, shift = (exponentAt c - base).toNat := ⟨_, rfl⟩
  have hsome : -1074 < base → 52 ≤ q.log2 := by
    intro habove
    have hmany : 2 ^ 52 ≤ q := by
      rw [hq]
      exact twoPow_le_quotient hm.pos hn.pos (by omega)
    exact (Nat.le_log2 (by omega)).2 hmany
  refine ⟨q, accuracyOfFraction (m * 2 ^ added % n) n, shift, c, ?_, ?_, ?_, ?_⟩
  · have hexponent : exponentAt c - (shift : Int) = base := by
      unfold exponentAt at hshift ⊢
      omega
    rw [hexponent]
    exact hcore
  · have hlog : q.log2 + 1 ≤ 53 + shift := by
      unfold exponentAt at hshift
      omega
    exact Nat.lt_of_lt_of_le Nat.lt_log2_self (Nat.pow_le_pow_right (by decide) hlog)
  · by_cases hfirst : c = 0
    · exact .inr hfirst
    · left
      have hlog : 52 + shift = q.log2 := by
        unfold exponentAt at hshift
        omega
      have hne : q ≠ 0 := by
        intro hzero
        have := hqZero hzero
        omega
      rw [hlog]
      exact Nat.log2_self_le hne
  · by_cases hzero : q = 0
    · have := hqZero hzero
      omega
    · have := hfew hzero
      omega

theorem isWithin_of_zero {x : Float} (h : parts x = .zero .positive) (e : Nat) : IsWithin x e :=
  ⟨congrArg sign? h, 0, congrArg size? h, Nat.zero_le _⟩

/-- A quotient by a number from one on is at most four times the dividend. -/
theorem IsWithin.div {x y : Float} {e : Nat} (he : 52 ≤ e) (hlast : e ≤ 1900) (hx : IsWithin x e)
    (hy : IsOneOrMore y) : IsWithin (x / y) (e + 2) := by
  obtain ⟨hxn, a, ha, hae⟩ := hx
  have hdiv := parts_div x y
  rcases hxn.cases_of_hasSize ha with ⟨hxz, -⟩ | ⟨m, k, hm, hxm, hmk, rfl⟩
  · apply isWithin_of_zero
    rw [hdiv, hxz]
    rcases hy with hy | ⟨n, l, hn, hy, -, -⟩ <;> rw [hy] <;> simp only [UnpackedFloat.div] <;> rfl
  rcases hy with hy | ⟨n, l, hn, hy, hnl, hone⟩
  · apply isWithin_of_zero
    rw [hdiv, hxm, hy]
    simp only [UnpackedFloat.div]
    rfl
  obtain ⟨q, acc, shift, c, hcore, hbelow, hfull, hck⟩ := divCore_le hmk hnl hone
  have hround : UnpackedFloat.div .binary64 (parts x) (parts y) =
      roundWithAccuracy .binary64 .positive q (exponentAt c - (shift : Nat)) acc := by
    rw [hxm, hy]
    simp only [UnpackedFloat.div, hcore]
    rfl
  rw [hround] at hdiv
  rcases roundWithAccuracy_cases .positive acc hbelow hfull with ⟨-, hresult⟩ | ⟨b, i, hb, hresult, hbi, -, hic⟩
  · apply isWithin_of_zero
    rw [hdiv, hresult]
    rfl
  · have hexponent : k ≤ e - 52 := by
      apply hmk.exponent_le (isHeld_twoPow he).1
      rw [(isHeld_twoPow he).2]
      exact hae
    have hi : i ≤ lastExponent := by
      unfold lastExponent
      omega
    rw [hresult, unpack_pack_finite .positive hb hbi hi] at hdiv
    refine ⟨congrArg sign? hdiv, b * 2 ^ i, ?_, ?_⟩
    · rw [HasSize, hdiv, size?_finite]
    · calc b * 2 ^ i ≤ 2 ^ 53 * 2 ^ i := Nat.mul_le_mul_right _ (Nat.le_of_lt hbi.below)
        _ = 2 ^ (53 + i) := (Nat.pow_add _ _ _).symm
        _ ≤ 2 ^ (e + 2) := Nat.pow_le_pow_right (by decide) (by omega)

def IsBoundedBelow (x : Float) : Prop := sign? (parts x) ≠ none ∧ parts x ≠ .infinity .negative

theorem IsNonneg.isBoundedBelow {x : Float} (hx : IsNonneg x) : IsBoundedBelow x := by
  rw [IsBoundedBelow, hx]
  refine ⟨Option.some_ne_none _, ?_⟩
  intro hparts
  rw [IsNonneg, hparts] at hx
  exact Sign.noConfusion (Option.some.inj hx)

theorem isBoundedBelow_of_isFinite {x : Float} (hx : x.isFinite = true) : IsBoundedBelow x := by
  have hfinite : (parts x).isFinite = true := hx
  unfold IsBoundedBelow
  cases hparts : parts x with
  | notANumber =>
    rw [hparts] at hfinite
    contradiction
  | infinity s =>
    rw [hparts] at hfinite
    contradiction
  | zero s => exact ⟨Option.some_ne_none s, UnpackedFloat.noConfusion⟩
  | finite s m e h => exact ⟨Option.some_ne_none s, UnpackedFloat.noConfusion⟩

theorem add_finite_negative {m n k l : Nat} (hm : 0 < m) (hn : 0 < n) :
    UnpackedFloat.add .binary64 (.finite .negative m (exponentAt k) hm) (.finite .positive n (exponentAt l) hn) =
      UnpackedFloat.normalize .binary64 (-(m * 2 ^ (k - min k l) : Nat) + (n * 2 ^ (l - min k l) : Nat))
        (exponentAt (min k l)) .positive := by
  simp only [UnpackedFloat.add, min_exponentAt, decreaseExponent_fst, Sign.apply]

/-- A double bounded below is not negative, or it is a finite one below zero. -/
theorem IsBoundedBelow.cases {x : Float} (hx : IsBoundedBelow x) :
    IsNonneg x ∨ parts x = .zero .negative ∨
      ∃ m k h, parts x = .finite .negative m (exponentAt k) h ∧ IsHeld m k ∧ k ≤ lastExponent := by
  obtain ⟨hdefined, hbottom⟩ := hx
  have hread := isRead_parts x
  unfold IsNonneg
  generalize parts x = u at hdefined hbottom hread
  cases hread with
  | undefined => exact absurd rfl hdefined
  | infinity s =>
    cases s with
    | negative => exact absurd rfl hbottom
    | positive => exact .inl rfl
  | zero s =>
    cases s with
    | negative => exact .inr (.inl rfl)
    | positive => exact .inl rfl
  | finite s h held last =>
    cases s with
    | negative => exact .inr (.inr ⟨_, _, h, rfl, held, last⟩)
    | positive => exact .inl rfl

theorem isBoundedBelow_of_finite {x : Float} {s : Sign} {m : Nat} {e : Int} {h : 0 < m}
    (hx : parts x = .finite s m e h) : IsBoundedBelow x := by
  rw [IsBoundedBelow, hx]
  exact ⟨Option.some_ne_none _, UnpackedFloat.noConfusion⟩

/-- A result below zero that is no larger in size than a number in range is in range itself. -/
theorem isBoundedBelow_of_round_negative {z : Float} {m k a j : Nat} (hmk : IsHeld m k) (hk : k ≤ lastExponent)
    (ha : 0 < a) (hless : a * 2 ^ j ≤ m * 2 ^ k)
    (hz : parts z = unpack .binary64 (pack .binary64 (UnpackedFloat.round .binary64 .negative a (exponentAt j)))) :
    IsBoundedBelow z := by
  obtain ⟨c, i, hc, hround, hrounded⟩ := round_isRounded .negative ha j
  have hle : c * 2 ^ i ≤ m * 2 ^ k := by
    apply hrounded.le_of_close m k hmk
    have hpos := Nat.two_pow_pos k
    rw [Nat.add_mul, Nat.mul_assoc]
    omega
  have hi : i ≤ lastExponent := Nat.le_trans (hrounded.held.exponent_le hmk hle) hk
  apply isBoundedBelow_of_finite
  rw [hz, hround]
  exact unpack_pack_finite .negative hc hrounded.held hi

/-- What is not infinite below zero stays so when something is added. -/
theorem IsBoundedBelow.add {x y : Float} (hx : IsBoundedBelow x) (hy : IsNonneg y) : IsBoundedBelow (x + y) := by
  have hsum := parts_add x y
  have hnonneg : sign? (UnpackedFloat.add .binary64 (parts x) (parts y)) = some .positive →
      IsBoundedBelow (x + y) := by
    intro hsign
    apply IsNonneg.isBoundedBelow
    rw [IsNonneg, hsum, sign?_unpack_pack, hsign]
  rcases hx.cases with hx | hx | ⟨m, k, hm, hx, hmk, hk⟩
  · exact (hx.add hy).isBoundedBelow
  · apply hnonneg
    rcases hy.cases with hy | hy | ⟨n, l, hn, hy, -, -⟩ <;> rw [hx, hy] <;> rfl
  -- Below zero and in range: the sum has no greater size, or it is not below zero any more.
  rcases hy.cases with hy | hy | ⟨n, l, hn, hy, -, -⟩
  · apply hnonneg
    rw [hx, hy]
    rfl
  · have hsame : parts (x + y) = .finite .negative m (exponentAt k) hm := by
      rw [hsum, hx, hy]
      exact unpack_pack_finite .negative hm hmk hk
    exact isBoundedBelow_of_finite hsame
  · obtain ⟨a, ha⟩ : ∃ a, a = m * 2 ^ (k - min k l) := ⟨_, rfl⟩
    obtain ⟨b, hb⟩ : ∃ b, b = n * 2 ^ (l - min k l) := ⟨_, rfl⟩
    have hadd : UnpackedFloat.add .binary64 (parts x) (parts y) =
        UnpackedFloat.normalize .binary64 (-(a : Int) + (b : Int)) (exponentAt (min k l)) .positive := by
      rw [hx, hy, add_finite_negative, ← ha, ← hb]
    rcases Nat.lt_trichotomy b a with hlt | heq | hgt
    · have hnegative : compare (-(a : Int) + (b : Int)) 0 = .lt := by
        rw [Int.compare_eq_lt]
        omega
      have hsize : (-(-(a : Int) + (b : Int))).toNat = a - b := by omega
      have hless : (a - b) * 2 ^ min k l ≤ m * 2 ^ k := by
        rw [← aligned (Nat.min_le_left k l), ← ha]
        exact Nat.mul_le_mul_right _ (Nat.sub_le a b)
      apply isBoundedBelow_of_round_negative hmk hk (Nat.sub_pos_of_lt hlt) hless
      rw [hsum, hadd, UnpackedFloat.normalize, hnegative, hsize]
    · apply hnonneg
      have hzero : compare (-(a : Int) + (b : Int)) 0 = .eq := by
        rw [compare_eq_iff_eq]
        omega
      rw [hadd, UnpackedFloat.normalize, hzero]
      rfl
    · apply hnonneg
      have hpositive : compare (-(a : Int) + (b : Int)) 0 = .gt := by
        rw [Int.compare_eq_gt]
        omega
      rw [hadd, UnpackedFloat.normalize, hpositive]
      exact sign?_round .positive _ _

theorem lt_iff (x y : Float) : x < y ↔ UnpackedFloat.lt (parts x) (parts y) = true := by
  show decide (x.toModel < y.toModel) = true ↔ _
  rw [decide_eq_true_iff]
  rfl

theorem isNonneg_of_pos {x : Float} (h : ((0 : Nat) : Float) < x) : IsNonneg x := by
  have hlt := (lt_iff _ _).1 h
  have hzero : parts ((0 : Nat) : Float) = .zero .positive := rfl
  rw [hzero] at hlt
  unfold IsNonneg
  cases hx : parts x with
  | notANumber =>
    rw [hx] at hlt
    contradiction
  | infinity s =>
    cases s with
    | positive => rfl
    | negative =>
      rw [hx] at hlt
      contradiction
  | zero s =>
    rw [hx] at hlt
    contradiction
  | finite s m e hm =>
    cases s with
    | positive => rfl
    | negative =>
      rw [hx] at hlt
      contradiction

theorem isNonneg_positivePart (x : Float) : IsNonneg (Scalar.positivePart x) := by
  unfold Scalar.positivePart
  split
  · rename_i hpos
    exact isNonneg_of_pos hpos
  · rfl

theorem isPositive_one : IsPositive ((1 : Nat) : Float) := ⟨2 ^ 52, exponentAt 1022, by decide, rfl⟩

theorem IsWithin.larger {x y : Float} {e : Nat} (hx : IsWithin x e) (hy : IsWithin y e) :
    IsWithin (Scalar.larger x y) e := by
  unfold Scalar.larger
  split
  · exact hy
  · split
    · exact hy
    · exact hx

/-- The larger of a number and one is positive. -/
theorem IsNonneg.isPositive_larger {x : Float} (hx : IsNonneg x) (hfinite : ∃ n, HasSize x n) :
    IsPositive (Scalar.larger x ((1 : Nat) : Float)) := by
  unfold Scalar.larger
  split
  · exact isPositive_one
  rename_i hge
  split
  · exact isPositive_one
  obtain ⟨n, hn⟩ := hfinite
  rcases hx.cases_of_hasSize hn with ⟨hzero, -⟩ | ⟨m, k, h, hparts, -, -⟩
  · refine absurd ((lt_iff _ _).2 ?_) hge
    rw [hzero]
    rfl
  · exact ⟨m, _, h, hparts⟩

/-- A difference of finite doubles is never undefined. -/
theorem sign?_normalize_ne_none (m : Int) (e : Int) (s : Sign) :
    sign? (UnpackedFloat.normalize .binary64 m e s) ≠ none := by
  unfold UnpackedFloat.normalize
  split
  · rw [sign?_round]
    exact Option.some_ne_none _
  · exact Option.some_ne_none _
  · rw [sign?_round]
    exact Option.some_ne_none _

/-- A sum is defined if both numbers are and one of them is finite. -/
theorem sign?_add_ne_none {x y : Float} (hx : sign? (parts x) ≠ none) (hy : y.isFinite = true) :
    sign? (parts (x + y)) ≠ none := by
  have hfinite : (parts y).isFinite = true := hy
  rw [parts_add, sign?_unpack_pack]
  generalize parts x = u at hx
  generalize parts y = w at hfinite
  cases w with
  | notANumber => contradiction
  | infinity s => contradiction
  | zero s =>
    cases u with
    | notANumber => exact absurd rfl hx
    | infinity t => exact Option.some_ne_none _
    | zero t => cases s <;> cases t <;> exact Option.some_ne_none _
    | finite t m e h => exact Option.some_ne_none _
  | finite s n f hn =>
    cases u with
    | notANumber => exact absurd rfl hx
    | infinity t => exact Option.some_ne_none _
    | zero t => exact Option.some_ne_none _
    | finite t m e h => exact sign?_normalize_ne_none _ _ _

end FrameAtlas.Double
